import PaymentRecovery.Lib.Run
import PaymentRecovery.Recovery.DistillerMoves

/-!
# What the distiller does to the rule store

`set_status` moves rows from one status to another and leaves everything else
of them alone but the provenance; `add_rule` appends one. From that: which rows
each operation of the distiller moves, and on what evidence.
-/

namespace PaymentRecovery.Recovery

open PaymentRecovery.Python PaymentRecovery.Lib PaymentRecovery.Lib.Table
open PaymentRecovery.Rules PaymentRecovery.Distill Program

/-- Key and version name one rule, as the table's constraint says. -/
def UniqueRules (rows : List RuleRow) : Prop := (rows.map ruleId).Nodup

/-! ## The rules a distiller looks at -/

section Loaded

variable {σ : Type} {D : PaymentDistiller σ} {statuses : List RuleStatus} {rows : List RuleRow}
  {ls : List LoadedRule} {l : LoadedRule}

/-- Key and version of a loaded rule. -/
def LoadedRule.id (l : LoadedRule) : String × Int := (l.ruleKey, l.version)

theorem LoadedFrom.id {schema : Schema} {row : RuleRow} (h : LoadedFrom schema row l) :
    l.id = ruleId row := by
  unfold LoadedRule.id ruleId
  rw [h.ruleKey, h.version]

theorem loaded_ids {schema : Schema} (h : List.Forall₂ (LoadedFrom schema) rows ls) :
    ls.map LoadedRule.id = rows.map ruleId := by
  induction h with
  | nil => rfl
  | cons hfirst _ ih => rw [List.map_cons, List.map_cons, hfirst.id, ih]

/-- The row holds an accepted rule of distilled origin. -/
structure DistilledRow (schema : Schema) (row : RuleRow) (rule : Rule) : Prop where
  rule : acceptedRule schema row = some rule
  origin : ∃ provenance, jsonLoads row.provenanceJson = .ok provenance ∧
    isDistilled provenance = .ok true

theorem keepDistilled_spec {kept : List LoadedRule} (h : keepDistilled ls = .ok kept) :
    kept.Sublist ls ∧ ∀ l, l ∈ kept ↔ l ∈ ls ∧ isDistilled l.provenance = .ok true := by
  induction ls generalizing kept with
  | nil =>
    injection h with h
    subst h
    simp
  | cons first rest ih =>
    obtain ⟨distilled, hdistilled, h⟩ := bind_ok h
    obtain ⟨others, hothers, h⟩ := bind_ok h
    injection h with h
    obtain ⟨hsub, hmem⟩ := ih hothers
    cases distilled with
    | true =>
      subst h
      refine ⟨hsub.cons_cons first, fun l => ?_⟩
      simp only [if_true, List.mem_cons, hmem]
      refine ⟨?_, ?_⟩
      · rintro (rfl | ⟨hl, hd⟩)
        · exact ⟨.inl rfl, hdistilled⟩
        · exact ⟨.inr hl, hd⟩
      · rintro ⟨rfl | hl, hd⟩
        · exact .inl rfl
        · exact .inr ⟨hl, hd⟩
    | false =>
      subst h
      refine ⟨hsub.cons first, fun l => ?_⟩
      simp only [Bool.false_eq_true, if_false, List.mem_cons, hmem]
      refine ⟨fun ⟨hl, hd⟩ => ⟨.inr hl, hd⟩, ?_⟩
      rintro ⟨rfl | hl, hd⟩
      · rw [hdistilled] at hd
        cases hd
      · exact ⟨hl, hd⟩

/-- The loaded rules of the statuses, one status after another. -/
theorem distilledRules_cons {status : RuleStatus}
    (h : D.distilledRules (status :: statuses) rows = .ok ls) :
    ∃ loaded kept others, listByStatus D.schema status rows = .ok loaded ∧
      keepDistilled loaded = .ok kept ∧ D.distilledRules statuses rows = .ok others ∧
      ls = kept ++ others := by
  unfold PaymentDistiller.distilledRules at h
  obtain ⟨loaded, hloaded, h⟩ := bind_ok h
  obtain ⟨kept, hkept, h⟩ := bind_ok h
  obtain ⟨others, hothers, h⟩ := bind_ok h
  injection h with h
  exact ⟨loaded, kept, others, hloaded, hkept, hothers, h.symm⟩

/-- A rule the distiller looks at is what a row of such a status holds. -/
theorem row_of_distilled (h : D.distilledRules statuses rows = .ok ls) (hl : l ∈ ls) :
    ∃ row ∈ rows, (∃ status ∈ statuses, row.status = status.value) ∧
      LoadedFrom D.schema row l ∧ DistilledRow D.schema row l.rule := by
  induction statuses generalizing ls with
  | nil =>
    injection h with h
    subst h
    cases hl
  | cons status statuses ih =>
    obtain ⟨loaded, kept, others, hloaded, hkept, hothers, rfl⟩ := distilledRules_cons h
    rcases List.mem_append.mp hl with hl | hl
    · obtain ⟨hmem, hdistilled⟩ := ((keepDistilled_spec hkept).2 _).mp hl
      obtain ⟨row, hrow, hfrom⟩ := forall₂_mem (loaded_exact hloaded).flip hmem
      have hfrom : LoadedFrom D.schema row l := hfrom
      obtain ⟨hin, hstatus⟩ := mem_rowsOf.mp (List.mem_of_mem_filter hrow)
      exact ⟨row, hin, ⟨status, List.mem_cons_self, hstatus⟩, hfrom,
        hfrom.rule, l.provenance, hfrom.provenance, hdistilled⟩
    · obtain ⟨row, hrow, ⟨status', hstatus', heq⟩, hfrom⟩ := ih hothers hl
      exact ⟨row, hrow, ⟨status', List.mem_cons_of_mem _ hstatus', heq⟩, hfrom⟩

/-- And every distilled row of such a status is looked at. -/
theorem distilled_of_row {row : RuleRow} {rule : Rule} {status : RuleStatus}
    (h : D.distilledRules statuses rows = .ok ls) (hrow : row ∈ rows) (hin : status ∈ statuses)
    (hstatus : row.status = status.value) (hdistilled : DistilledRow D.schema row rule) :
    ∃ l ∈ ls, LoadedFrom D.schema row l := by
  induction statuses generalizing ls with
  | nil => cases hin
  | cons first statuses ih =>
    obtain ⟨loaded, kept, others, hloaded, hkept, hothers, rfl⟩ := distilledRules_cons h
    rcases List.mem_cons.mp hin with rfl | hin
    · have hmem : row ∈ (rowsOf status rows).filter fun row =>
          (acceptedRule D.schema row).isSome := by
        rw [List.mem_filter, mem_rowsOf, hdistilled.rule]
        exact ⟨⟨hrow, hstatus⟩, rfl⟩
      obtain ⟨l, hl, hfrom⟩ := forall₂_mem (loaded_exact hloaded) hmem
      obtain ⟨provenance, hprovenance, horigin⟩ := hdistilled.origin
      rw [hfrom.provenance] at hprovenance
      injection hprovenance with hprovenance
      have hmem := ((keepDistilled_spec hkept).2 _).mpr ⟨hl, hprovenance ▸ horigin⟩
      exact ⟨l, List.mem_append_left _ hmem,
        hfrom⟩
    · obtain ⟨l, hl, hfrom⟩ := ih hothers hin
      exact ⟨l, List.mem_append_right _ hl, hfrom⟩

/-- Rules of different rows have different names, so none is looked at twice. -/
theorem distilledRules_nodup (hunique : UniqueRules rows) (hstatuses : statuses.Nodup)
    (h : D.distilledRules statuses rows = .ok ls) : (ls.map LoadedRule.id).Nodup := by
  induction statuses generalizing ls with
  | nil =>
    injection h with h
    subst h
    exact List.nodup_nil
  | cons status statuses ih =>
    obtain ⟨loaded, kept, others, hloaded, hkept, hothers, rfl⟩ := distilledRules_cons h
    rw [List.nodup_cons] at hstatuses
    rw [List.map_append, List.nodup_append]
    refine ⟨?_, ih hstatuses.2 hothers, ?_⟩
    · have hrows : ((rowsOf status rows).map ruleId).Nodup := by
        unfold rowsOf
        rw [((List.perm_insertionSort _ _).map ruleId).nodup_iff]
        exact hunique.sublist (List.filter_sublist.map ruleId)
      refine List.Nodup.sublist ((keepDistilled_spec hkept).1.map _) ?_
      rw [loaded_ids (loaded_exact hloaded)]
      exact hrows.sublist (List.filter_sublist.map ruleId)
    · -- a name under two statuses would be two rows of one name
      intro id hid id' hid' heq
      obtain ⟨l, hl, rfl⟩ := List.mem_map.mp hid
      obtain ⟨l', hl', rfl⟩ := List.mem_map.mp hid'
      obtain ⟨hmem, _⟩ := ((keepDistilled_spec hkept).2 _).mp hl
      obtain ⟨row, hrow, hfrom⟩ := forall₂_mem (loaded_exact hloaded).flip hmem
      have hfrom : LoadedFrom D.schema row l := hfrom
      obtain ⟨hin, hstatus⟩ := mem_rowsOf.mp (List.mem_of_mem_filter hrow)
      obtain ⟨row', hin', ⟨status', hstatus', heq'⟩, hfrom', _⟩ := row_of_distilled hothers hl'
      rw [hfrom.id, hfrom'.id] at heq
      have hsame := List.inj_on_of_nodup_map hunique hin hin' heq
      rw [hsame, heq'] at hstatus
      exact hstatuses.1 (RuleStatus.value_injective hstatus ▸ hstatus')

end Loaded

/-! ## Rows that move -/

section Moved

variable {allowed : String × Int → RuleStatus → Prop} {rows rows' rows'' : List RuleRow}

/-- The row stays as it is, or moves to a status it may go to. -/
def MovedRow (allowed : String × Int → RuleStatus → Prop) (row row' : RuleRow) : Prop :=
  row' = row ∨ ∃ status provenance, allowed (ruleId row) status ∧
    row' = { row with status := RuleStatus.value status, provenanceJson := provenance }

/-- The rows of a table, each of them moved or not. -/
abbrev Moved (allowed : String × Int → RuleStatus → Prop) : List RuleRow → List RuleRow → Prop :=
  List.Forall₂ (MovedRow allowed)

theorem MovedRow.ruleId {row row' : RuleRow} (h : MovedRow allowed row row') :
    ruleId row' = ruleId row := by
  rcases h with rfl | ⟨status, provenance, _, rfl⟩ <;> rfl

theorem Moved.refl (rows : List RuleRow) : Moved allowed rows rows :=
  List.forall₂_same.mpr fun _ _ => .inl rfl

theorem MovedRow.trans {row row' row'' : RuleRow} (h : MovedRow allowed row row')
    (h' : MovedRow allowed row' row'') : MovedRow allowed row row'' := by
  rcases h' with rfl | ⟨status', provenance', hallowed', rfl⟩
  · exact h
  · have hid := h.ruleId
    rcases h with rfl | ⟨status, provenance, _, rfl⟩
    · exact .inr ⟨status', provenance', hallowed', rfl⟩
    · exact .inr ⟨status', provenance', hid ▸ hallowed', rfl⟩

theorem Moved.trans (h : Moved allowed rows rows') (h' : Moved allowed rows' rows'') :
    Moved allowed rows rows'' := by
  induction h generalizing rows'' with
  | nil => exact h'
  | cons hrow _ ih =>
    cases h' with
    | cons hrow' hrest' => exact .cons (hrow.trans hrow') (ih hrest')

theorem Moved.mono {allowed' : String × Int → RuleStatus → Prop}
    (himp : ∀ id status, allowed id status → allowed' id status) (h : Moved allowed rows rows') :
    Moved allowed' rows rows' := by
  refine List.Forall₂.imp (fun row row' => ?_) h
  rintro (rfl | ⟨status, provenance, hallowed, rfl⟩)
  · exact .inl rfl
  · exact .inr ⟨status, provenance, himp _ _ hallowed, rfl⟩

/-- Moving rows leaves their names. -/
theorem Moved.ids (h : Moved allowed rows rows') : rows'.map ruleId = rows.map ruleId := by
  induction h with
  | nil => rfl
  | cons hrow _ ih => rw [List.map_cons, List.map_cons, hrow.ruleId, ih]

theorem Moved.unique (h : Moved allowed rows rows') (hunique : UniqueRules rows) :
    UniqueRules rows' := by
  unfold UniqueRules
  rw [h.ids]
  exact hunique

/-- A row after the move was a row before it. -/
theorem Moved.origin (h : Moved allowed rows rows') {row' : RuleRow} (hmem : row' ∈ rows') :
    ∃ row ∈ rows, MovedRow allowed row row' := by
  induction h with
  | nil => cases hmem
  | cons hrow _ ih =>
    rcases List.mem_cons.mp hmem with rfl | hmem
    · exact ⟨_, List.mem_cons_self, hrow⟩
    · obtain ⟨row, hrow', hmoved⟩ := ih hmem
      exact ⟨row, List.mem_cons_of_mem _ hrow', hmoved⟩

/-- Rows of a table that is updated in one place. -/
theorem moved_updateBy {id : String × Int} {status : RuleStatus} (provenance : JsonText)
    (hallowed : allowed id status) :
    Moved allowed rows (updateBy ruleId id
      (fun row => { row with status := status.value, provenanceJson := provenance }) rows) := by
  unfold updateBy
  induction rows with
  | nil => exact .nil
  | cons row rest ih =>
    refine .cons ?_ ih
    dsimp only
    by_cases h : ruleId row = id
    · rw [if_pos h]
      exact .inr ⟨status, provenance, h ▸ hallowed, rfl⟩
    · rw [if_neg h]
      exact .inl rfl

/-- `set_status` moves the row it names, or nothing. -/
theorem setStatus_moved (ruleKey : String) (version : Int) {status : RuleStatus}
    (reason now : String) (rows : List RuleRow) (hallowed : allowed (ruleKey, version) status) :
    Moved allowed rows (setStatus ruleKey version status reason now rows).2 := by
  unfold setStatus
  split
  · exact .refl rows
  dsimp only
  split
  · exact .refl rows
  · exact moved_updateBy _ hallowed

end Moved

/-! ## The calls of the distiller -/

section Calls

variable {σ : Type} {D : PaymentDistiller σ}

/-- Rows may move as the statistics allow, and the statistics stay. -/
structure Shifts (allowed : Dict String ShadowStats → String × Int → RuleStatus → Prop)
    (w w' : DistillerWorld σ) : Prop where
  shadow : w'.state.shadow = w.state.shadow
  rows : Moved (allowed w.state.shadow) w.rows w'.rows

variable {allowed : Dict String ShadowStats → String × Int → RuleStatus → Prop}

instance : Std.Refl (Shifts (σ := σ) allowed) := ⟨fun w => ⟨rfl, .refl w.rows⟩⟩

instance : IsTrans (DistillerWorld σ) (Shifts allowed) where
  trans a b c h h' := by
    refine ⟨h'.shadow.trans h.shadow, h.rows.trans ?_⟩
    rw [← h.shadow]
    exact h'.rows

/-- What the distiller remembers elsewhere than in its statistics moves nothing. -/
theorem remember_shifts {f : DistillerState → DistillerState} (h : ∀ s, (f s).shadow = s.shadow) :
    Moves (Shifts (σ := σ) allowed) (remember f) :=
  .write fun w => ⟨h w.state, .refl w.rows⟩

/-- `set_status`, from a state that allows it. -/
theorem moveTo_shifts (D : PaymentDistiller σ) {l : LoadedRule} {status : RuleStatus}
    (reason : String) {w : DistillerWorld σ}
    (h : allowed w.state.shadow (l.ruleKey, l.version) status) :
    Shifts allowed w ((D.moveTo l status reason).run w).2 := by
  unfold PaymentDistiller.moveTo
  rw [run_attempt]
  exact ⟨rfl, setStatus_moved l.ruleKey l.version reason _ w.rows h⟩

/-- The gate of `promote` on one loaded rule. -/
structure PaymentDistiller.Passes (D : PaymentDistiller σ) (shadow : Dict String ShadowStats)
    (l : LoadedRule) (stats : ShadowStats) : Prop where
  seen : shadow.get? l.ruleKey = some stats
  qualifies : qualifiesForPromotion D.sqrt stats D.promotion = true
  notHigh : D.isHighValueRefund l.rule = false

/-- A rule of the list passed the gate and goes ACTIVE. -/
def PaymentDistiller.Promotable (D : PaymentDistiller σ) (ls : List LoadedRule)
    (shadow : Dict String ShadowStats) (id : String × Int) (status : RuleStatus) : Prop :=
  status = .active ∧ ∃ l ∈ ls, l.id = id ∧ ∃ stats, D.Passes shadow l stats

theorem promoteOne_shifts {l : LoadedRule} {ls : List LoadedRule} (hl : l ∈ ls) :
    Moves (Shifts (D.Promotable ls)) (D.promoteOne l) := by
  intro w
  unfold PaymentDistiller.promoteOne
  rw [run_bind, run_read]
  dsimp only
  cases hstats : w.state.shadow.get? l.ruleKey with
  | none => exact Std.Refl.refl w
  | some stats =>
    dsimp only
    by_cases hqualifies : qualifiesForPromotion D.sqrt stats D.promotion = true
    · rw [if_neg (by simp [hqualifies])]
      by_cases hhigh : D.isHighValueRefund l.rule = true
      · rw [if_pos hhigh]
        refine remember_shifts ?_ w
        exact fun _ => rfl
      · rw [if_neg hhigh]
        -- the row moves on the statistics the gate saw
        have hmove : Shifts (D.Promotable ls) w ((D.moveTo l .active "").run w).2 :=
          moveTo_shifts D "" ⟨rfl, l, hl, rfl, stats, hstats, hqualifies, by simpa using hhigh⟩
        rw [run_bind]
        split
        · rename_i answer v hrun
          rw [hrun] at hmove
          refine IsTrans.trans _ _ _ hmove (remember_shifts ?_ v)
          exact fun _ => rfl
        · rename_i exc v hrun
          rw [hrun] at hmove
          exact hmove
    · rw [if_pos (by simp [hqualifies])]
      exact Std.Refl.refl w

/-- The loop of `promote`, by induction on the rules that are left. -/
theorem promoteAll_shifts {ls : List LoadedRule} :
    ∀ {rest : List LoadedRule}, rest ⊆ ls →
      Moves (Shifts (D.Promotable ls)) (D.promoteAll rest) := by
  intro rest
  induction rest with
  | nil => exact fun _ => .pure ()
  | cons l rest ih =>
    intro h
    exact .bind (promoteOne_shifts (h List.mem_cons_self))
      fun _ => ih fun x hx => h (List.mem_cons_of_mem _ hx)

/-- A rule that goes ACTIVE passed the gate on the statistics `promote` started with. -/
theorem promote_shifts (D : PaymentDistiller σ) (w : DistillerWorld σ) :
    ∃ ls, (D.distilledRules [.shadow] w.rows = .ok ls ∨ ls = []) ∧
      Shifts (D.Promotable ls) w (D.promote.run w).2 := by
  unfold PaymentDistiller.promote
  rw [run_bind, run_attempt]
  cases hloaded : D.distilledRules [.shadow] w.rows with
  | error exc => exact ⟨[], .inr rfl, Std.Refl.refl w⟩
  | ok ls => exact ⟨ls, .inl rfl, promoteAll_shifts (List.Subset.refl ls) w⟩

/-- `demote` moves rows to DEMOTED alone. -/
def Demotable (_ : Dict String ShadowStats) (_ : String × Int) (status : RuleStatus) : Prop :=
  status = .demoted

theorem demote_shifts (D : PaymentDistiller σ) : Moves (Shifts Demotable) D.demote :=
  demote_moves (fun _ hf => remember_shifts fun s => (hf s).2) fun _ reason _ => moveTo_shifts D reason rfl

/-! ### Observing -/

/-- The table is left alone. -/
def KeepsRules (w w' : DistillerWorld σ) : Prop := w'.rows = w.rows

instance : Std.Refl (KeepsRules (σ := σ)) := ⟨fun _ => rfl⟩

instance : IsTrans (DistillerWorld σ) KeepsRules := ⟨fun _ _ _ h h' => h'.trans h⟩

theorem remember_keepsRules (f : DistillerState → DistillerState) :
    Moves KeepsRules (remember f : Program (DistillerWorld σ) PyExc Unit) :=
  .write fun _ => rfl

theorem watch_keepsRules (context : List (String × PyVal)) (action : Option String)
    (recovered : Bool) (l : LoadedRule) : Moves KeepsRules (D.watch context action recovered l) := by
  unfold PaymentDistiller.watch PaymentDistiller.pushRecent
  split
  · refine .bind (remember_keepsRules _) fun _ => ?_
    split
    · split
      · exact .throw _
      · exact remember_keepsRules _
    · exact .pure ()
  · exact .pure ()

theorem watchAll_keepsRules (context : List (String × PyVal)) (action : Option String)
    (recovered : Bool) (ls : List LoadedRule) :
    Moves KeepsRules (D.watchAll context action recovered ls) := by
  induction ls with
  | nil => exact .pure ()
  | cons l rest ih => exact .bind (watch_keepsRules context action recovered l) fun _ => ih

/-- Observing a case changes no row. -/
theorem observe_keepsRules (context : List (String × PyVal)) (action : Option String)
    (recovered fromAgent : Bool) (sourceId : String) :
    Moves KeepsRules (D.observe context action recovered fromAgent sourceId) := by
  unfold PaymentDistiller.observe
  refine .bind (.orRaise _) fun features => ?_
  refine .bind (remember_keepsRules _) fun _ => .bind (.attempt fun w => ?_) fun ls =>
    watchAll_keepsRules context action recovered ls
  exact Std.Refl.refl w

section Watched

variable {context : List (String × PyVal)} {action : Option String} {recovered : Bool}
  {w w' : DistillerWorld σ}

/-- What an observed case makes of the memory at one loaded rule. -/
def PaymentDistiller.watched (D : PaymentDistiller σ) (context : List (String × PyVal))
    (action : Option String) (recovered : Bool) (state : DistillerState) (l : LoadedRule) :
    DistillerState :=
  if evaluate l.rule context then
    let tallied := state.tallied l.ruleKey (some l.rule.action.name = action) recovered
    if l.status = RuleStatus.active.value then
      tallied.pushed D.demotion.minRecent.toNat l.ruleKey recovered
    else tallied
  else state

theorem watch_run {l : LoadedRule}
    (h : (D.watch context action recovered l).run w = (.ok (), w')) :
    w' = { w with state := D.watched context action recovered w.state l } ∧
      (evaluate l.rule context = true → l.status = RuleStatus.active.value →
        0 ≤ D.demotion.minRecent) := by
  unfold PaymentDistiller.watch at h
  unfold PaymentDistiller.watched
  by_cases hmatch : evaluate l.rule context = true
  · rw [if_pos hmatch] at h ⊢
    obtain ⟨_, v, hfirst, h⟩ := run_bind_ok h
    rw [remember, run_write] at hfirst
    injection hfirst with _ hv
    subst hv
    by_cases hactive : l.status = RuleStatus.active.value
    · rw [if_pos hactive] at h
      unfold PaymentDistiller.pushRecent at h
      by_cases hbound : D.demotion.minRecent < 0
      · rw [if_pos hbound] at h
        injection h with h
        cases h
      · rw [if_neg hbound, remember, run_write] at h
        injection h with _ h
        subst h
        dsimp only
        rw [if_pos hactive]
        exact ⟨rfl, fun _ _ => Int.not_lt.mp hbound⟩
    · rw [if_neg hactive] at h
      injection h with _ h
      subst h
      dsimp only
      rw [if_neg hactive]
      exact ⟨rfl, fun _ h => absurd h hactive⟩
  · rw [if_neg hmatch] at h ⊢
    injection h with _ h
    exact ⟨h.symm, fun h _ => absurd h hmatch⟩

theorem watchAll_run {ls : List LoadedRule}
    (h : (D.watchAll context action recovered ls).run w = (.ok (), w')) :
    w' = { w with state := ls.foldl (D.watched context action recovered) w.state } ∧
      ∀ l ∈ ls, evaluate l.rule context = true → l.status = RuleStatus.active.value →
        0 ≤ D.demotion.minRecent := by
  induction ls generalizing w with
  | nil =>
    injection h with _ h
    exact ⟨h.symm, fun l hl => absurd hl List.not_mem_nil⟩
  | cons l rest ih =>
    obtain ⟨_, v, hfirst, hrest⟩ := run_bind_ok h
    obtain ⟨rfl, hbound⟩ := watch_run hfirst
    obtain ⟨hworld, hbounds⟩ := ih hrest
    exact ⟨hworld, List.forall_mem_cons.mpr ⟨hbound, hbounds⟩⟩

/-- Observing a case: it may join the pool, and every rule loaded from the table looks at it. -/
theorem observe_run {fromAgent : Bool} {sourceId : String}
    (h : (D.observe context action recovered fromAgent sourceId).run w = (.ok (), w')) :
    ∃ features ls, D.distilledRules [.shadow, .active] w.rows = .ok ls ∧
      w' = ⟨w.rows, w.env, ls.foldl (D.watched context action recovered)
        (w.state.pooled features action recovered fromAgent sourceId)⟩ ∧
      ∀ l ∈ ls, evaluate l.rule context = true → l.status = RuleStatus.active.value →
        0 ≤ D.demotion.minRecent := by
  unfold PaymentDistiller.observe at h
  obtain ⟨features, v, hfeatures, h⟩ := run_bind_ok h
  rw [run_orRaise] at hfeatures
  injection hfeatures with _ hv
  subst hv
  obtain ⟨_, v, hpool, h⟩ := run_bind_ok h
  rw [remember, run_write] at hpool
  injection hpool with _ hv
  subst hv
  obtain ⟨ls, v, hload, h⟩ := run_bind_ok h
  rw [run_attempt] at hload
  injection hload with hls hv
  subst hv
  obtain ⟨hworld, hbounds⟩ := watchAll_run h
  exact ⟨features, ls, hls, hworld, hbounds⟩

end Watched

/-! ### Distilling -/

/-- Rows may be added, in SHADOW and under new names. -/
structure Creates (w w' : DistillerWorld σ) : Prop where
  shadow : w'.state.shadow = w.state.shadow
  rows : ∃ added, w'.rows = w.rows ++ added ∧
    ∀ row ∈ added, row.status = RuleStatus.shadow.value
  unique : UniqueRules w.rows → UniqueRules w'.rows

theorem Creates.of_eq {w w' : DistillerWorld σ} (hshadow : w'.state.shadow = w.state.shadow)
    (hrows : w'.rows = w.rows) : Creates w w' :=
  ⟨hshadow, ⟨[], by rw [hrows, List.append_nil], fun _ h => absurd h List.not_mem_nil⟩,
    fun h => hrows ▸ h⟩

instance : Std.Refl (Creates (σ := σ)) := ⟨fun _ => .of_eq rfl rfl⟩

instance : IsTrans (DistillerWorld σ) Creates where
  trans a b c h h' := by
    obtain ⟨added, hadded, hstatus⟩ := h.rows
    obtain ⟨added', hadded', hstatus'⟩ := h'.rows
    refine ⟨h'.shadow.trans h.shadow, ⟨added ++ added', ?_, ?_⟩, fun hu => h'.unique (h.unique hu)⟩
    · rw [hadded', hadded, List.append_assoc]
    · exact List.forall_mem_append.mpr ⟨hstatus, hstatus'⟩

/-- `add_rule` appends one row under a new name, or nothing. -/
theorem addRule_rows (schema : Schema) (ruleKey : String) (definition : PyVal)
    (status : RuleStatus) (provenance : Option PyVal) (priority : Int) (version : Option Int)
    (now : String) (rows : List RuleRow) :
    let after := (addRule schema ruleKey definition status provenance priority version now rows).2
    after = rows ∨ ∃ row, after = rows ++ [row] ∧ row.status = status.value ∧
      row.ruleKey = ruleKey ∧ selectBy ruleId (ruleId row) rows = none := by
  unfold addRule
  dsimp only
  split
  · exact .inl rfl
  · rename_i assigned row hinserted
    split
    · exact .inl rfl
    · rename_i hnone
      obtain ⟨_, _, hinserted⟩ := bind_ok hinserted
      obtain ⟨_, _, hinserted⟩ := bind_ok hinserted
      obtain ⟨_, _, hinserted⟩ := bind_ok hinserted
      injection hinserted with hinserted
      injection hinserted with hassigned hrow
      refine .inr ⟨row, rfl, by rw [← hrow], by rw [← hrow], ?_⟩
      rw [← hassigned] at hnone
      rw [← hrow]
      exact hnone

theorem store_creates (ruleKey : String) (candidate : Situation × String × List String)
    (definition : PyVal) : Moves Creates (D.store ruleKey candidate definition) := by
  refine .attempt fun w => ?_
  rcases addRule_rows D.schema ruleKey definition .shadow
    (some (D.distilledProvenance candidate.1 candidate.2.2 (D.now w.env).1)) 50 none
    (D.now w.env).1 w.rows with h | ⟨row, h, hstatus, _, hnew⟩
  · exact .of_eq rfl h
  · refine ⟨rfl, ⟨[row], h, by simpa using hstatus⟩, fun hunique => ?_⟩
    show UniqueRules (addRule _ _ _ _ _ _ _ _ _).2
    unfold UniqueRules
    rw [h, List.map_append, List.nodup_append]
    refine ⟨hunique, List.nodup_singleton _, ?_⟩
    -- the new name is not in the table yet
    intro id hid id' hid' heq
    obtain ⟨other, hother, hname⟩ := List.mem_map.mp hid
    rw [List.map_singleton, List.mem_singleton] at hid'
    exact selectBy_none.mp hnew other hother (by rw [hname, heq, hid'])

/-- Distilling makes notes, asks the proposer and stores rules. -/
theorem creates_kept (D : PaymentDistiller σ) : KeptByDistilling D Creates where
  notes _ hf := .write fun w => .of_eq (hf w.state).2.1 rfl
  asked _ _ := .of_eq rfl rfl
  stored := store_creates

theorem distill_creates (D : PaymentDistiller σ) : Moves Creates D.distill :=
  (creates_kept D).distill

/-- `step` as far as `promote`. -/
theorem dueToPromote_creates (casesSeen : Int) : Moves Creates (D.dueToPromote casesSeen) :=
  (creates_kept D).dueToPromote casesSeen

end Calls

/-! ## Runs of the distiller -/

/-- A call of the distiller's public methods. -/
inductive DistillerOp where
  | observe (context : List (String × PyVal)) (action : Option String)
      (recovered fromAgent : Bool) (sourceId : String)
  | step (casesSeen : Int)
  | distill
  | promote
  | demote

namespace PaymentDistiller

variable {σ : Type} (D : PaymentDistiller σ)

def perform : DistillerOp → Program (DistillerWorld σ) PyExc Unit
  | .observe context action recovered fromAgent sourceId =>
    D.observe context action recovered fromAgent sourceId
  | .step casesSeen => D.step casesSeen
  | .distill => D.distill
  | .promote => D.promote
  | .demote => D.demote

/-- One call, whether it returns or raises. -/
def runOp (op : DistillerOp) (w : DistillerWorld σ) : Except PyExc Unit × DistillerWorld σ :=
  (D.perform op).run w

/-- The world in which the call comes to `promote`, if it does. -/
def promotesFrom (op : DistillerOp) (w : DistillerWorld σ) : Option (DistillerWorld σ) :=
  match op with
  | .promote => some w
  | .step casesSeen =>
    match (D.dueToPromote casesSeen).run w with
    | (.ok true, before) => some before
    | _ => none
  | _ => none

/-- `promote`, called in `w`, makes the SHADOW row ACTIVE. -/
structure Promotes (w : DistillerWorld σ) (row : RuleRow) : Prop where
  mem : row ∈ w.rows
  shadow : row.status = RuleStatus.shadow.value
  active : ∃ row' ∈ (D.promote.run w).2.rows, ruleId row' = ruleId row ∧
    row'.status = RuleStatus.active.value

end PaymentDistiller

section Runs

variable {σ : Type} {D : PaymentDistiller σ}

/-- The names stay unique. -/
def StaysUnique (w w' : DistillerWorld σ) : Prop := UniqueRules w.rows → UniqueRules w'.rows

instance : Std.Refl (StaysUnique (σ := σ)) := ⟨fun _ h => h⟩

instance : IsTrans (DistillerWorld σ) StaysUnique := ⟨fun _ _ _ h h' hu => h' (h hu)⟩

theorem Shifts.staysUnique {allowed : Dict String ShadowStats → String × Int → RuleStatus → Prop}
    {w w' : DistillerWorld σ} (h : Shifts allowed w w') : StaysUnique w w' :=
  h.rows.unique

theorem promote_staysUnique (D : PaymentDistiller σ) : Moves StaysUnique D.promote := by
  intro w
  obtain ⟨ls, _, h⟩ := promote_shifts D w
  exact h.staysUnique

/-- What observing, distilling, `promote` and `demote` keep, every call keeps. -/
theorem perform_moves {R : DistillerWorld σ → DistillerWorld σ → Prop} [Std.Refl R]
    [IsTrans (DistillerWorld σ) R]
    (hobserve : ∀ context action recovered fromAgent sourceId,
      Moves R (D.observe context action recovered fromAgent sourceId))
    (hkept : KeptByDistilling D R) (hpromote : Moves R D.promote) (hdemote : Moves R D.demote)
    (op : DistillerOp) : Moves R (D.perform op) := by
  cases op with
  | observe context action recovered fromAgent sourceId =>
    exact hobserve context action recovered fromAgent sourceId
  | step casesSeen =>
    refine .bind (hkept.dueToPromote casesSeen) fun due => ?_
    split
    · exact .bind hpromote fun _ => hdemote
    · exact .pure ()
  | distill => exact hkept.distill
  | promote => exact hpromote
  | demote => exact hdemote

theorem KeepsRules.staysUnique {w w' : DistillerWorld σ} (h : KeepsRules w w') : StaysUnique w w' :=
  fun hunique => (show w'.rows = w.rows from h) ▸ hunique

/-- Every call keeps the table's constraint. -/
theorem perform_staysUnique (D : PaymentDistiller σ) (op : DistillerOp) :
    Moves StaysUnique (D.perform op) :=
  perform_moves
    (fun context action recovered fromAgent sourceId =>
      (observe_keepsRules context action recovered fromAgent sourceId).mono
        fun _ _ => KeepsRules.staysUnique)
    { notes := fun f _ => (remember_keepsRules f).mono fun _ _ => KeepsRules.staysUnique
      asked := fun w _ => KeepsRules.staysUnique (w := w) rfl
      stored := fun _ _ _ => (store_creates _ _ _).mono fun _ _ h => h.unique }
    (promote_staysUnique D) ((demote_shifts D).mono fun _ _ h => h.staysUnique) op

/-- Until a call comes to `promote`, it distils at most. -/
theorem KeptByDistilling.promotesFrom {R : DistillerWorld σ → DistillerWorld σ → Prop} [Std.Refl R]
    [IsTrans (DistillerWorld σ) R] (hkept : KeptByDistilling D R) {op : DistillerOp}
    {w before : DistillerWorld σ} (h : D.promotesFrom op w = some before) : R w before := by
  unfold PaymentDistiller.promotesFrom at h
  cases op with
  | promote =>
    injection h with h
    subst h
    exact Std.Refl.refl w
  | step casesSeen =>
    have hdue := hkept.dueToPromote casesSeen w
    dsimp only at h
    split at h
    · rename_i v hrun
      injection h with h
      subst h
      rw [hrun] at hdue
      exact hdue
    · cases h
  | observe _ _ _ _ _ => cases h
  | distill => cases h
  | demote => cases h

/-- So in every run, names are unique wherever `promote` is called. -/
theorem promotesFrom_unique {ops : List DistillerOp} {op : DistillerOp}
    {w before : DistillerWorld σ} (hunique : UniqueRules w.rows)
    (h : D.promotesFrom op (Run.exec D.runOp ops w) = some before) : UniqueRules before.rows := by
  have hrun : UniqueRules (Run.exec D.runOp ops w).rows :=
    Run.exec_inv (P := fun w => UniqueRules w.rows)
      (fun w op hu => perform_staysUnique D op w hu) hunique
  exact ((creates_kept D).promotesFrom h).unique hrun

/-- What is loaded for one status under the name of a row is what that row holds. -/
theorem loaded_from_row {rows : List RuleRow} {ls : List LoadedRule} {l : LoadedRule}
    {row : RuleRow} {status : RuleStatus} (hunique : UniqueRules rows)
    (hls : D.distilledRules [status] rows = .ok ls ∨ ls = []) (hl : l ∈ ls) (hrow : row ∈ rows)
    (hid : l.id = ruleId row) : row.status = status.value ∧ LoadedFrom D.schema row l ∧
      DistilledRow D.schema row l.rule := by
  rcases hls with hls | rfl
  · obtain ⟨other, hother, ⟨status', hstatus', hstatus⟩, hfrom, hdistilled⟩ :=
      row_of_distilled hls hl
    have hsame : other = row :=
      List.inj_on_of_nodup_map hunique hother hrow (hfrom.id.symm.trans hid)
    subst hsame
    rw [List.mem_singleton.mp hstatus'] at hstatus
    exact ⟨hstatus, hfrom, hdistilled⟩
  · cases hl

/-- Where names are unique, a promoted row passed the gate itself. -/
theorem PaymentDistiller.Promotes.gate {w : DistillerWorld σ} {row : RuleRow}
    (h : D.Promotes w row) (hunique : UniqueRules w.rows) :
    ∃ l stats, LoadedFrom D.schema row l ∧ DistilledRow D.schema row l.rule ∧
      D.Passes w.state.shadow l stats := by
  obtain ⟨ls, hls, hshifts⟩ := promote_shifts D w
  obtain ⟨row', hrow', hid, hactive⟩ := h.active
  obtain ⟨origin, horigin, hmoved⟩ := hshifts.rows.origin hrow'
  have hsame : origin = row :=
    List.inj_on_of_nodup_map hunique horigin h.mem (hmoved.ruleId.symm.trans hid)
  subst hsame
  rcases hmoved with rfl | ⟨status, provenance, ⟨_, l, hl, hlid, stats, hpasses⟩, rfl⟩
  · rw [h.shadow] at hactive
    cases RuleStatus.value_injective hactive
  · obtain ⟨_, hfrom, hdistilled⟩ := loaded_from_row hunique hls hl h.mem hlid
    exact ⟨l, stats, hfrom, hdistilled, hpasses⟩

/-- Where names are unique, `promote` leaves a row alone, or it was in SHADOW and goes ACTIVE. -/
theorem promote_rows {w : DistillerWorld σ} (hunique : UniqueRules w.rows) :
    List.Forall₂ (fun row row' => row' = row ∨ (D.Promotes w row ∧ ∃ provenance,
      row' = { row with status := RuleStatus.active.value, provenanceJson := provenance }))
      w.rows (D.promote.run w).2.rows := by
  obtain ⟨ls, hls, hshifts⟩ := promote_shifts D w
  obtain ⟨hlength, hmoves⟩ := List.forall₂_iff_zip.mp hshifts.rows
  refine List.forall₂_iff_zip.mpr ⟨hlength, fun {row row'} hpair => ?_⟩
  obtain ⟨hrow, hrow'⟩ := List.of_mem_zip hpair
  have hid := (hmoves hpair).ruleId
  rcases hmoves hpair with rfl | ⟨status, provenance, ⟨rfl, l, hl, hlid, _⟩, rfl⟩
  · exact .inl rfl
  · have hshadow := (loaded_from_row hunique hls hl hrow hlid).1
    exact .inr ⟨⟨hrow, hshadow, _, hrow', hid, rfl⟩, provenance, rfl⟩

/-- What is ACTIVE after `demote` was so before, and is as it was. -/
theorem demote_active {w : DistillerWorld σ} {row : RuleRow}
    (hrow : row ∈ (D.demote.run w).2.rows) (hactive : row.status = RuleStatus.active.value) :
    row ∈ w.rows := by
  obtain ⟨old, hold, hmoved⟩ := (demote_shifts D w).rows.origin hrow
  rcases hmoved with rfl | ⟨status, provenance, rfl, rfl⟩
  · exact hold
  · have hstatus : RuleStatus.demoted.value = RuleStatus.active.value := hactive
    cases RuleStatus.value_injective hstatus

/-- What is ACTIVE after distilling was there before. -/
theorem Creates.active {w w' : DistillerWorld σ} (h : Creates w w') {row : RuleRow}
    (hrow : row ∈ w'.rows) (hactive : row.status = RuleStatus.active.value) : row ∈ w.rows := by
  obtain ⟨added, hadded, hstatus⟩ := h.rows
  rw [hadded] at hrow
  rcases List.mem_append.mp hrow with hold | hnew
  · exact hold
  · rw [hstatus row hnew] at hactive
    cases RuleStatus.value_injective hactive

end Runs

/-! ## A distiller to try -/

/-- The square root, rounded down to the denominator. -/
def Sample.sqrt (x : ℚ) : ℚ := Nat.sqrt (x.num.toNat * x.den) / x.den

/-- A distiller with its defaults and a threshold of 2000. -/
def Sample.distiller : PaymentDistiller Unit where
  schema := paymentRuleSchema
  proposer := fun _ env => (.error ⟨.other "LLMError", "unavailable"⟩, env)
  proposerModel := "none"
  settings := ⟨2000, 3, 5000, 6, 30, 0, 0⟩
  prompt := ⟨"rule_proposer/v1", .malformed "Propose a rule."⟩
  sqrt := Sample.sqrt
  now := fun env => ("2026-01-01T00:00:00+00:00", env)
  floatOfText := fun s => .error ⟨.valueError, "could not convert string to float: " ++ strRepr s⟩
  intOfText := fun s => .error ⟨.valueError,
    "invalid literal for int() with base 10: " ++ strRepr s⟩

/-- A response that spells a rule with one predicate. -/
def Sample.proposal (field op : String) (value : Json) (action : String)
    (params : List (String × Json)) : Agent.LLMResponse :=
  ⟨"", .ok (.obj [
    ("precondition", .obj [("all", .arr [.obj
      [("field", .str field), ("op", .str op), ("value", value)]])]),
    ("action", .obj [("name", .str action), ("params", .obj params)])]), 0, 0, 0, false⟩

/-- A case that the agent handled. -/
def Sample.handledOnce (recovered : Bool) (reason : String) (amount : Int) (action : String) :
    DistillerOp :=
  .observe [("failure_reason", .str reason), ("amount_inr", .int amount)] (some action) recovered
    true ""

/-- A program that returns. -/
theorem Sample.returned {W ε α : Type} {p : Program W ε α} {w : W} {a : α}
    (h : (p.run w).1.toOption = some a) : p.run w = (.ok a, (p.run w).2) := by
  cases hrun : p.run w with
  | mk answer w' =>
    rw [hrun] at h
    cases answer with
    | error e => cases h
    | ok b =>
      injection h with h
      rw [h]

/-- The world a program leaves, under a name that is not unfolded when it is met again. -/
def Sample.left {W ε α : Type} (p : Program W ε α) (w : W) : W := (p.run w).2

theorem Sample.returned_left {W ε α : Type} {p : Program W ε α} {w : W} {a : α}
    (h : (p.run w).1.toOption = some a) : p.run w = (.ok a, Sample.left p w) :=
  Sample.returned h

end PaymentRecovery.Recovery

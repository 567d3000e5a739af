import PaymentRecovery.Recovery.Lifecycle
import PaymentRecovery.Recovery.SeedRules
import PaymentRecovery.Rules.Language
import Mathlib.Logic.Relation

/-!
# The lives of rules

A rule of the distiller is born in SHADOW, and moves to ACTIVE and from there to
DEMOTED. Its provenance says so: one date for each move, and one entry of the
demotion history. Rules of any other origin are never touched.
-/

namespace PaymentRecovery.Recovery

open PaymentRecovery.Python PaymentRecovery.Lib PaymentRecovery.Lib.Table
open PaymentRecovery.Rules PaymentRecovery.Distill Program

/-! ## What a row says of its past -/

/-- The provenance of a row, as an object. -/
def provenanceOf (row : RuleRow) : List (PyKey × PyVal) :=
  match jsonLoads row.provenanceJson with
  | .ok (.dict items) => items
  | _ => []

/-- The row is of the distiller's making. -/
def FromDistiller (row : RuleRow) : Prop :=
  itemGet? (provenanceOf row) "origin" = some (.str "distilled")

/-- `demotion_history`, where a missing one is empty. -/
def historyOf (row : RuleRow) : List PyVal :=
  match itemGet? (provenanceOf row) "demotion_history" with
  | some (.list history) => history
  | _ => []

/-- The date is there, and it is not null. -/
def Dated (row : RuleRow) (key : String) : Prop :=
  ∃ date, itemGet? (provenanceOf row) key = some date ∧ date ≠ .none

/-! ## Moves -/

/-- From SHADOW to ACTIVE: the provenance takes the date. -/
structure MovesUp (row row' : RuleRow) : Prop where
  origin : FromDistiller row
  before : row.status = RuleStatus.shadow.value
  columns : ∃ provenance,
    row' = { row with status := RuleStatus.active.value, provenanceJson := provenance }
  provenance : ∃ now : String,
    provenanceOf row' = itemSet (provenanceOf row) "promoted_at" (.str now)

/-- From ACTIVE to DEMOTED: the provenance takes the date, and the history one entry. -/
structure MovesDown (row row' : RuleRow) : Prop where
  origin : FromDistiller row
  before : row.status = RuleStatus.active.value
  columns : ∃ provenance,
    row' = { row with status := RuleStatus.demoted.value, provenanceJson := provenance }
  provenance : ∃ (now : String) (entry : PyVal),
    provenanceOf row' = itemSet (itemSet (provenanceOf row) "demoted_at" (.str now))
      "demotion_history" (.list (historyOf row ++ [entry]))

/-- One move of a rule. -/
inductive Move (row row' : RuleRow) : Prop
  | up : MovesUp row row' → Move row row'
  | down : MovesDown row row' → Move row row'

/-- What a row becomes, move by move. -/
abbrev Lived : RuleRow → RuleRow → Prop := Relation.ReflTransGen Move

theorem itemGet?_itemSet (items : List (PyKey × PyVal)) (key key' : String) (value : PyVal) :
    itemGet? (itemSet items key value) key' = if key' = key then some value else itemGet? items key' := by
  induction items with
  | nil =>
    by_cases h : key' = key
    · simp [itemSet, itemGet?, h]
    · simp [itemSet, itemGet?, h, Ne.symm h]
  | cons item rest ih =>
    obtain ⟨k, v⟩ := item
    unfold itemSet
    by_cases hk : k = .str key
    · subst hk
      by_cases h : key' = key
      · simp [itemGet?, h]
      · simp [itemGet?, h, Ne.symm h]
    · rw [if_neg hk]
      unfold itemGet?
      by_cases hk' : k = .str key'
      · have hne : key' ≠ key := fun h => hk (h ▸ hk')
        rw [if_pos hk', if_neg hne, if_pos hk']
      · rw [if_neg hk', if_neg hk', ih]

/-- A row with a provenance that was written for it. -/
theorem provenanceOf_written {row : RuleRow} {items : List (PyKey × PyVal)}
    (hjson : IsJson (.dict items)) (h : jsonDumps (.dict items) = .ok row.provenanceJson) :
    provenanceOf row = items := by
  obtain ⟨text, hdumps, hloads⟩ := isJson_preserved hjson
  rw [h] at hdumps
  injection hdumps with htext
  unfold provenanceOf
  rw [htext, hloads]

/-- The provenance of a distilled row is a JSON object. -/
theorem FromDistiller.loads {row : RuleRow} (h : FromDistiller row) :
    jsonLoads row.provenanceJson = .ok (.dict (provenanceOf row)) ∧
      IsJson (.dict (provenanceOf row)) := by
  unfold FromDistiller at h
  cases htext : row.provenanceJson with
  | malformed raw =>
    have hnone : provenanceOf row = [] := by
      unfold provenanceOf
      rw [htext]
      rfl
    rw [hnone] at h
    cases h
  | doc json =>
    have hjson := json.isJson_toPyVal
    have hloads : jsonLoads (.doc json) = .ok json.toPyVal := rfl
    cases hvalue : json.toPyVal with
    | dict items =>
      have hitems : provenanceOf row = items := by
        unfold provenanceOf
        rw [htext, hloads, hvalue]
      rw [hitems, hloads, hvalue]
      exact ⟨rfl, hvalue ▸ hjson⟩
    | _ =>
      have hnone : provenanceOf row = [] := by
        unfold provenanceOf
        rw [htext, hloads, hvalue]
      rw [hnone] at h
      cases h

theorem fromDistiller_iff {row : RuleRow} :
    FromDistiller row ↔ ∃ provenance, jsonLoads row.provenanceJson = .ok provenance ∧
      isDistilled provenance = .ok true := by
  refine ⟨fun h => ⟨_, h.loads.1, ?_⟩, ?_⟩
  · have hget : itemGet? (provenanceOf row) "origin" = some (.str "distilled") := h
    unfold isDistilled
    dsimp only
    rw [hget]
    rfl
  · rintro ⟨provenance, hloads, horigin⟩
    unfold FromDistiller provenanceOf
    rw [hloads]
    unfold isDistilled at horigin
    split at horigin
    · rename_i items
      split at horigin
      · rename_i origin hget
        injection horigin with horigin
        rw [hget, of_decide_eq_true horigin]
      · cases horigin
    · cases horigin

theorem Move.fromDistiller {row row' : RuleRow} (h : Move row row') :
    FromDistiller row ∧ FromDistiller row' := by
  unfold FromDistiller
  cases h with
  | up h =>
    obtain ⟨now, hprovenance⟩ := h.provenance
    rw [hprovenance, itemGet?_itemSet, if_neg (by decide)]
    exact ⟨h.origin, h.origin⟩
  | down h =>
    obtain ⟨now, entry, hprovenance⟩ := h.provenance
    rw [hprovenance, itemGet?_itemSet, if_neg (by decide), itemGet?_itemSet, if_neg (by decide)]
    exact ⟨h.origin, h.origin⟩

/-! ## `set_status` on one rule -/

/-- Of the named rows some made a move; the others are as they were. -/
def MovesIn (ids : List (String × Int)) : List RuleRow → List RuleRow → Prop :=
  List.Forall₂ fun row row' => row' = row ∨ (ruleId row ∈ ids ∧ Move row row')

theorem MovesIn.refl (ids : List (String × Int)) (rows : List RuleRow) : MovesIn ids rows rows :=
  List.forall₂_same.mpr fun _ _ => .inl rfl

/-- The name stands for a rule of the distiller, of this status. -/
def Stands (status : RuleStatus) (rows : List RuleRow) (id : String × Int) : Prop :=
  ∃ row ∈ rows, ruleId row = id ∧ row.status = status.value ∧ FromDistiller row

theorem Move.ruleId {row row' : RuleRow} (h : Move row row') : ruleId row' = ruleId row := by
  cases h with
  | up h =>
    obtain ⟨provenance, hcolumns⟩ := h.columns
    rw [hcolumns]
    rfl
  | down h =>
    obtain ⟨provenance, hcolumns⟩ := h.columns
    rw [hcolumns]
    rfl

theorem MovesIn.ids {ids : List (String × Int)} {rows rows' : List RuleRow}
    (h : MovesIn ids rows rows') : rows'.map ruleId = rows.map ruleId := by
  induction h with
  | nil => rfl
  | cons hrow _ ih =>
    rw [List.map_cons, List.map_cons, ih]
    rcases hrow with rfl | ⟨_, hmove⟩
    · rfl
    · rw [hmove.ruleId]

/-- Where names are unique, `set_status` moves the one row that has the name. -/
theorem setStatus_movesIn {status next : RuleStatus} {rows : List RuleRow} {ruleKey : String}
    {version : Int} {reason now : String} (hunique : UniqueRules rows)
    (hstands : Stands status rows (ruleKey, version))
    (hmove : ∀ row row' : RuleRow, ∀ provenance, row.status = status.value → FromDistiller row →
      transitioned next reason now (.dict (provenanceOf row)) = .ok provenance →
      jsonDumps provenance = .ok row'.provenanceJson →
      row' = { row with status := next.value, provenanceJson := row'.provenanceJson } →
      Move row row') :
    MovesIn [(ruleKey, version)] rows (setStatus ruleKey version next reason now rows).2 := by
  obtain ⟨row, hrow, hid, hstatus, horigin⟩ := hstands
  unfold setStatus
  rw [← hid, selectBy_of_mem hunique hrow]
  dsimp only
  split
  · exact .refl _ rows
  · rename_i text hwritten
    obtain ⟨loaded, hloads, hwritten⟩ := bind_ok hwritten
    obtain ⟨provenance, htransition, hdumps⟩ := bind_ok hwritten
    rw [horigin.loads.1] at hloads
    injection hloads with hloads
    subst hloads
    unfold MovesIn updateBy
    rw [List.forall₂_map_right_iff]
    refine List.forall₂_same.mpr fun other hother => ?_
    by_cases hsame : ruleId other = ruleId row
    · have heq := List.inj_on_of_nodup_map hunique hother hrow hsame
      subst heq
      rw [if_pos rfl]
      exact .inr ⟨List.mem_singleton.mpr rfl,
        hmove other _ provenance hstatus horigin htransition hdumps rfl⟩
    · rw [if_neg hsame]
      exact .inl rfl

theorem setStatus_up {rows : List RuleRow} {ruleKey : String} {version : Int} (reason now : String)
    (hunique : UniqueRules rows) (hstands : Stands .shadow rows (ruleKey, version)) :
    MovesIn [(ruleKey, version)] rows (setStatus ruleKey version .active reason now rows).2 := by
  refine setStatus_movesIn hunique hstands ?_
  intro row row' provenance hstatus horigin htransition hdumps hcolumns
  injection htransition with htransition
  subst htransition
  have hjson := horigin.loads.2
  refine .up ⟨horigin, hstatus, ⟨_, hcolumns⟩, now, provenanceOf_written ?_ hdumps⟩
  exact ⟨nodup_itemSet hjson.1 _ _, isJsonItems_itemSet hjson.2 trivial⟩

theorem setStatus_down {rows : List RuleRow} {ruleKey : String} {version : Int}
    (reason now : String) (hunique : UniqueRules rows)
    (hstands : Stands .active rows (ruleKey, version)) :
    MovesIn [(ruleKey, version)] rows (setStatus ruleKey version .demoted reason now rows).2 := by
  refine setStatus_movesIn hunique hstands ?_
  intro row row' provenance hstatus horigin htransition hdumps hcolumns
  have hjson := horigin.loads.2
  have hother : itemGet? (itemSet (provenanceOf row) "demoted_at" (.str now)) "demotion_history" =
      itemGet? (provenanceOf row) "demotion_history" := by
    rw [itemGet?_itemSet, if_neg (by decide)]
  have hset : IsJson (.dict (itemSet (provenanceOf row) "demoted_at" (.str now))) :=
    ⟨nodup_itemSet hjson.1 _ _, isJsonItems_itemSet hjson.2 trivial⟩
  unfold transitioned at htransition
  obtain ⟨dated, hdated, happended⟩ := bind_ok htransition
  injection hdated with hdated
  subst hdated
  unfold appendHistory at happended
  dsimp only at happended
  rw [hother] at happended
  split at happended
  case h_2 => cases happended
  rename_i history hhistory
  injection happended with happended
  subst happended
  have hsame : historyOf row = history := by
    unfold historyOf
    cases hget : itemGet? (provenanceOf row) "demotion_history" with
    | none =>
      rw [hget] at hhistory
      injection hhistory
    | some value =>
      rw [hget] at hhistory
      rw [show value = .list history from hhistory]
  have hhistory : IsJsonAll history := by
    cases hget : itemGet? (provenanceOf row) "demotion_history" with
    | none =>
      rw [hget] at hhistory
      injection hhistory with hhistory
      rw [← hhistory]
      trivial
    | some value =>
      rw [hget] at hhistory
      have hvalue := (isJsonItems_iff.mp hjson.2 _ (itemGet?_mem hget)).2
      rw [show value = .list history from hhistory] at hvalue
      exact hvalue
  have hlist : IsJsonAll (history ++ [PyVal.record [("at", .str now), ("reason", .str reason)]]) := by
    rw [isJsonAll_iff, List.forall_mem_append]
    refine ⟨isJsonAll_iff.mp hhistory, ?_⟩
    rw [List.forall_mem_singleton]
    exact ⟨by simp, ⟨"at", rfl⟩, trivial, ⟨"reason", rfl⟩, trivial, trivial⟩
  refine .down ⟨horigin, hstatus, ⟨_, hcolumns⟩, now,
    .record [("at", .str now), ("reason", .str reason)], ?_⟩
  rw [hsame]
  exact provenanceOf_written ⟨nodup_itemSet hset.1 _ _, isJsonItems_itemSet hset.2 hlist⟩ hdumps

/-! ## The operations -/

theorem MovesIn.stands {ids : List (String × Int)} {rows rows' : List RuleRow}
    (h : MovesIn ids rows rows') {status : RuleStatus} {id : String × Int} (hid : id ∉ ids)
    (hstands : Stands status rows id) : Stands status rows' id := by
  obtain ⟨row, hrow, rfl, hstatus, horigin⟩ := hstands
  obtain ⟨row', hrow', hmoved⟩ := forall₂_mem h hrow
  rcases hmoved with rfl | ⟨hin, _⟩
  · exact ⟨row', hrow', rfl, hstatus, horigin⟩
  · exact absurd hin hid

theorem MovesIn.unique {ids : List (String × Int)} {rows rows' : List RuleRow}
    (h : MovesIn ids rows rows') (hunique : UniqueRules rows) : UniqueRules rows' := by
  unfold UniqueRules
  rw [h.ids]
  exact hunique

/-- Moves of one rule, and then of others. -/
theorem MovesIn.cons {id : String × Int} {ids : List (String × Int)}
    {rows rows' rows'' : List RuleRow} (hid : id ∉ ids) (h : MovesIn [id] rows rows')
    (h' : MovesIn ids rows' rows'') : MovesIn (id :: ids) rows rows'' := by
  induction h generalizing rows'' with
  | nil =>
    cases h'
    exact .nil
  | cons hrow _ ih =>
    cases h' with
    | cons hrow' hrest' =>
      refine List.Forall₂.cons ?_ (ih hrest')
      rcases hrow with rfl | ⟨hin, hmove⟩
      · exact hrow'.imp_right fun ⟨hin', hmove'⟩ => ⟨List.mem_cons_of_mem _ hin', hmove'⟩
      · rw [List.mem_singleton] at hin
        rcases hrow' with rfl | ⟨hin', _⟩
        · exact .inr ⟨List.mem_cons.mpr (.inl hin), hmove⟩
        · rw [hmove.ruleId, hin] at hin'
          exact absurd hin' hid

theorem MovesIn.mono {ids ids' : List (String × Int)} {rows rows' : List RuleRow} (hsub : ids ⊆ ids')
    (h : MovesIn ids rows rows') : MovesIn ids' rows rows' :=
  List.Forall₂.imp (fun _ _ hrow => hrow.imp_right fun ⟨hin, hmove⟩ => ⟨hsub hin, hmove⟩) h

section Calls

variable {σ : Type} {D : PaymentDistiller σ}

/-- A loop over loaded rules that moves each of them at most once. -/
theorem movesIn_all {each : LoadedRule → Program (DistillerWorld σ) PyExc Unit}
    {all : List LoadedRule → Program (DistillerWorld σ) PyExc Unit} {status : RuleStatus}
    (hnil : all [] = pure ()) (hcons : ∀ l rest, all (l :: rest) = each l >>= fun _ => all rest)
    (heach : ∀ (l : LoadedRule) (w : DistillerWorld σ), UniqueRules w.rows →
      Stands status w.rows l.id → MovesIn [l.id] w.rows ((each l).run w).2.rows) :
    ∀ (ls : List LoadedRule) (w : DistillerWorld σ), UniqueRules w.rows →
      (ls.map LoadedRule.id).Nodup → (∀ l ∈ ls, Stands status w.rows l.id) →
      MovesIn (ls.map LoadedRule.id) w.rows ((all ls).run w).2.rows := by
  intro ls
  induction ls with
  | nil =>
    intro w _ _ _
    rw [hnil]
    exact .refl _ _
  | cons l rest ih =>
    intro w hunique hnodup hstands
    rw [List.map_cons, List.nodup_cons] at hnodup
    have hfirst := heach l w hunique (hstands l List.mem_cons_self)
    rw [hcons, run_bind]
    split
    · rename_i answer v hrun
      rw [hrun] at hfirst
      refine hfirst.cons hnodup.1 (ih v (hfirst.unique hunique) hnodup.2 fun l' hl' => ?_)
      refine hfirst.stands ?_ (hstands l' (List.mem_cons_of_mem _ hl'))
      rw [List.mem_singleton]
      exact fun heq => hnodup.1 (heq ▸ List.mem_map_of_mem hl')
    · rename_i exc v hrun
      rw [hrun] at hfirst
      exact hfirst.mono (List.cons_subset_cons _ (List.nil_subset _))

/-- What a program that only remembers does after `set_status`. -/
theorem moveTo_rows {l : LoadedRule} {status : RuleStatus} {reason : String}
    {f : DistillerState → DistillerState} (w : DistillerWorld σ) :
    ((D.moveTo l status reason >>= fun _ => remember f).run w).2.rows =
      (setStatus l.ruleKey l.version status reason (D.now w.env).1 w.rows).2 := by
  unfold PaymentDistiller.moveTo remember
  rw [run_bind, run_attempt]
  dsimp only
  cases (setStatus l.ruleKey l.version status reason (D.now w.env).1 w.rows).1 with
  | error exc => rfl
  | ok answer => rfl

theorem promoteOne_movesIn (l : LoadedRule) (w : DistillerWorld σ) (hunique : UniqueRules w.rows)
    (hstands : Stands .shadow w.rows l.id) :
    MovesIn [l.id] w.rows ((D.promoteOne l).run w).2.rows := by
  unfold PaymentDistiller.promoteOne
  rw [run_bind, run_read]
  dsimp only
  split
  · exact .refl _ _
  · split
    · exact .refl _ _
    · split
      · exact .refl _ _
      · rw [moveTo_rows]
        exact setStatus_up _ _ hunique hstands

theorem demoteOne_movesIn (l : LoadedRule) (w : DistillerWorld σ) (hunique : UniqueRules w.rows)
    (hstands : Stands .active w.rows l.id) :
    MovesIn [l.id] w.rows ((D.demoteOne l).run w).2.rows := by
  unfold PaymentDistiller.demoteOne
  rw [run_bind, run_read]
  dsimp only
  split
  · exact .refl _ _
  · split
    · rw [moveTo_rows]
      exact setStatus_down _ _ hunique hstands
    · exact .refl _ _

/-- The rules loaded for one status stand for rows of that status. -/
theorem stands_of_distilled {status : RuleStatus} {rows : List RuleRow} {ls : List LoadedRule}
    (h : D.distilledRules [status] rows = .ok ls) : ∀ l ∈ ls, Stands status rows l.id := by
  intro l hl
  obtain ⟨row, hrow, ⟨status', hstatus', heq⟩, hfrom, hdistilled⟩ := row_of_distilled h hl
  rw [List.mem_singleton.mp hstatus'] at heq
  exact ⟨row, hrow, hfrom.id.symm, heq, fromDistiller_iff.mpr hdistilled.origin⟩

/-- Each row stays as it is, or makes one move. -/
def MovesOnce : List RuleRow → List RuleRow → Prop :=
  List.Forall₂ fun row row' => row' = row ∨ Move row row'

theorem MovesIn.once {ids : List (String × Int)} {rows rows' : List RuleRow}
    (h : MovesIn ids rows rows') : MovesOnce rows rows' :=
  List.Forall₂.imp (fun _ _ hrow => hrow.imp_right And.right) h

theorem promote_movesOnce (D : PaymentDistiller σ) {w : DistillerWorld σ}
    (hunique : UniqueRules w.rows) : MovesOnce w.rows (D.promote.run w).2.rows := by
  unfold PaymentDistiller.promote
  rw [run_bind, run_attempt]
  cases hloaded : D.distilledRules [.shadow] w.rows with
  | error exc => exact (MovesIn.refl [] _).once
  | ok ls =>
    exact (movesIn_all rfl (fun _ _ => rfl) promoteOne_movesIn ls w hunique
      (distilledRules_nodup hunique (List.nodup_singleton _) hloaded)
      (stands_of_distilled hloaded)).once

theorem demote_movesOnce (D : PaymentDistiller σ) {w : DistillerWorld σ}
    (hunique : UniqueRules w.rows) : MovesOnce w.rows (D.demote.run w).2.rows := by
  unfold PaymentDistiller.demote
  rw [run_bind, run_attempt]
  cases hloaded : D.distilledRules [.active] w.rows with
  | error exc => exact (MovesIn.refl [] _).once
  | ok ls =>
    exact (movesIn_all rfl (fun _ _ => rfl) demoteOne_movesIn ls w hunique
      (distilledRules_nodup hunique (List.nodup_singleton _) hloaded)
      (stands_of_distilled hloaded)).once

/-! ## Births -/

/-- A row as the distiller adds it: in SHADOW, and without a past. -/
structure Newborn (row : RuleRow) : Prop where
  origin : FromDistiller row
  status : row.status = RuleStatus.shadow.value
  unpromoted : ¬ Dated row "promoted_at"
  undemoted : ¬ Dated row "demoted_at"
  history : historyOf row = []

/-- A provenance with distinct names is read back member by member. -/
theorem provenanceOf_record {row : RuleRow} {entries : List (String × PyVal)}
    (hnodup : (entries.map Prod.fst).Nodup)
    (h : jsonDumps (.record entries) = .ok row.provenanceJson) {name : String} {value read : PyVal}
    (hget : itemGet? (entries.map fun (k, v) => (.str k, v)) name = some value)
    (hreads : Reads value read) : itemGet? (provenanceOf row) name = some read := by
  obtain ⟨json, hjson, hdoc⟩ := bind_ok h
  injection hdoc with hdoc
  have hitems : ∀ item ∈ entries.map (fun (k, v) => (PyKey.str k, v)), ∃ read, ReadsItem item read := by
    intro item hitem
    obtain ⟨_, valueJson, hvalue⟩ := PyVal.Encodable.items ⟨json, hjson⟩ item hitem
    obtain ⟨entry, _, rfl⟩ := List.mem_map.mp hitem
    exact ⟨(.str entry.1, valueJson.toPyVal), rfl, ⟨entry.1, rfl⟩, valueJson, hvalue, rfl⟩
  obtain ⟨reads, hall⟩ := forall₂_of_forall hitems
  have hkeys : ((entries.map fun (k, v) => (PyKey.str k, v)).map Prod.fst).Nodup := by
    have hstr : (entries.map fun (k, v) => (PyKey.str k, v)).map Prod.fst =
        (entries.map Prod.fst).map PyKey.str := by
      rw [List.map_map, List.map_map]
      rfl
    rw [hstr]
    exact hnodup.map fun a b hab => by injection hab
  have hread : json.toPyVal = .dict reads := Reads.unique ⟨json, hjson, rfl⟩ (Reads.dict hall hkeys)
  have hprovenance : provenanceOf row = reads := by
    unfold provenanceOf
    rw [← hdoc]
    show (match (Except.ok json.toPyVal : Except PyExc PyVal) with
      | .ok (.dict items) => items
      | _ => []) = reads
    rw [hread]
  rw [hprovenance]
  rcases itemGet?_of_reads hall name with ⟨hnone, _⟩ | ⟨value', read', hvalue, hread', hreads'⟩
  · rw [hget] at hnone
    cases hnone
  · rw [hget] at hvalue
    injection hvalue with hvalue
    subst hvalue
    rw [hread', Reads.unique hreads' hreads]

theorem newborn_of_written (D : PaymentDistiller σ) {row : RuleRow} {keyFeatures : Situation}
    {sourceIds : List String} {now : String} (hstatus : row.status = RuleStatus.shadow.value)
    (h : jsonDumps (D.distilledProvenance keyFeatures sourceIds now) = .ok row.provenanceJson) :
    Newborn row := by
  unfold PaymentDistiller.distilledProvenance at h
  have hnone : Reads .none .none := ⟨.null, rfl, rfl⟩
  have hpromoted : itemGet? (provenanceOf row) "promoted_at" = some .none :=
    provenanceOf_record (by simp) h rfl hnone
  have hdemoted : itemGet? (provenanceOf row) "demoted_at" = some .none :=
    provenanceOf_record (by simp) h rfl hnone
  have hhistory : itemGet? (provenanceOf row) "demotion_history" = some (.list []) :=
    provenanceOf_record (by simp) h rfl (Reads.list .nil)
  refine ⟨provenanceOf_record (by simp) h rfl (reads_str _), hstatus, ?_, ?_, ?_⟩
  · rintro ⟨date, hdate, hne⟩
    rw [hpromoted] at hdate
    injection hdate with hdate
    exact hne hdate.symm
  · rintro ⟨date, hdate, hne⟩
    rw [hdemoted] at hdate
    injection hdate with hdate
    exact hne hdate.symm
  · unfold historyOf
    rw [hhistory]

/-- `add_rule` appends a row with the provenance it is given, or nothing. -/
theorem addRule_written (schema : Schema) (ruleKey : String) (definition : PyVal)
    (status : RuleStatus) (provenance : PyVal) (priority : Int) (now : String)
    (rows : List RuleRow) :
    let after := (addRule schema ruleKey definition status (some provenance) priority none now rows).2
    after = rows ∨ ∃ row, after = rows ++ [row] ∧ row.status = status.value ∧
      jsonDumps provenance = .ok row.provenanceJson := by
  unfold addRule
  dsimp only
  split
  · exact .inl rfl
  · rename_i assigned row hinserted
    split
    · exact .inl rfl
    · obtain ⟨_, _, hinserted⟩ := bind_ok hinserted
      obtain ⟨_, _, hinserted⟩ := bind_ok hinserted
      obtain ⟨text, hdumps, hinserted⟩ := bind_ok hinserted
      injection hinserted with hinserted
      injection hinserted with _ hrow
      refine .inr ⟨row, rfl, by rw [← hrow], ?_⟩
      rw [← hrow]
      exact hdumps

/-- The table after a while: its rows as they have become, and the rows born since. -/
def Lives (rows rows' : List RuleRow) : Prop :=
  ∃ grown born, rows' = grown ++ born ∧ List.Forall₂ Lived rows grown ∧
    ∀ row ∈ born, ∃ newborn, Newborn newborn ∧ Lived newborn row

theorem lives_refl (rows : List RuleRow) : Lives rows rows :=
  ⟨rows, [], (List.append_nil rows).symm, List.forall₂_same.mpr fun _ _ => .refl,
    fun _ h => absurd h List.not_mem_nil⟩

theorem forall₂_lived_trans {rows rows' rows'' : List RuleRow} (h : List.Forall₂ Lived rows rows')
    (h' : List.Forall₂ Lived rows' rows'') : List.Forall₂ Lived rows rows'' := by
  induction h generalizing rows'' with
  | nil => exact h'
  | cons hrow _ ih =>
    cases h' with
    | cons hrow' hrest' => exact .cons (hrow.trans hrow') (ih hrest')

theorem lives_trans {rows rows' rows'' : List RuleRow} (h : Lives rows rows')
    (h' : Lives rows' rows'') : Lives rows rows'' := by
  obtain ⟨grown, born, rfl, hgrown, hborn⟩ := h
  obtain ⟨grown', born', rfl, hgrown', hborn'⟩ := h'
  obtain ⟨old, new, hold, hnew, rfl⟩ : ∃ old new, List.Forall₂ Lived grown old ∧
      List.Forall₂ Lived born new ∧ grown' = old ++ new := by
    refine ⟨grown'.take grown.length, grown'.drop grown.length, ?_, ?_,
      (List.take_append_drop _ _).symm⟩
    · have := List.forall₂_take grown.length hgrown'
      rwa [List.take_left] at this
    · have := List.forall₂_drop grown.length hgrown'
      rwa [List.drop_left] at this
  refine ⟨old, new ++ born', by rw [List.append_assoc], ?_, ?_⟩
  · exact forall₂_lived_trans hgrown hold
  · refine List.forall_mem_append.mpr ⟨fun row hrow => ?_, hborn'⟩
    obtain ⟨row₀, hrow₀, hlived⟩ := forall₂_mem hnew.flip hrow
    obtain ⟨newborn, hnewborn, hlived₀⟩ := hborn row₀ hrow₀
    exact ⟨newborn, hnewborn, hlived₀.trans hlived⟩

theorem MovesOnce.lives {rows rows' : List RuleRow} (h : MovesOnce rows rows') : Lives rows rows' := by
  refine ⟨rows', [], (List.append_nil _).symm, ?_, fun _ h => absurd h List.not_mem_nil⟩
  refine List.Forall₂.imp (fun row row' hrow => ?_) h
  rcases hrow with rfl | hmove
  · exact .refl
  · exact .single hmove

/-- Over any call names stay unique, and where they are, the rules live on. -/
def LivesOn (w w' : DistillerWorld σ) : Prop :=
  UniqueRules w.rows → Lives w.rows w'.rows ∧ UniqueRules w'.rows

instance : Std.Refl (LivesOn (σ := σ)) := ⟨fun w h => ⟨lives_refl w.rows, h⟩⟩

instance : IsTrans (DistillerWorld σ) LivesOn where
  trans _ _ _ h h' hunique := by
    obtain ⟨hlives, hunique'⟩ := h hunique
    obtain ⟨hlives', hunique''⟩ := h' hunique'
    exact ⟨lives_trans hlives hlives', hunique''⟩

theorem KeepsRules.livesOn {w w' : DistillerWorld σ} (h : KeepsRules w w') : LivesOn w w' := by
  intro hunique
  unfold KeepsRules at h
  rw [h]
  exact ⟨lives_refl w.rows, hunique⟩

theorem store_livesOn (ruleKey : String) (candidate : Situation × String × List String)
    (definition : PyVal) : Moves LivesOn (D.store ruleKey candidate definition) := by
  intro w hunique
  refine ⟨?_, (store_creates ruleKey candidate definition w).unique hunique⟩
  unfold PaymentDistiller.store
  rw [run_attempt]
  rcases addRule_written D.schema ruleKey definition .shadow
    (D.distilledProvenance candidate.1 candidate.2.2 (D.now w.env).1) 50
    (D.now w.env).1 w.rows with h | ⟨row, h, hstatus, hwritten⟩
  · dsimp only
    rw [h]
    exact lives_refl _
  · dsimp only
    rw [h]
    refine ⟨w.rows, [row], rfl, List.forall₂_same.mpr fun _ _ => .refl, ?_⟩
    rw [List.forall_mem_singleton]
    exact ⟨row, newborn_of_written D hstatus hwritten, .refl⟩

/-- Distilling lets the rules live on. -/
theorem livesOn_kept (D : PaymentDistiller σ) : KeptByDistilling D LivesOn where
  notes f _ := (remember_keepsRules f).mono fun _ _ => KeepsRules.livesOn
  asked w _ := KeepsRules.livesOn (w := w) rfl
  stored := store_livesOn

theorem promote_livesOn (D : PaymentDistiller σ) : Moves LivesOn D.promote :=
  fun w hunique => ⟨(promote_movesOnce D hunique).lives, promote_staysUnique D w hunique⟩

theorem demote_livesOn (D : PaymentDistiller σ) : Moves LivesOn D.demote :=
  fun w hunique => ⟨(demote_movesOnce D hunique).lives, (demote_shifts D w).staysUnique hunique⟩

/-- Every call of the distiller. -/
theorem perform_livesOn (D : PaymentDistiller σ) (op : DistillerOp) : Moves LivesOn (D.perform op) :=
  perform_moves
    (fun context action recovered fromAgent sourceId =>
      (observe_keepsRules context action recovered fromAgent sourceId).mono
        fun _ _ => KeepsRules.livesOn)
    (livesOn_kept D) (promote_livesOn D) (demote_livesOn D) op

end Calls

/-! ## What a life can be -/

/-- What a row may have become: its rule is the same, its status has only gone on, and its history
has an entry more if it was demoted. A row of another origin is as it was. -/
structure Became (row row' : RuleRow) : Prop where
  moves : Lived row row'
  ruleKey : row'.ruleKey = row.ruleKey
  version : row'.version = row.version
  priority : row'.priority = row.priority
  definition : row'.definitionJson = row.definitionJson
  foreign : ¬ FromDistiller row → row' = row
  status : row'.status = row.status ∨
    (row.status = RuleStatus.shadow.value ∧
      (row'.status = RuleStatus.active.value ∨ row'.status = RuleStatus.demoted.value)) ∨
    (row.status = RuleStatus.active.value ∧ row'.status = RuleStatus.demoted.value)
  history : ∃ entries, historyOf row' = historyOf row ++ entries ∧
    entries.length = if row.status ≠ RuleStatus.demoted.value ∧
      row'.status = RuleStatus.demoted.value then 1 else 0

theorem MovesUp.history {row row' : RuleRow} (h : MovesUp row row') :
    historyOf row' = historyOf row := by
  obtain ⟨now, hprovenance⟩ := h.provenance
  unfold historyOf
  rw [hprovenance, itemGet?_itemSet, if_neg (by decide)]

theorem MovesDown.history {row row' : RuleRow} (h : MovesDown row row') :
    ∃ entry, historyOf row' = historyOf row ++ [entry] := by
  obtain ⟨now, entry, hprovenance⟩ := h.provenance
  refine ⟨entry, ?_⟩
  rw [historyOf, hprovenance, itemGet?_itemSet, if_pos rfl]

theorem MovesUp.after {row row' : RuleRow} (h : MovesUp row row') :
    row'.status = RuleStatus.active.value := by
  obtain ⟨provenance, hcolumns⟩ := h.columns
  rw [hcolumns]

theorem MovesDown.after {row row' : RuleRow} (h : MovesDown row row') :
    row'.status = RuleStatus.demoted.value := by
  obtain ⟨provenance, hcolumns⟩ := h.columns
  rw [hcolumns]

/-- A move leaves the rule itself alone. -/
theorem Move.columns {row row' : RuleRow} (h : Move row row') :
    row'.ruleKey = row.ruleKey ∧ row'.version = row.version ∧ row'.priority = row.priority ∧
      row'.definitionJson = row.definitionJson := by
  cases h with
  | up h =>
    obtain ⟨provenance, hcolumns⟩ := h.columns
    rw [hcolumns]
    exact ⟨rfl, rfl, rfl, rfl⟩
  | down h =>
    obtain ⟨provenance, hcolumns⟩ := h.columns
    rw [hcolumns]
    exact ⟨rfl, rfl, rfl, rfl⟩

theorem Became.refl (row : RuleRow) : Became row row :=
  ⟨.refl, rfl, rfl, rfl, rfl, fun _ => rfl, .inl rfl, [], (List.append_nil _).symm, by simp⟩

/-- One more move. -/
theorem Became.move {row row' row'' : RuleRow} (h : Became row row') (hmove : Move row' row'') :
    Became row row'' := by
  obtain ⟨hkey, hversion, hpriority, hdefinition⟩ := hmove.columns
  have hshadow : RuleStatus.shadow.value ≠ RuleStatus.active.value := by decide
  have hdemoted : RuleStatus.shadow.value ≠ RuleStatus.demoted.value := by decide
  have hactive : RuleStatus.active.value ≠ RuleStatus.demoted.value := by decide
  obtain ⟨entries, hentries, hlength⟩ := h.history
  have horigin : FromDistiller row := by
    by_contra hforeign
    have hsame := h.foreign hforeign
    exact hforeign (hsame ▸ hmove.fromDistiller.1)
  refine ⟨h.moves.tail hmove, hkey.trans h.ruleKey, hversion.trans h.version,
    hpriority.trans h.priority, hdefinition.trans h.definition, fun hforeign => absurd horigin hforeign,
    ?_, ?_⟩
  · cases hmove with
    | up hup =>
      -- only a row that was in SHADOW all along is there now
      refine .inr (.inl ⟨?_, .inl hup.after⟩)
      rcases h.status with hsame | ⟨_, hthere | hthere⟩ | ⟨_, hthere⟩
      · exact hsame ▸ hup.before
      · exact absurd (hup.before.symm.trans hthere) hshadow
      · exact absurd (hup.before.symm.trans hthere) hdemoted
      · exact absurd (hup.before.symm.trans hthere) hdemoted
    | down hdown =>
      rcases h.status with hsame | ⟨hbefore, _⟩ | ⟨hbefore, _⟩
      · exact .inr (.inr ⟨hsame ▸ hdown.before, hdown.after⟩)
      · exact .inr (.inl ⟨hbefore, .inr hdown.after⟩)
      · exact .inr (.inr ⟨hbefore, hdown.after⟩)
  · cases hmove with
    | up hup =>
      refine ⟨entries, hup.history.trans hentries, ?_⟩
      rw [hlength, hup.before, hup.after]
      simp [hdemoted, hactive]
    | down hdown =>
      obtain ⟨entry, hentry⟩ := hdown.history
      refine ⟨entries ++ [entry], by rw [hentry, hentries, List.append_assoc], ?_⟩
      rw [hdown.before, if_neg fun hboth => hactive hboth.2] at hlength
      have hnot : row.status ≠ RuleStatus.demoted.value := by
        intro hrow
        rcases h.status with hsame | ⟨hbefore, _⟩ | ⟨hbefore, _⟩
        · exact hactive (hdown.before.symm.trans (hsame.trans hrow))
        · exact hdemoted (hbefore.symm.trans hrow)
        · exact hactive (hbefore.symm.trans hrow)
      rw [List.length_append, hlength, if_pos ⟨hnot, hdown.after⟩]
      rfl

theorem Lived.became {row row' : RuleRow} (h : Lived row row') : Became row row' := by
  induction h with
  | refl => exact .refl row
  | tail _ hmove ih => exact ih.move hmove

/-- The rule made such a move on its way. -/
def Made (move : RuleRow → RuleRow → Prop) (row row' : RuleRow) : Prop :=
  ∃ a b, Lived row a ∧ move a b ∧ Lived b row'

/-- A date that one kind of move sets, and no other move changes. -/
theorem dated_iff_made {move : RuleRow → RuleRow → Prop} {key : String}
    (hsets : ∀ a b, move a b → Dated b key) (hkeeps : ∀ a b, Move a b → Dated a key → Dated b key)
    (hother : ∀ a b, Move a b → move a b ∨ (Dated b key → Dated a key)) {row row' : RuleRow}
    (h : Lived row row') : Dated row' key ↔ Dated row key ∨ Made move row row' := by
  have hlater : ∀ {a b}, Lived a b → Dated a key → Dated b key := by
    intro a b hlived hdated
    induction hlived with
    | refl => exact hdated
    | tail _ hmove ih => exact hkeeps _ _ hmove ih
  constructor
  · intro hdated
    induction h with
    | refl => exact .inl hdated
    | @tail a b hlived hmove ih =>
      rcases hother a b hmove with hset | hback
      · exact .inr ⟨a, b, hlived, hset, .refl⟩
      · rcases ih (hback hdated) with hbefore | ⟨c, d, hbefore, hset, hafter⟩
        · exact .inl hbefore
        · exact .inr ⟨c, d, hbefore, hset, hafter.tail hmove⟩
  · rintro (hdated | ⟨a, b, _, hset, hafter⟩)
    · exact hlater h hdated
    · exact hlater hafter (hsets a b hset)

theorem dated_congr {row row' : RuleRow} {key : String}
    (h : itemGet? (provenanceOf row') key = itemGet? (provenanceOf row) key) :
    Dated row' key ↔ Dated row key := by
  unfold Dated
  rw [h]

theorem promoted_iff {row row' : RuleRow} (h : Lived row row') :
    Dated row' "promoted_at" ↔ Dated row "promoted_at" ∨ Made MovesUp row row' := by
  have hsets : ∀ a b, MovesUp a b → Dated b "promoted_at" := by
    intro a b hup
    obtain ⟨now, hprovenance⟩ := hup.provenance
    exact ⟨.str now, by rw [hprovenance, itemGet?_itemSet, if_pos rfl], by simp⟩
  have hdown : ∀ a b, MovesDown a b → (Dated b "promoted_at" ↔ Dated a "promoted_at") := by
    intro a b hdown
    obtain ⟨now, entry, hprovenance⟩ := hdown.provenance
    refine dated_congr ?_
    rw [hprovenance, itemGet?_itemSet, if_neg (by decide), itemGet?_itemSet, if_neg (by decide)]
  refine dated_iff_made hsets (fun a b hmove hdated => ?_) (fun a b hmove => ?_) h
  · cases hmove with
    | up hup => exact hsets a b hup
    | down hmove => exact (hdown a b hmove).mpr hdated
  · cases hmove with
    | up hup => exact .inl hup
    | down hmove => exact .inr (hdown a b hmove).mp

theorem demoted_iff {row row' : RuleRow} (h : Lived row row') :
    Dated row' "demoted_at" ↔ Dated row "demoted_at" ∨ Made MovesDown row row' := by
  have hsets : ∀ a b, MovesDown a b → Dated b "demoted_at" := by
    intro a b hdown
    obtain ⟨now, entry, hprovenance⟩ := hdown.provenance
    refine ⟨.str now, ?_, by simp⟩
    rw [hprovenance, itemGet?_itemSet, if_neg (by decide), itemGet?_itemSet, if_pos rfl]
  have hup : ∀ a b, MovesUp a b → (Dated b "demoted_at" ↔ Dated a "demoted_at") := by
    intro a b hup
    obtain ⟨now, hprovenance⟩ := hup.provenance
    refine dated_congr ?_
    rw [hprovenance, itemGet?_itemSet, if_neg (by decide)]
  refine dated_iff_made hsets (fun a b hmove hdated => ?_) (fun a b hmove => ?_) h
  · cases hmove with
    | up hmove => exact (hup a b hmove).mpr hdated
    | down hdown => exact hsets a b hdown
  · cases hmove with
    | up hmove => exact .inr (hup a b hmove).mp
    | down hdown => exact .inl hdown

/-- What a row has become, and a date where there was none tells of a move since. -/
structure TellsMoves (row row' : RuleRow) : Prop where
  became : Became row row'
  promoted : Dated row' "promoted_at" ↔ Dated row "promoted_at" ∨ Made MovesUp row row'
  demoted : Dated row' "demoted_at" ↔ Dated row "demoted_at" ∨ Made MovesDown row row'

theorem Lived.tellsMoves {row row' : RuleRow} (h : Lived row row') : TellsMoves row row' :=
  ⟨Lived.became h, promoted_iff h, demoted_iff h⟩

/-- The table keeps the lifecycle: old rows have only gone on, new ones started in SHADOW, and
their dates tell the moves they made. -/
def KeepsLifecycle (rows rows' : List RuleRow) : Prop :=
  ∃ grown born, rows' = grown ++ born ∧ List.Forall₂ TellsMoves rows grown ∧
    ∀ row ∈ born, ∃ newborn, Newborn newborn ∧ Became newborn row ∧
      (Dated row "promoted_at" ↔ Made MovesUp newborn row) ∧
      (Dated row "demoted_at" ↔ Made MovesDown newborn row)

/-- **The lives of rules.** From any table in which key and version name one rule, with any
proposer, and whether calls return or raise: between any two moments of a run of the distiller
the lifecycle is kept. -/
theorem rules_keep_lifecycle {σ : Type} (D : PaymentDistiller σ) (before after : List DistillerOp)
    {w : DistillerWorld σ} (hunique : UniqueRules w.rows) :
    KeepsLifecycle (Run.exec D.runOp before w).rows (Run.exec D.runOp (before ++ after) w).rows := by
  have hrun : ∀ (ops : List DistillerOp) (w : DistillerWorld σ),
      LivesOn w (Run.exec D.runOp ops w) := fun ops w =>
    Run.exec_inv (fun v op h => IsTrans.trans _ _ _ h (perform_livesOn D op v)) (Std.Refl.refl w)
  have hunique' := (hrun before w hunique).2
  obtain ⟨⟨grown, born, hrows, hgrown, hborn⟩, _⟩ := hrun after (Run.exec D.runOp before w) hunique'
  rw [Run.exec_append]
  refine ⟨grown, born, hrows, List.Forall₂.imp (fun _ _ h => Lived.tellsMoves h) hgrown, ?_⟩
  intro row hrow
  obtain ⟨newborn, hnewborn, hlived⟩ := hborn row hrow
  obtain ⟨hbecame, hpromoted, hdemoted⟩ := Lived.tellsMoves hlived
  rw [or_iff_right hnewborn.unpromoted] at hpromoted
  rw [or_iff_right hnewborn.undemoted] at hdemoted
  exact ⟨newborn, hnewborn, hbecame, hpromoted, hdemoted⟩

/-- A distilled rule that waits in SHADOW. -/
def Sample.waiting : RuleRow :=
  ⟨"distilled:failure_reason=expired_card", 1, "shadow", 50, .doc (.obj [("precondition",
      .obj [("all", .arr [.obj [("field", .str "failure_reason"), ("op", .str "eq"),
        ("value", .str "expired_card")]])]), ("action", .obj [("name", .str "send_payment_link")])]),
    .doc (.obj [("origin", .str "distilled"), ("promoted_at", .null)])⟩

/-- A distiller that is always proposed a link for expired cards. -/
def Sample.linking : PaymentDistiller Unit :=
  { Sample.distiller with
    proposer := fun _ env => (.ok (Sample.proposal "failure_reason" "eq" (.str "expired_card")
      "send_payment_link" []), env) }

/-- The second seed rule, and the rule that waits. -/
def Sample.table : List RuleRow :=
  [seedRow "seed-invalid-details-resend-link" 20 "invalid_details" "send_payment_link"
    "2026-01-01T00:00:00+00:00", Sample.waiting]

/-- Enough cases to distill a second version of the rule that waits, enough more to promote both,
and enough lost ones to demote first the one and then the other. -/
def Sample.creating : List DistillerOp :=
  List.replicate 15 (Sample.handledOnce true "expired_card" 5000 "send_payment_link") ++ [.distill]

def Sample.promoting : List DistillerOp :=
  List.replicate 30 (Sample.handledOnce true "expired_card" 5000 "send_payment_link") ++ [.promote]

def Sample.demoting : List DistillerOp :=
  List.replicate 30 (Sample.handledOnce false "expired_card" 5000 "send_payment_link") ++ [.demote]

def Sample.tableAfter (ops : List DistillerOp) : List RuleRow :=
  (Run.exec Sample.linking.runOp ops ⟨Sample.table, (), {}⟩).rows

theorem rules_keep_lifecycle_lived :
    KeepsLifecycle Sample.table (Sample.tableAfter
      (Sample.creating ++ (Sample.promoting ++ (Sample.demoting ++ Sample.demoting)))) ∧
    (Sample.tableAfter Sample.creating).map (·.status) = ["active", "shadow", "shadow"] ∧
    (Sample.tableAfter (Sample.creating ++ Sample.promoting)).map (·.status) =
      ["active", "active", "active"] ∧
    (Sample.tableAfter (Sample.creating ++ (Sample.promoting ++ (Sample.demoting ++
      Sample.demoting)))).map (fun row => (row.version, row.status)) =
      [(1, "active"), (1, "demoted"), (2, "demoted")] := by
  have hunique : UniqueRules Sample.table := by
    show (Sample.table.map ruleId).Nodup
    decide
  refine ⟨?_, by decide +kernel, by decide +kernel, by decide +kernel⟩
  exact rules_keep_lifecycle Sample.linking [] _ hunique

end PaymentRecovery.Recovery

import PaymentRecovery.Evals.Promotions

/-!
# What a demotion rests on

The recent window of a rule is kept by key, and takes every case that an ACTIVE version of the
key matches, whichever rule the router resolved the case with. It holds the firings of one
version exactly where no other rule resolves a case the version matches, and no version goes
ACTIVE on the window of another.
-/

namespace PaymentRecovery.Evals

open PaymentRecovery.Python PaymentRecovery.Lib PaymentRecovery.Lib.Table PaymentRecovery.Rules
open PaymentRecovery.Recovery PaymentRecovery.Distill Program

variable {σ : Type}

/-! ## The firings of one version -/

/-- The outcome of the case, if the router resolved it with the version. -/
def fired (id : String × Int) (rows : List RuleRow) (case : SyntheticCase) : Option Bool :=
  if case.control then none
  else
    match route rows case.observableContext with
    | .error _ => none
    | .ok decision =>
      if decision.ruleKey = some id.1 ∧ decision.ruleVersion = some id.2 then
        some (case.recovered (orNoAction decision.action))
      else none

/-- The outcomes of the cases of a stream that were resolved with the version. The router looks at
ACTIVE rules only, so these are the cases since the version was promoted. -/
def firings (D : PaymentDistiller σ) (id : String × Int) (cases : List SyntheticCase)
    (w : DistillerWorld σ) : List Bool :=
  gathered D (fun rows case => (fired id rows case).toList) cases w

/-- The last entries of a list. -/
def lastOf {α : Type} (n : Nat) (l : List α) : List α := l.drop (l.length - n)

/-- What demotion is meant to rest on: enough firings, and their recovery. -/
structure JudgedByFirings (sqrt : ℚ → ℚ) (policy : DemotionPolicy ℚ) (outcomes : List Bool) :
    Prop where
  recent : ((lastOf policy.minRecent.toNat outcomes).length : Int) = policy.minRecent
  recoveryUb : (wilsonInterval sqrt ((lastOf policy.minRecent.toNat outcomes).countP id)
    (lastOf policy.minRecent.toNat outcomes).length policy.z).2 < policy.recoveryUbFloor

/-- The window kept under a key. -/
def windowOf (w : DistillerWorld σ) (key : String) : List Bool :=
  (w.state.recent.get? key).getD []

/-- An ACTIVE rule that matches an observed case is the one the router resolved it with, and the
only ACTIVE version of its key; and nothing goes ACTIVE under a key whose window is in use. -/
structure OwnFirings (D : PaymentDistiller σ) (w : DistillerWorld σ) (case : SyntheticCase) :
    Prop where
  observed : ∀ ls, case.control = false → D.distilledRules [.shadow, .active] w.rows = .ok ls →
    ∀ l ∈ ls, l.status = RuleStatus.active.value →
      evaluate l.rule case.observableContext = true →
      (fired l.id w.rows case).isSome = true ∧
        ∀ s ∈ ls, s.status = RuleStatus.active.value → s.ruleKey = l.ruleKey →
          l.version = s.version
  promoted : ∀ before, (beforePromote D case).run w = (.ok true, before) →
    ∀ row, D.Promotes before row → windowOf before row.ruleKey = []

/-- The condition speaks of what the calls return. -/
theorem ownFirings_iff {D : PaymentDistiller σ} {w : DistillerWorld σ} {case : SyntheticCase} :
    OwnFirings D w case ↔
      (case.control = false →
        ∀ ls ∈ (D.distilledRules [.shadow, .active] w.rows).toOption,
        ∀ l ∈ ls, l.status = RuleStatus.active.value →
          evaluate l.rule case.observableContext = true →
          (fired l.id w.rows case).isSome = true ∧
            ∀ s ∈ ls, s.status = RuleStatus.active.value → s.ruleKey = l.ruleKey →
              l.version = s.version) ∧
      (((beforePromote D case).run w).1.toOption = some true →
        ∀ row ∈ ((beforePromote D case).run w).2.rows, row.status = RuleStatus.shadow.value →
          (∃ row' ∈ (D.promote.run ((beforePromote D case).run w).2).2.rows,
            ruleId row' = ruleId row ∧ row'.status = RuleStatus.active.value) →
          windowOf ((beforePromote D case).run w).2 row.ruleKey = []) := by
  refine ⟨fun h => ⟨fun hcontrol ls hls => ?_, fun hdue row hrow hshadow hactive => ?_⟩,
    fun h => ⟨fun ls hcontrol hls => ?_, fun before hrun row hpromotes => ?_⟩⟩
  · exact h.observed ls hcontrol (mem_toOption.mp hls)
  · exact h.promoted _ (Prod.ext (mem_toOption.mp hdue) rfl) row ⟨hrow, hshadow, hactive⟩
  · exact h.1 hcontrol ls (mem_toOption.mpr hls)
  · have hwindow := h.2 (mem_toOption.mpr (congrArg Prod.fst hrun))
    rw [hrun] at hwindow
    exact hwindow row hpromotes.mem hpromotes.shadow hpromotes.active

instance (D : PaymentDistiller σ) (w : DistillerWorld σ) (case : SyntheticCase) :
    Decidable (OwnFirings D w case) :=
  @decidable_of_iff' _ _ ownFirings_iff (@instDecidableAnd _ _ inferInstance inferInstance)

/-- `demote`, called in `w`, moves the ACTIVE row to DEMOTED. -/
structure Demotes (D : PaymentDistiller σ) (w : DistillerWorld σ) (row : RuleRow) : Prop where
  mem : row ∈ w.rows
  active : row.status = RuleStatus.active.value
  demoted : ∃ row' ∈ (D.demote.run w).2.rows, ruleId row' = ruleId row ∧
    row'.status = RuleStatus.demoted.value

/-- One turn as far as `demote`: is it due? -/
def beforeDemote (D : PaymentDistiller σ) (case : SyntheticCase) :
    Program (DistillerWorld σ) PyExc Bool := do
  if ← beforePromote D case then
    D.promote
    return true
  else return false

/-- A turn is that, and then `demote` if it is due. -/
theorem runCase_demote (D : PaymentDistiller σ) (case : SyntheticCase) (w : DistillerWorld σ) :
    (runCase D case).run w =
      match (beforeDemote D case).run w with
      | (.ok true, mid) => D.demote.run mid
      | (.ok false, v) => (.ok (), v)
      | (.error exc, v) => (.error exc, v) := by
  rw [runCase_run]
  unfold beforeDemote
  rw [run_bind]
  cases (beforePromote D case).run w with
  | mk answer before =>
    cases answer with
    | error exc => rfl
    | ok due =>
      cases due with
      | false => rfl
      | true =>
        dsimp only
        rw [if_pos rfl, run_bind, run_bind]
        cases D.promote.run before with
        | mk answer mid =>
          cases answer <;> rfl

/-! ## Windows -/

theorem length_lastOf {α : Type} (n : Nat) (l : List α) : (lastOf n l).length = min n l.length := by
  unfold lastOf
  rw [List.length_drop]
  omega

/-- A full window forgets its first entry. -/
theorem pushWindow_lastOf (n : Nat) (l : List Bool) (recovered : Bool) :
    pushWindow n (lastOf n l) recovered = lastOf n (l ++ [recovered]) := by
  unfold pushWindow
  rw [length_lastOf]
  unfold lastOf
  rw [List.length_append, List.length_singleton]
  by_cases h : l.length < n
  · have hall : l.length - n = 0 := by omega
    have hpush : min n l.length + 1 - n = 0 := by omega
    have hlast : l.length + 1 - n = 0 := by omega
    rw [hall, hpush, hlast, List.drop_zero, List.drop_zero, List.drop_zero]
  · have hpush : min n l.length + 1 - n = 1 := by omega
    have hlast : l.length + 1 - n = (l.length - n) + 1 := by omega
    have hsplit : (l ++ [recovered]).drop (l.length - n) = l.drop (l.length - n) ++ [recovered] :=
      List.drop_append_of_le_length (Nat.sub_le _ _)
    rw [hpush, hlast, ← List.drop_drop, hsplit]

section Observe

variable {D : PaymentDistiller σ} {context : List (String × PyVal)} {action : Option String}
  {recovered : Bool} {w w' : DistillerWorld σ}

/-- One loaded rule pushes the window of its key if it is ACTIVE and matches. -/
theorem watched_window (state : DistillerState) (l : LoadedRule) (key : String) :
    ((D.watched context action recovered state l).recent.get? key).getD [] =
      if l.status = RuleStatus.active.value ∧ hits key context l = true then
        pushWindow D.demotion.minRecent.toNat ((state.recent.get? key).getD []) recovered
      else (state.recent.get? key).getD [] := by
  unfold PaymentDistiller.watched hits
  by_cases hmatch : evaluate l.rule context = true
  · rw [if_pos hmatch, hmatch, Bool.and_true]
    dsimp only
    by_cases hactive : l.status = RuleStatus.active.value
    · rw [if_pos hactive]
      show ((state.recent.set l.ruleKey _).get? key).getD [] = _
      rw [Dict.get?_set]
      by_cases hkey : l.ruleKey = key
      · rw [if_pos hkey.symm, if_pos ⟨hactive, decide_eq_true hkey⟩, ← hkey]
        rfl
      · rw [if_neg (Ne.symm hkey), if_neg fun h => hkey (of_decide_eq_true h.2)]
    · rw [if_neg hactive, if_neg fun h => hactive h.1]
      rfl
  · rw [if_neg hmatch, if_neg (by simp [hmatch])]

/-- The loop pushes it once for every ACTIVE rule of the key that matches. -/
theorem foldl_watched_window (ls : List LoadedRule) (state : DistillerState) (key : String) :
    ((ls.foldl (D.watched context action recovered) state).recent.get? key).getD [] =
      ((ls.filter fun l => l.status = RuleStatus.active.value).filter (hits key context)).foldl
        (fun window _ => pushWindow D.demotion.minRecent.toNat window recovered)
        ((state.recent.get? key).getD []) := by
  induction ls generalizing state with
  | nil => rfl
  | cons l rest ih =>
    rw [List.foldl_cons, ih, watched_window]
    by_cases hactive : l.status = RuleStatus.active.value
    · rw [List.filter_cons_of_pos (by simpa using hactive)]
      by_cases hhit : hits key context l = true
      · rw [if_pos ⟨hactive, hhit⟩, List.filter_cons_of_pos hhit]
        rfl
      · rw [if_neg fun h => hhit h.2, List.filter_cons_of_neg hhit]
    · rw [if_neg fun h => hactive h.1, List.filter_cons_of_neg (by simpa using hactive)]

/-- Where no ACTIVE rule matches, no window is pushed. -/
theorem foldl_watched_unpushed {ls : List LoadedRule}
    (h : ∀ l ∈ ls, evaluate l.rule context = true → l.status ≠ RuleStatus.active.value)
    (state : DistillerState) :
    (ls.foldl (D.watched context action recovered) state).recent = state.recent := by
  induction ls generalizing state with
  | nil => rfl
  | cons l rest ih =>
    obtain ⟨hfirst, hrest⟩ := List.forall_mem_cons.mp h
    rw [List.foldl_cons, ih hrest]
    unfold PaymentDistiller.watched
    by_cases hmatch : evaluate l.rule context = true
    · rw [if_pos hmatch]
      dsimp only
      rw [if_neg (hfirst hmatch)]
      rfl
    · rw [if_neg hmatch]

/-- A window in use is bounded. -/
def Bounded (D : PaymentDistiller σ) (w : DistillerWorld σ) : Prop :=
  ∀ key window, w.state.recent.get? key = some window → 0 ≤ D.demotion.minRecent

/-- Observing a case pushes the windows of the ACTIVE rules that match, and nothing else. -/
theorem observe_window {fromAgent : Bool} {sourceId : String}
    (h : (D.observe context action recovered fromAgent sourceId).run w = (.ok (), w')) :
    ∃ ls, D.distilledRules [.shadow, .active] w.rows = .ok ls ∧
      (∀ key, windowOf w' key =
        ((ls.filter fun l => l.status = RuleStatus.active.value).filter (hits key context)).foldl
          (fun window _ => pushWindow D.demotion.minRecent.toNat window recovered)
          (windowOf w key)) ∧
      (Bounded D w → Bounded D w') := by
  obtain ⟨features, ls, hls, rfl, hbounds⟩ := observe_run h
  have hpooled : (w.state.pooled features action recovered fromAgent sourceId).recent =
      w.state.recent := by
    unfold DistillerState.pooled
    split <;> rfl
  refine ⟨ls, hls, fun key => ?_, fun hbounded => ?_⟩
  · unfold windowOf
    dsimp only
    rw [foldl_watched_window, hpooled]
  · by_cases hany : ∃ l ∈ ls, evaluate l.rule context = true ∧ l.status = RuleStatus.active.value
    · obtain ⟨l, hl, hmatch, hactive⟩ := hany
      exact fun _ _ _ => hbounds l hl hmatch hactive
    · have hsame : (ls.foldl (D.watched context action recovered)
          (w.state.pooled features action recovered fromAgent sourceId)).recent = _ :=
        foldl_watched_unpushed (fun l hl hmatch hactive => hany ⟨l, hl, hmatch, hactive⟩) _
      intro key window hwindow
      exact hbounded key window ((hsame.trans hpooled) ▸ hwindow)

end Observe

/-! ## What leaves the windows alone -/

/-- The windows stay as they are. -/
def KeepsWindows (w w' : DistillerWorld σ) : Prop := w'.state.recent = w.state.recent

instance : Std.Refl (KeepsWindows (σ := σ)) := ⟨fun _ => rfl⟩

instance : IsTrans (DistillerWorld σ) KeepsWindows := ⟨fun _ _ _ h h' => h'.trans h⟩

/-- Distilling leaves them alone. -/
theorem keepsWindows_kept (D : PaymentDistiller σ) : KeptByDistilling D KeepsWindows where
  notes _ hf := .write fun w => (hf w.state).2.2
  asked _ _ := rfl
  stored _ _ _ := .attempt fun _ => rfl

theorem promote_keepsWindows (D : PaymentDistiller σ) : Moves KeepsWindows D.promote :=
  promote_moves (keepsWindows_kept D).notes fun _ => .attempt fun _ => rfl

/-! ## Windows and firings along a stream -/

section Stream

variable {D : PaymentDistiller σ} {w v : DistillerWorld σ} {case : SyntheticCase}
  {ev : String × Int → List Bool}

/-- A version fires if its row is ACTIVE and matches; the outcome is that of the case. -/
theorem fired_row {id : String × Int} {rows : List RuleRow} {recovered : Bool}
    (h : fired id rows case = some recovered) : case.control = false ∧
      (∃ row ∈ rows, row.status = RuleStatus.active.value ∧ ruleId row = id ∧
        ∃ rule, acceptedRule paymentRuleSchema row = some rule ∧
          evaluate rule case.observableContext = true) ∧
      ∃ action, process rows case = .ok ⟨.deterministic, action, recovered⟩ := by
  unfold fired at h
  split at h
  · cases h
  rename_i hcontrol
  split at h
  · cases h
  rename_i decision hroute
  split at h
  · rename_i hid
    injection h with h
    unfold route at hroute
    obtain ⟨loaded, hloaded, hroute⟩ := bind_ok hroute
    cases hfind : loaded.find? fun l => evaluate l.rule case.observableContext with
    | none =>
      rw [hfind] at hroute
      injection hroute with hroute
      rw [← hroute] at hid
      cases hid.1
    | some l =>
      rw [hfind] at hroute
      injection hroute with hdecision
      have hexact := loaded_exact
        (show listByStatus paymentRuleSchema .active rows = .ok loaded from hloaded)
      obtain ⟨row, hrow, hfrom⟩ := forall₂_mem hexact.flip (List.mem_of_find?_eq_some hfind)
      have hfrom : LoadedFrom paymentRuleSchema row l := hfrom
      obtain ⟨hmem, hstatus⟩ := mem_rowsOf.mp (List.mem_of_mem_filter hrow)
      refine ⟨by simpa using hcontrol, ⟨row, hmem, hstatus, ?_, l.rule, hfrom.rule, ?_⟩,
        decision.action, ?_⟩
      · rw [← hfrom.id]
        rw [← hdecision] at hid
        exact Prod.ext (Option.some.inj hid.1) (Option.some.inj hid.2)
      · exact List.find?_some (p := fun l : LoadedRule => evaluate l.rule case.observableContext)
          hfind
      · unfold process route
        rw [if_neg hcontrol, hloaded]
        simp only [Bind.bind, Except.bind, hfind]
        rw [← h, ← hdecision]
        rfl
  · cases h

/-- Nothing fires before it is ACTIVE. -/
theorem not_fired_shadow {id : String × Int} {rows : List RuleRow}
    (h : ∀ row ∈ rows, ruleId row = id → row.status = RuleStatus.shadow.value) :
    fired id rows case = none := by
  cases hfired : fired id rows case with
  | none => rfl
  | some recovered =>
    obtain ⟨_, ⟨row, hrow, hactive, hid, _⟩, _⟩ := fired_row hfired
    rw [h row hrow hid] at hactive
    cases RuleStatus.value_injective hactive

/-- What fires resolves the case, with the outcome that is recorded. -/
theorem fired_recorded {id : String × Int} {rows : List RuleRow} {recovered : Bool}
    {record : Record} (hrecord : process rows case = .ok record)
    (h : fired id rows case = some recovered) :
    record.path = .deterministic ∧ record.recovered = recovered := by
  obtain ⟨_, _, action, hprocess⟩ := fired_row h
  rw [hrecord] at hprocess
  injection hprocess with hprocess
  rw [hprocess]
  exact ⟨rfl, rfl⟩

/-- A control case is recorded as one. -/
theorem recorded_control {rows : List RuleRow} {record : Record}
    (hrecord : process rows case = .ok record) (hcontrol : record.path ≠ .control) :
    case.control = false := by
  cases hcase : case.control with
  | false => rfl
  | true =>
    unfold process at hrecord
    rw [if_pos hcase] at hrecord
    injection hrecord with hrecord
    rw [← hrecord] at hcontrol
    exact absurd rfl hcontrol

section Observed

variable {ls : List LoadedRule} {record : Record} {row : RuleRow} {rule : Rule}

/-- The window of an ACTIVE version is pushed if it fires, and only then. -/
theorem OwnFirings.pushed (hown : OwnFirings D w case) (hschema : D.schema = paymentRuleSchema)
    (hunique : UniqueRules w.rows) (hls : D.distilledRules [.shadow, .active] w.rows = .ok ls)
    (hrecord : process w.rows case = .ok record) (hlive : case.control = false)
    (hrow : row ∈ w.rows) (hactive : row.status = RuleStatus.active.value)
    (hdistilled : DistilledRow D.schema row rule) (n : Nat) (outcomes : List Bool) :
    ((ls.filter fun l => l.status = RuleStatus.active.value).filter
      (hits row.ruleKey case.observableContext)).foldl
        (fun window _ => pushWindow n window record.recovered) (lastOf n outcomes) =
      lastOf n (outcomes ++ (fired (ruleId row) w.rows case).toList) := by
  have hobserved := hown.observed ls hlive hls
  obtain ⟨l, hl, hfrom⟩ := distilled_of_row hls hrow (List.mem_cons_of_mem _ List.mem_cons_self)
    hactive hdistilled
  have hlactive : l.status = RuleStatus.active.value := hfrom.status.trans hactive
  have hrule : l.rule = rule := by
    have hsome := hfrom.rule
    rw [hdistilled.rule] at hsome
    exact (Option.some.inj hsome).symm
  have hnodup : ((ls.filter fun l => l.status = RuleStatus.active.value).map
      LoadedRule.id).Nodup :=
    (distilledRules_nodup hunique (by decide) hls).sublist (List.filter_sublist.map _)
  have halone : ∀ l' ∈ ls.filter fun l => l.status = RuleStatus.active.value,
      l'.ruleKey = l.ruleKey → evaluate l'.rule case.observableContext = true →
        l'.version = l.version := by
    intro l' hl' hkey hmatch
    obtain ⟨hmem, hlactive'⟩ := List.mem_filter.mp hl'
    exact (hobserved l' hmem (of_decide_eq_true hlactive') hmatch).2 l hl hlactive hkey.symm
  rw [← hfrom.ruleKey,
    filter_hits hnodup (List.mem_filter.mpr ⟨hl, decide_eq_true hlactive⟩) halone]
  by_cases hmatch : evaluate l.rule case.observableContext = true
  · -- it matches, so it fired
    obtain ⟨hfired, _⟩ := hobserved l hl hlactive hmatch
    rw [hfrom.id] at hfired
    obtain ⟨recovered, hfired⟩ := Option.isSome_iff_exists.mp hfired
    rw [if_pos hmatch, hfired, (fired_recorded hrecord hfired).2]
    exact pushWindow_lastOf _ _ _
  · rw [if_neg hmatch]
    cases hfired : fired (ruleId row) w.rows case with
    | none => simp
    | some recovered =>
      obtain ⟨_, ⟨row', hrow', _, hid', rule', hrule', hmatch'⟩, _⟩ := fired_row hfired
      have hsame : row' = row := List.inj_on_of_nodup_map hunique hrow' hrow hid'
      rw [hsame, ← hschema, hdistilled.rule] at hrule'
      rw [hrule, Option.some.inj hrule'] at hmatch
      exact absurd hmatch' hmatch

/-- The window of two ACTIVE versions is not pushed: a case that one of them matched would have to
be the own one of both. -/
theorem OwnFirings.unpushed (hown : OwnFirings D w case)
    (hls : D.distilledRules [.shadow, .active] w.rows = .ok ls) (hlive : case.control = false)
    {row' : RuleRow} {rule' : Rule} (hrow : row ∈ w.rows) (hrow' : row' ∈ w.rows)
    (hactive : row.status = RuleStatus.active.value)
    (hactive' : row'.status = RuleStatus.active.value) (hkey : row.ruleKey = row'.ruleKey)
    (hid : ruleId row ≠ ruleId row') (hdistilled : DistilledRow D.schema row rule)
    (hdistilled' : DistilledRow D.schema row' rule') :
    (ls.filter fun l => l.status = RuleStatus.active.value).filter
      (hits row.ruleKey case.observableContext) = [] := by
  have hin : RuleStatus.active ∈ [RuleStatus.shadow, .active] :=
    List.mem_cons_of_mem _ List.mem_cons_self
  obtain ⟨l, hl, hfrom⟩ := distilled_of_row hls hrow hin hactive hdistilled
  obtain ⟨l', hl', hfrom'⟩ := distilled_of_row hls hrow' hin hactive' hdistilled'
  refine List.filter_eq_nil_iff.mpr fun s hs hhit => hid ?_
  obtain ⟨hmem, hsactive⟩ := List.mem_filter.mp hs
  rw [hits, Bool.and_eq_true, decide_eq_true_iff] at hhit
  obtain ⟨_, halone⟩ := hown.observed ls hlive hls s hmem (of_decide_eq_true hsactive) hhit.2
  have hversion := halone l hl (hfrom.status.trans hactive) (hfrom.ruleKey.trans hhit.1.symm)
  have hversion' := halone l' hl' (hfrom'.status.trans hactive')
    ((hfrom'.ruleKey.trans hkey.symm).trans hhit.1.symm)
  refine Prod.ext hkey ?_
  show row.version = row'.version
  rw [← hfrom.version, ← hfrom'.version, ← hversion, ← hversion']

end Observed

/-- The window of every ACTIVE version is its last firings. Nothing fires before it is ACTIVE, and
what several ACTIVE versions share is not in use. -/
structure Windowed (D : PaymentDistiller σ) (ev : String × Int → List Bool) (w : DistillerWorld σ) :
    Prop where
  unique : UniqueRules w.rows
  bounded : Bounded D w
  unfired : ∀ id, (∀ row ∈ w.rows, ruleId row = id → row.status = RuleStatus.shadow.value) →
    ev id = []
  window : ∀ row ∈ w.rows, row.status = RuleStatus.active.value →
    ∀ rule, DistilledRow D.schema row rule →
      windowOf w row.ruleKey = lastOf D.demotion.minRecent.toNat (ev (ruleId row))
  shared : ∀ row ∈ w.rows, ∀ row' ∈ w.rows, row.status = RuleStatus.active.value →
    row'.status = RuleStatus.active.value → row.ruleKey = row'.ruleKey →
    ruleId row ≠ ruleId row' → ∀ rule rule', DistilledRow D.schema row rule →
      DistilledRow D.schema row' rule' → windowOf w row.ruleKey = []

/-- Handling a case pushes the windows of the versions that fire, and of no others. -/
theorem Windowed.handled (h : Windowed D ev w) (hschema : D.schema = paymentRuleSchema)
    (hown : OwnFirings D w case) (hrun : (handleCase D case).run w = (.ok (), v)) :
    Windowed D (fun id => ev id ++ (fired id w.rows case).toList) v := by
  obtain ⟨record, hrecord, hrows, ⟨hcontrol, rfl⟩ | ⟨hcontrol, hrun⟩⟩ := handleCase_run hrun
  · -- a control case is neither routed nor observed
    have hnone : ∀ id, fired id v.rows case = none := by
      intro id
      cases hfired : fired id v.rows case with
      | none => rfl
      | some recovered =>
        rw [(fired_recorded hrecord hfired).1] at hcontrol
        cases hcontrol
    simp only [hnone, Option.toList_none, List.append_nil]
    exact h
  · obtain ⟨ls, hls, hwindows, hbounded⟩ := observe_window hrun
    have hlive := recorded_control hrecord hcontrol
    refine ⟨hrows ▸ h.unique, hbounded h.bounded, fun id hid => ?_,
      fun row hrow hactive rule hdistilled => ?_,
      fun a ha b hb hactive hactive' hkey hid rule rule' hdistilled hdistilled' => ?_⟩
    · rw [hrows] at hid
      rw [h.unfired id hid, not_fired_shadow hid]
      rfl
    · rw [hrows] at hrow
      rw [hwindows row.ruleKey, h.window row hrow hactive rule hdistilled]
      exact hown.pushed hschema h.unique hls hrecord hlive hrow hactive hdistilled _ _
    · rw [hrows] at ha hb
      rw [hwindows a.ruleKey,
        hown.unpushed hls hlive ha hb hactive hactive' hkey hid hdistilled hdistilled']
      exact h.shared a ha b hb hactive hactive' hkey hid rule rule' hdistilled hdistilled'

theorem KeepsWindows.windowOf (h : KeepsWindows w v) (key : String) :
    windowOf v key = windowOf w key := by
  unfold Evals.windowOf
  rw [show v.state.recent = w.state.recent from h]

/-- Distilling adds versions in SHADOW. -/
theorem Windowed.created (h : Windowed D ev w) (hcreates : Creates w v)
    (hkeeps : KeepsWindows w v) : Windowed D ev v := by
  obtain ⟨added, hadded, _⟩ := hcreates.rows
  refine ⟨hcreates.unique h.unique, fun key window hkey => h.bounded key window (hkeeps ▸ hkey),
    fun id hid => h.unfired id fun row hrow => hid row ?_,
    fun row hrow hactive rule hdistilled => ?_,
    fun a ha b hb hactive hactive' hkey hid rule rule' hdistilled hdistilled' => ?_⟩
  · rw [hadded]
    exact List.mem_append_left _ hrow
  · rw [hkeeps.windowOf]
    exact h.window row (hcreates.active hrow hactive) hactive rule hdistilled
  · rw [hkeeps.windowOf]
    exact h.shared a (hcreates.active ha hactive) b (hcreates.active hb hactive') hactive hactive'
      hkey hid rule rule' hdistilled hdistilled'

/-- What `promote` moves has not fired, and finds its window not in use. -/
theorem Windowed.promoted (h : Windowed D ev w)
    (hpromoted : ∀ row, D.Promotes w row → windowOf w row.ruleKey = []) :
    Windowed D ev (D.promote.run w).2 := by
  have hrows := promote_rows (D := D) h.unique
  have hkeeps : KeepsWindows w (D.promote.run w).2 := promote_keepsWindows D w
  -- an ACTIVE row was ACTIVE before, or is one that `promote` moved
  have hcases : ∀ row ∈ (D.promote.run w).2.rows,
      row ∈ w.rows ∨ ∃ old, D.Promotes w old ∧ ruleId old = ruleId row := by
    intro row hrow
    obtain ⟨old, hold, hmoved⟩ := forall₂_mem hrows.flip hrow
    rcases hmoved with rfl | ⟨hpromotes, provenance, rfl⟩
    · exact .inl hold
    · exact .inr ⟨old, hpromotes, rfl⟩
  have hnew : ∀ row old, D.Promotes w old → ruleId old = ruleId row →
      windowOf w row.ruleKey = [] := by
    intro row old hpromotes hid
    rw [← show old.ruleKey = row.ruleKey from congrArg Prod.fst hid]
    exact hpromoted old hpromotes
  refine ⟨promote_staysUnique D w h.unique,
    fun key window hkey => h.bounded key window (hkeeps ▸ hkey),
    fun id hid => h.unfired id fun row hrow hrowId => ?_,
    fun row hrow hactive rule hdistilled => ?_,
    fun a ha b hb hactive hactive' hkey hid rule rule' hdistilled hdistilled' => ?_⟩
  · obtain ⟨row', hrow', hmoved⟩ := forall₂_mem hrows hrow
    rcases hmoved with rfl | ⟨hpromotes, _⟩
    · exact hid row' hrow' hrowId
    · exact hpromotes.shadow
  · rw [hkeeps.windowOf]
    rcases hcases row hrow with hold | ⟨old, hpromotes, hid⟩
    · exact h.window row hold hactive rule hdistilled
    · have hunfired : ev (ruleId row) = [] := by
        refine h.unfired _ fun other hother hother' => ?_
        rw [List.inj_on_of_nodup_map h.unique hother hpromotes.mem (hother'.trans hid.symm)]
        exact hpromotes.shadow
      rw [hnew row old hpromotes hid, hunfired]
      exact (List.drop_nil).symm
  · rw [hkeeps.windowOf]
    rcases hcases a ha with holda | ⟨old, hpromotes, hold⟩
    · rcases hcases b hb with holdb | ⟨old, hpromotes, hold⟩
      · exact h.shared a holda b holdb hactive hactive' hkey hid rule rule' hdistilled hdistilled'
      · rw [hkey]
        exact hnew b old hpromotes hold
    · exact hnew a old hpromotes hold

/-! ### Demoting -/

/-- `demote` leaves a rule alone, or moves it to DEMOTED on its window and clears this. -/
theorem demoteOne_cases (D : PaymentDistiller σ) (l : LoadedRule) (w : DistillerWorld σ) :
    (((D.demoteOne l).run w).2.rows = w.rows ∧
      ((D.demoteOne l).run w).2.state.recent = w.state.recent) ∨
    ∃ window provenance, w.state.recent.get? l.ruleKey = some window ∧
      shouldDemote D.sqrt (window.countP id) window.length D.demotion = true ∧
      ((D.demoteOne l).run w).2.rows = updateBy ruleId l.id (fun row =>
        { row with status := RuleStatus.demoted.value, provenanceJson := provenance }) w.rows ∧
      ((D.demoteOne l).run w).2.state.recent = w.state.recent.set l.ruleKey [] := by
  unfold PaymentDistiller.demoteOne
  rw [run_bind, run_read]
  dsimp only
  cases hwindow : w.state.recent.get? l.ruleKey with
  | none => exact .inl ⟨rfl, rfl⟩
  | some window =>
    dsimp only
    by_cases hdemote : shouldDemote D.sqrt (window.countP id) window.length D.demotion = true
    · rw [if_pos hdemote]
      unfold PaymentDistiller.moveTo setStatus
      rw [run_bind, run_attempt]
      cases selectBy ruleId (l.ruleKey, l.version) w.rows with
      | none => exact .inl ⟨rfl, rfl⟩
      | some row =>
        dsimp only
        split
        · rename_i answer v heq
          split at heq
          · injection heq with heq
            cases heq
          · rename_i provenance _
            injection heq with _ hv
            subst hv
            exact .inr ⟨window, provenance, rfl, hdemote, rfl, rfl⟩
        · rename_i exc v heq
          split at heq
          · injection heq with _ hv
            subst hv
            exact .inl ⟨rfl, rfl⟩
          · injection heq with heq
            cases heq
    · rw [if_neg hdemote]
      exact .inl ⟨rfl, rfl⟩

theorem Windowed.congr (h : Windowed D ev w) (hrows : v.rows = w.rows)
    (hkeeps : KeepsWindows w v) : Windowed D ev v := by
  refine ⟨hrows ▸ h.unique, fun key window hkey => h.bounded key window (hkeeps ▸ hkey), ?_, ?_, ?_⟩
  · rw [hrows]
    exact h.unfired
  · simp only [hrows, hkeeps.windowOf]
    exact h.window
  · simp only [hrows, hkeeps.windowOf]
    exact h.shared

/-- The gate of `demote` on a window that holds the last firings. -/
theorem judged_of_shouldDemote {sqrt : ℚ → ℚ} {policy : DemotionPolicy ℚ} {outcomes : List Bool}
    (hbound : 0 ≤ policy.minRecent)
    (h : shouldDemote sqrt ((lastOf policy.minRecent.toNat outcomes).countP id)
      (lastOf policy.minRecent.toNat outcomes).length policy = true) :
    JudgedByFirings sqrt policy outcomes := by
  unfold shouldDemote at h
  split at h
  · cases h
  · rename_i hrecent
    have hlength := length_lastOf policy.minRecent.toNat outcomes
    exact ⟨by omega, of_decide_eq_true h⟩

/-- A row may go to DEMOTED on the firings of its version. -/
def Judged (D : PaymentDistiller σ) (ev : String × Int → List Bool) (id : String × Int)
    (status : RuleStatus) : Prop :=
  status = .demoted ∧ JudgedByFirings D.sqrt D.demotion (ev id)

/-- The rule is what an ACTIVE row holds. -/
def Standing (D : PaymentDistiller σ) (w : DistillerWorld σ) (l : LoadedRule) : Prop :=
  ∃ row ∈ w.rows, row.status = RuleStatus.active.value ∧ LoadedFrom D.schema row l ∧
    DistilledRow D.schema row l.rule

/-- A row that is ACTIVE after one has gone to DEMOTED is as it was, and is another one. -/
theorem active_of_updateBy_demoted {id : String × Int} {provenance : JsonText} {rows : List RuleRow}
    {row : RuleRow} (hrow : row ∈ updateBy ruleId id (fun row =>
      { row with status := RuleStatus.demoted.value, provenanceJson := provenance }) rows)
    (hactive : row.status = RuleStatus.active.value) : row ∈ rows ∧ ruleId row ≠ id := by
  obtain ⟨old, hmem, rfl⟩ := mem_updateBy hrow
  split at hactive
  · have hstatus : RuleStatus.demoted.value = RuleStatus.active.value := hactive
    cases RuleStatus.value_injective hstatus
  · rename_i hother
    rw [if_neg hother]
    exact ⟨hmem, hother⟩

/-- One rule: if it is demoted, then on its own firings; and the rest is as it was. -/
theorem Windowed.demotedOne (h : Windowed D ev w) {l : LoadedRule} (hl : Standing D w l) :
    Windowed D ev ((D.demoteOne l).run w).2 ∧
      Moved (fun id status => id = l.id ∧ Judged D ev id status) w.rows
        ((D.demoteOne l).run w).2.rows := by
  rcases demoteOne_cases D l w with ⟨hrows, hrecent⟩ |
    ⟨window, provenance, hget, hdemote, hrows, hrecent⟩
  · refine ⟨h.congr hrows hrecent, ?_⟩
    rw [hrows]
    exact .refl w.rows
  obtain ⟨row, hrow, hactive, hfrom, hdistilled⟩ := hl
  generalize ((D.demoteOne l).run w).2 = w' at hrows hrecent ⊢
  have hwindow : windowOf w l.ruleKey = window := by
    unfold windowOf
    rw [hget]
    rfl
  have hlast := h.window row hrow hactive l.rule hdistilled
  rw [← hfrom.ruleKey, hwindow, ← hfrom.id] at hlast
  have hjudged : JudgedByFirings D.sqrt D.demotion (ev l.id) :=
    judged_of_shouldDemote (h.bounded _ _ hget) (hlast ▸ hdemote)
  have hmoved : Moved (fun id status => id = l.id ∧ Judged D ev id status) w.rows w'.rows := by
    rw [hrows]
    exact moved_updateBy provenance ⟨rfl, rfl, hjudged⟩
  refine ⟨?_, hmoved⟩
  have hold : ∀ a ∈ w'.rows, a.status = RuleStatus.active.value →
      a ∈ w.rows ∧ ruleId a ≠ ruleId row :=
    fun a ha hactive' => hfrom.id ▸ active_of_updateBy_demoted (hrows ▸ ha) hactive'
  -- the window of a row that is ACTIVE still was not in use if it is cleared
  have hkept : ∀ a ∈ w'.rows, a.status = RuleStatus.active.value →
      ∀ rule, DistilledRow D.schema a rule → windowOf w' a.ruleKey = windowOf w a.ruleKey := by
    intro a ha hactive' rule hdistilled'
    obtain ⟨hmem, hother⟩ := hold a ha hactive'
    unfold windowOf
    rw [hrecent, Dict.get?_set]
    by_cases hkey : a.ruleKey = l.ruleKey
    · rw [if_pos hkey]
      exact (h.shared a hmem row hrow hactive' hactive (hkey.trans hfrom.ruleKey) hother rule l.rule
        hdistilled' hdistilled).symm
    · rw [if_neg hkey]
  refine ⟨hmoved.unique h.unique, fun key window' hkey => ?_,
    fun id hid => h.unfired id fun a ha haId => ?_, fun a ha hactive' rule hdistilled' => ?_,
    fun a ha b hb hactive' hactive'' hkey hid rule rule' hdistilled' hdistilled'' => ?_⟩
  · rw [hrecent, Dict.get?_set] at hkey
    split at hkey
    · exact h.bounded _ _ hget
    · exact h.bounded key window' hkey
  · obtain ⟨a', ha', hmove⟩ := forall₂_mem hmoved ha
    have hshadow := hid a' ha' (hmove.ruleId.trans haId)
    rcases hmove with rfl | ⟨status, provenance', ⟨_, rfl, _⟩, rfl⟩
    · exact hshadow
    · have hstatus : RuleStatus.demoted.value = RuleStatus.shadow.value := hshadow
      cases RuleStatus.value_injective hstatus
  · rw [hkept a ha hactive' rule hdistilled']
    exact h.window a (hold a ha hactive').1 hactive' rule hdistilled'
  · rw [hkept a ha hactive' rule hdistilled']
    exact h.shared a (hold a ha hactive').1 b (hold b hb hactive'').1 hactive' hactive'' hkey hid
      rule rule' hdistilled' hdistilled''

/-- The loop of `demote`, by induction on the rules that are left: each still stands. -/
theorem Windowed.demotedAll {ls : List LoadedRule} (hls : ∀ l ∈ ls, Standing D w l)
    (hnodup : (ls.map LoadedRule.id).Nodup) (h : Windowed D ev w) :
    Windowed D ev ((D.demoteAll ls).run w).2 ∧
      Moved (Judged D ev) w.rows ((D.demoteAll ls).run w).2.rows := by
  induction ls generalizing w with
  | nil => exact ⟨h, .refl w.rows⟩
  | cons l rest ih =>
    obtain ⟨hl, hrest⟩ := List.forall_mem_cons.mp hls
    rw [List.map_cons, List.nodup_cons] at hnodup
    obtain ⟨hfirst, hmoved⟩ := h.demotedOne hl
    have hmoved' := hmoved.mono fun _ _ hjudged => hjudged.2
    unfold PaymentDistiller.demoteAll
    rw [run_bind]
    cases hrun : (D.demoteOne l).run w with
    | mk answer v =>
      rw [hrun] at hfirst hmoved hmoved'
      cases answer with
      | error exc => exact ⟨hfirst, hmoved'⟩
      | ok _ =>
        have hstanding : ∀ s ∈ rest, Standing D v s := by
          intro s hs
          obtain ⟨row, hrow, hactive, hfrom, hdistilled⟩ := hrest s hs
          obtain ⟨row', hrow', hmove⟩ := forall₂_mem hmoved hrow
          rcases hmove with rfl | ⟨status, provenance, ⟨hid, _⟩, rfl⟩
          · exact ⟨row', hrow', hactive, hfrom, hdistilled⟩
          · refine absurd (List.mem_map.mpr ⟨s, hs, ?_⟩) hnodup.1
            rw [hfrom.id, hid]
        obtain ⟨hlast, hmoved''⟩ := ih hstanding hnodup.2 hfirst
        exact ⟨hlast, hmoved'.trans hmoved''⟩

/-- What `demote` moves it moves on the firings of the version. -/
theorem Windowed.demoted (h : Windowed D ev w) :
    Windowed D ev (D.demote.run w).2 ∧ Moved (Judged D ev) w.rows (D.demote.run w).2.rows := by
  unfold PaymentDistiller.demote
  rw [run_bind, run_attempt]
  cases hls : D.distilledRules [.active] w.rows with
  | error exc => exact ⟨h, .refl w.rows⟩
  | ok ls =>
    refine h.demotedAll (fun l hl => ?_) (distilledRules_nodup h.unique (List.nodup_singleton _) hls)
    obtain ⟨row, hrow, ⟨status, hstatus, hactive⟩, hfrom, hdistilled⟩ := row_of_distilled hls hl
    rw [List.mem_singleton.mp hstatus] at hactive
    exact ⟨row, hrow, hactive, hfrom, hdistilled⟩

/-- One turn as far as `demote`. -/
theorem Windowed.before {due : Bool} {mid : DistillerWorld σ} (h : Windowed D ev w)
    (hschema : D.schema = paymentRuleSchema) (hown : OwnFirings D w case)
    (hrun : (beforeDemote D case).run w = (.ok due, mid)) :
    Windowed D (fun id => ev id ++ (fired id w.rows case).toList) mid := by
  unfold beforeDemote at hrun
  obtain ⟨due', before, hbefore, hrun⟩ := run_bind_ok hrun
  have hpromoted := hown.promoted before
  have hwindowed : Windowed D (fun id => ev id ++ (fired id w.rows case).toList) before := by
    unfold beforePromote at hbefore
    obtain ⟨_, w₁, hhandle, hdue⟩ := run_bind_ok hbefore
    have hcreates := dueToPromote_creates (D := D) (case.index + 1) w₁
    have hkeeps := (keepsWindows_kept D).dueToPromote (case.index + 1) w₁
    rw [hdue] at hcreates hkeeps
    exact (h.handled hschema hown hhandle).created hcreates hkeeps
  cases due' with
  | false =>
    injection hrun with _ hmid
    exact hmid ▸ hwindowed
  | true =>
    rw [if_pos rfl] at hrun
    obtain ⟨_, v, hpromote, hrun⟩ := run_bind_ok hrun
    injection hrun with _ hmid
    subst hmid
    have hafter := hwindowed.promoted (hpromoted hbefore)
    rw [hpromote] at hafter
    exact hafter

/-- One whole turn. -/
theorem Windowed.turn (h : Windowed D ev w) (hschema : D.schema = paymentRuleSchema)
    (hown : OwnFirings D w case) (hrun : (runCase D case).run w = (.ok (), v)) :
    Windowed D (fun id => ev id ++ (fired id w.rows case).toList) v := by
  rw [runCase_demote] at hrun
  split at hrun
  · rename_i mid hmid
    have hdemoted := (h.before hschema hown hmid).demoted.1
    rw [hrun] at hdemoted
    exact hdemoted
  · rename_i w₁ hmid
    injection hrun with _ hv
    exact hv ▸ h.before hschema hown hmid
  · injection hrun with hrun
    cases hrun

end Stream

/-- **Demotion soundness.** Over every stream on which the ACTIVE versions keep their windows to
themselves, from every rule store and a new distiller: what `demote` moves to DEMOTED was ACTIVE
for enough cases that the router resolved with it, and did not recover enough of the last. -/
theorem demotion_judged (D : PaymentDistiller σ) (w v mid : DistillerWorld σ)
    (cases : List SyntheticCase) (case : SyntheticCase) (row : RuleRow)
    (hschema : D.schema = paymentRuleSchema) (hunique : UniqueRules w.rows)
    (hnew : w.state.recent = .empty)
    (hrun : (runEvalDistilled D cases).run w = (.ok (), v))
    (hown : Run.Along (fun case => (runCase D case).run) (OwnFirings D) cases w)
    (hlast : OwnFirings D v case)
    (hcall : (beforeDemote D case).run v = (.ok true, mid))
    (hdemotes : Demotes D mid row) :
    JudgedByFirings D.sqrt D.demotion (firings D (ruleId row) (cases ++ [case]) w) := by
  have hstart : Windowed D (fun _ => []) w := by
    have hempty : ∀ key, windowOf w key = [] := by
      intro key
      unfold windowOf
      rw [hnew]
      rfl
    refine ⟨hunique, fun key window hkey => ?_, fun _ _ => rfl, fun row _ _ rule _ => ?_,
      fun a _ b _ _ _ _ _ _ _ _ _ => hempty _⟩
    · rw [hnew] at hkey
      cases hkey
    · rw [hempty]
      exact (List.drop_nil).symm
  have hstream : Windowed D (fun id => [] ++ firings D id cases w) v :=
    gathered_stream (fun _ _ _ _ h hhere hrun => h.turn hschema hhere hrun) hstart hown hrun
  have hmid := hstream.before hschema hlast hcall
  obtain ⟨row', hrow', hid, hdemoted⟩ := hdemotes.demoted
  obtain ⟨old, hold, hmoved⟩ := hmid.demoted.2.origin hrow'
  have hsame : old = row :=
    List.inj_on_of_nodup_map hmid.unique hold hdemotes.mem (hmoved.ruleId.symm.trans hid)
  subst hsame
  rcases hmoved with rfl | ⟨status, provenance, ⟨_, hjudged⟩, rfl⟩
  · rw [hdemotes.active] at hdemoted
    cases RuleStatus.value_injective hdemoted
  · have hlater : firings D (ruleId old) (cases ++ [case]) w =
        firings D (ruleId old) cases w ++ (fired (ruleId old) v.rows case).toList :=
      gathered_snoc _ hrun
    rw [hlater]
    exact hjudged

/-! ## Two streams -/

/-- A case that does not recover. -/
def Sample.lost (index : Nat) : SyntheticCase :=
  { Sample.case index with recovered := fun _ => false }

/-- From a look at the tables before and after `demote`. -/
theorem Sample.demotes (D : PaymentDistiller Unit) (mid : DistillerWorld Unit)
    (id : String × Int)
    (hbefore : (id, "active") ∈ mid.rows.map fun row => (ruleId row, row.status))
    (hafter : (id, "demoted") ∈ (D.demote.run mid).2.rows.map fun row => (ruleId row, row.status)) :
    ∃ row, Demotes D mid row ∧ ruleId row = id := by
  obtain ⟨row, hrow, hactive⟩ := List.mem_map.mp hbefore
  obtain ⟨row', hrow', hdemoted⟩ := List.mem_map.mp hafter
  injection hactive with hid hactive
  injection hdemoted with hid' hdemoted
  exact ⟨row, ⟨hrow, hactive, row', hrow', hid'.trans hid.symm, hdemoted⟩, hid⟩

/-- An ACTIVE rule for amounts below 2000, and a seed rule for invalid details. -/
def Sample.standing : DistillerWorld Unit :=
  Sample.store [Sample.linkRow "distilled:failure_reason=network_error" "active" "distilled",
    seedRow "seed-invalid-details-resend-link" 20 "invalid_details" "send_payment_link"
      "2026-01-01T00:00:00+00:00"]

/-- Every fifth case is a large amount with invalid details, and after fifteen none recovers. -/
def Sample.worsening (index : Nat) : SyntheticCase :=
  { Sample.case index with
    failureReason := if index % 5 = 4 then "invalid_details" else "network_error"
    amountInr := if index % 5 = 4 then 5000 else 500
    recovered := fun _ => index < 15 }

/-- The worlds after 49 cases, and as `demote` meets the next. -/
def Sample.worsened : DistillerWorld Unit :=
  Recovery.Sample.left (runEvalDistilled Recovery.Sample.distiller
    ((List.range 49).map Sample.worsening)) Sample.standing

def Sample.judged : DistillerWorld Unit :=
  Recovery.Sample.left (beforeDemote Recovery.Sample.distiller (Sample.worsening 49))
    Sample.worsened

/-- The stream returns, every rule keeps its window to itself, and the last case comes to
`demote`. -/
theorem Sample.worsens :
    ((runEvalDistilled Recovery.Sample.distiller ((List.range 49).map Sample.worsening)).run
      Sample.standing).1.toOption = some () ∧
    Run.Along (fun case => (runCase Recovery.Sample.distiller case).run)
      (OwnFirings Recovery.Sample.distiller) ((List.range 49).map Sample.worsening)
      Sample.standing ∧
    OwnFirings Recovery.Sample.distiller Sample.worsened (Sample.worsening 49) ∧
    ((beforeDemote Recovery.Sample.distiller (Sample.worsening 49)).run
      Sample.worsened).1.toOption = some true ∧
    (("distilled:failure_reason=network_error", 1), "active") ∈
      Sample.judged.rows.map (fun row => (ruleId row, row.status)) ∧
    (("distilled:failure_reason=network_error", 1), "demoted") ∈
      (Recovery.Sample.distiller.demote.run Sample.judged).2.rows.map
        fun row => (ruleId row, row.status) := by
  decide +kernel

/-- The window is not full at the 25th case; at the 50th the rule is demoted, for three of its
last thirty cases. -/
theorem demotion_judged_sample :
    JudgedByFirings Recovery.Sample.sqrt Recovery.Sample.distiller.demotion
      (firings Recovery.Sample.distiller ("distilled:failure_reason=network_error", 1)
        ((List.range 49).map Sample.worsening ++ [Sample.worsening 49]) Sample.standing) := by
  obtain ⟨hrun, hown, hlast, hcall, hbefore, hafter⟩ := Sample.worsens
  obtain ⟨row, hdemotes, hid⟩ := Sample.demotes Recovery.Sample.distiller Sample.judged
    ("distilled:failure_reason=network_error", 1) hbefore hafter
  have hunique : UniqueRules Sample.standing.rows := by
    show (Sample.standing.rows.map ruleId).Nodup
    decide
  have h := demotion_judged Recovery.Sample.distiller Sample.standing Sample.worsened Sample.judged
    ((List.range 49).map Sample.worsening) (Sample.worsening 49) row rfl hunique rfl
    (Recovery.Sample.returned_left hrun) hown hlast (Recovery.Sample.returned_left hcall) hdemotes
  rw [hid] at h
  exact h

/-- A rule in SHADOW beside a seed rule of a smaller priority number for the same cases. -/
def Sample.outranked : DistillerWorld Unit :=
  Sample.store [{ Sample.linkRow "seed:small_amounts" "active" "seed" with priority := 10 },
    Sample.linkRow "distilled:failure_reason=network_error" "shadow" "distilled"]

/-- Fifty cases that recover, and then forty-nine that do not. -/
def Sample.drifting : List SyntheticCase :=
  (List.range 50).map Sample.case ++ (List.range 49).map fun i => Sample.lost (i + 50)

/-- The seed rule resolves them all: the other rule is promoted on the first and demoted on the
last, and has not fired once. -/
theorem demoted_without_firing :
    UniqueRules Sample.outranked.rows ∧
    ∃ v mid row, (runEvalDistilled Recovery.Sample.distiller Sample.drifting).run
        Sample.outranked = (.ok (), v) ∧
      (beforeDemote Recovery.Sample.distiller (Sample.lost 99)).run v = (.ok true, mid) ∧
      Demotes Recovery.Sample.distiller mid row ∧
      ¬ JudgedByFirings Recovery.Sample.sqrt Recovery.Sample.distiller.demotion
        (firings Recovery.Sample.distiller (ruleId row) (Sample.drifting ++ [Sample.lost 99])
          Sample.outranked) := by
  have hrun := Recovery.Sample.returned
    (p := runEvalDistilled Recovery.Sample.distiller Sample.drifting)
    (w := Sample.outranked) (a := ()) (by decide +kernel)
  have hcall := Recovery.Sample.returned
    (p := beforeDemote Recovery.Sample.distiller (Sample.lost 99))
    (w := ((runEvalDistilled Recovery.Sample.distiller Sample.drifting).run Sample.outranked).2)
    (a := true) (by decide +kernel)
  obtain ⟨row, hdemotes, hid⟩ := Sample.demotes Recovery.Sample.distiller
    ((beforeDemote Recovery.Sample.distiller (Sample.lost 99)).run
      ((runEvalDistilled Recovery.Sample.distiller Sample.drifting).run Sample.outranked).2).2
    ("distilled:failure_reason=network_error", 1) (by decide +kernel) (by decide +kernel)
  refine ⟨by unfold UniqueRules; decide +kernel, _, _, row, hrun, hcall, hdemotes,
    fun hjudged => ?_⟩
  have hnone : (firings Recovery.Sample.distiller ("distilled:failure_reason=network_error", 1)
      (Sample.drifting ++ [Sample.lost 99]) Sample.outranked).length = 0 := by
    decide +kernel
  have hrecent := hjudged.recent
  rw [hid, length_lastOf, hnone] at hrecent
  exact absurd hrecent (by decide)

end PaymentRecovery.Evals

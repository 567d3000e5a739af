import PaymentRecovery.Guardrails.SharedRuns
import PaymentRecovery.Guardrails.Replay
import Mathlib.Algebra.BigOperators.Group.Multiset.Basic
import Mathlib.Data.Multiset.Filter

/-!
# The audit log among several workers

Workers log beside each other, so the entries of a run come in another order than
its effects, and a counter may be ahead of the log. Nothing is lost: the entries
are numbered from one at every moment, what the counters and the log still lack
is what some worker holds, and when all calls are over the log replays to the
store again.
-/

namespace PaymentRecovery.Guardrails

open PaymentRecovery.Python PaymentRecovery.Lib Program LawfulGuardStore

variable {ι S σ : Type} {scope : Scope} {s s' : Snapshot} {c c' : Point}

/-! ## Numbering -/

/-- The log grows by one entry at a time. -/
theorem Move.logs (h : Move scope s c c' s') :
    s'.state.audit = s.state.audit ∨
      ∃ run action decision detail, s' = s.logged run action decision detail := by
  cases h with
  | logged run action decision detail => exact .inr ⟨run, action, decision, detail, rfl⟩
  | capLogged t detail => exact .inr ⟨t.runId, t.action, _, detail, rfl⟩
  | executed t detail => exact .inr ⟨t.runId, t.action, _, detail, rfl⟩
  | _ => exact .inl rfl

theorem Move.seqs (h : Move scope s c c' s')
    (hseqs : ∀ r, (s.state.audit r).map (·.seq) = List.range' 1 (s.state.audit r).length)
    (r : String) : (s'.state.audit r).map (·.seq) = List.range' 1 (s'.state.audit r).length := by
  rcases h.logs with hsame | ⟨run, action, decision, detail, rfl⟩
  · rw [hsame]
    exact hseqs r
  · exact Audited.seqs_logged hseqs run action decision detail r

theorem Move.audit_prefix (h : Move scope s c c' s') (run : String) :
    s.state.audit run <+: s'.state.audit run := by
  rcases h.logs with hsame | ⟨r, action, decision, detail, rfl⟩
  · rw [hsame]
  · exact prefix_logged s r action decision detail run

/-! ## The ledger -/

/-- Name, subject, key and cost. -/
abbrev About := String × String × String × ℚ

/-- What the log has of the effects of a run. -/
def Snapshot.executedAbout (s : Snapshot) (run : String) : Multiset About :=
  ((executedEntries (s.state.audit run)).map (·.about) : List About)

def Snapshot.effectsAbout (s : Snapshot) (run : String) : Multiset About :=
  ((s.effectsIn run).map (·.action.about) : List About)

/-- What the worker has charged in the run and not yet logged. -/
def Point.unlogged (run : String) : Point → Multiset About
  | .charged t | .stored t => if t.runId = run then {t.action.about} else 0
  | _ => 0

/-- What its handler has done and is not yet charged. -/
def Point.uncharged (run : String) : Point → Multiset About
  | .returned t => if t.runId = run then {t.action.about} else 0
  | _ => 0

def totalCost (abouts : Multiset About) : ℚ := (abouts.map fun about => about.2.2.2).sum

def countOf (subject : String) (abouts : Multiset About) : ℕ :=
  abouts.countP fun about => about.2.1 = subject

theorem effectsAbout_congr {run : String} (h : s'.invocations = s.invocations) :
    s'.effectsAbout run = s.effectsAbout run := by
  unfold Snapshot.effectsAbout Snapshot.effectsIn Snapshot.effects
  rw [h]

theorem effectsAbout_invoked_some {inv : Invocation} {j : JsonText} (run : String)
    (h : inv.resultJson = some j) : (s.invoked inv).effectsAbout run =
      s.effectsAbout run + if inv.runId = run then {inv.action.about} else 0 := by
  unfold Snapshot.effectsAbout Snapshot.effectsIn
  rw [Snapshot.effects_invoked_some h, List.filter_append]
  split
  · rename_i hrun
    simp [hrun, ← Multiset.coe_add]
  · rename_i hrun
    simp [hrun]

theorem executedAbout_logged (s : Snapshot) (r : String) (action : Action)
    (decision detail run : String) : (s.logged r action decision detail).executedAbout run =
      s.executedAbout run +
        if decision = ExecutionStatus.executed.value ∧ r = run then {action.about} else 0 := by
  unfold Snapshot.executedAbout
  rw [Audited.audit_logged]
  by_cases hrun : run = r
  · subst hrun
    rw [if_pos rfl]
    by_cases hexec : decision = ExecutionStatus.executed.value
    · simp [executedEntries, hexec, AuditEntry.about, Action.about, ← Multiset.coe_add]
    · simp [executedEntries, hexec]
  · rw [if_neg hrun, if_neg fun h => hrun h.2.symm, add_zero]

/-- What is charged in one move leaves the hands of the worker that ran the handler, and goes to
the counters and, with the worker, to the log. -/
structure Charges (run : String) (charged : Multiset About) (s : Snapshot) (c c' : Point)
    (s' : Snapshot) : Prop where
  log : s'.executedAbout run + c'.unlogged run = s.executedAbout run + c.unlogged run + charged
  effects : s'.effectsAbout run + c.uncharged run =
    s.effectsAbout run + c'.uncharged run + charged
  spend : s'.state.spend run = s.state.spend run + totalCost charged
  count : ∀ subject,
    s'.state.count run subject = s.state.count run subject + countOf subject charged

theorem Charges.nothing {run : String}
    (hlog : s'.executedAbout run + c'.unlogged run = s.executedAbout run + c.unlogged run)
    (heffects : s'.effectsAbout run + c.uncharged run = s.effectsAbout run + c'.uncharged run)
    (hspend : s'.state.spend = s.state.spend) (hcount : s'.state.count = s.state.count) :
    Charges run 0 s c c' s' :=
  ⟨by rw [hlog, add_zero], by rw [heffects, add_zero],
    by rw [hspend, totalCost, Multiset.map_zero, Multiset.sum_zero, add_zero],
    fun _ => by rw [hcount]; rfl⟩

theorem Move.charges (h : Move scope s c c' s') (run : String) :
    ∃ charged, Charges run charged s c c' s' := by
  cases h with
  | charged t =>
    refine ⟨if t.runId = run then {t.action.about} else 0, ?_, ?_, ?_, fun subject => ?_⟩
    · show s.executedAbout run + _ = s.executedAbout run + 0 + _
      rw [add_zero]
      rfl
    · show s.effectsAbout run + _ = s.effectsAbout run + 0 + _
      rw [add_zero]
      rfl
    · show (if run = t.runId then s.state.spend run + t.action.cost else s.state.spend run) = _
      by_cases hrun : t.runId = run
      · simp [hrun, totalCost, Action.about]
      · simp [hrun, Ne.symm hrun, totalCost]
    · show (if run = t.runId ∧ subject = t.action.subjectId then s.state.count run subject + 1
        else s.state.count run subject) = _
      by_cases hrun : t.runId = run
      · simp only [hrun, true_and, if_true, countOf, ← Multiset.cons_zero, Multiset.countP_cons]
        by_cases hsubject : subject = t.action.subjectId
        · simp [hsubject, Action.about]
        · simp [hsubject, Ne.symm hsubject, Action.about]
      · simp [hrun, Ne.symm hrun, countOf]
  | called r action =>
    refine ⟨0, .nothing rfl ?_ rfl rfl⟩
    rw [effectsAbout_congr (Snapshot.invocations_called s r action)]
  | failed t inv hown hlost =>
    refine ⟨0, .nothing rfl ?_ rfl rfl⟩
    unfold Snapshot.effectsAbout Snapshot.effectsIn
    rw [Snapshot.effects_invoked_none hlost]
    rfl
  | returned t inv hown hstores =>
    refine ⟨0, .nothing rfl ?_ rfl rfl⟩
    obtain ⟨j, hj⟩ := Option.isSome_iff_exists.mp hstores
    rw [effectsAbout_invoked_some run hj, hown.1, hown.2.2]
    exact add_zero _
  | logged r action decision detail hother =>
    refine ⟨0, .nothing ?_ rfl rfl rfl⟩
    rw [executedAbout_logged, if_neg fun h => hother (.inl h.1), add_zero]
  | capLogged t detail =>
    refine ⟨0, .nothing ?_ rfl rfl rfl⟩
    rw [executedAbout_logged, if_neg fun h => absurd h.1 (by decide), add_zero]
    rfl
  | executed t detail =>
    refine ⟨0, .nothing ?_ rfl rfl rfl⟩
    rw [executedAbout_logged]
    simp [Point.unlogged]
  | _ => exact ⟨0, .nothing rfl rfl rfl rfl⟩

/-! ## The breaker -/

/-- A spend-cap refusal was logged in the run. -/
def Snapshot.CapLogged (s : Snapshot) (run : String) : Prop :=
  ∃ entry ∈ s.state.audit run, entry.decision = ExecutionStatus.rejectedSpendCap.value

/-- The worker has opened the breaker of the run and not yet logged why. -/
def Point.Tripping (run : String) : Point → Prop
  | .tripped t => t.runId = run
  | _ => False

theorem capLogged_logged (s : Snapshot) (r : String) (action : Action)
    (decision detail run : String) : (s.logged r action decision detail).CapLogged run ↔
      s.CapLogged run ∨ (r = run ∧ decision = ExecutionStatus.rejectedSpendCap.value) := by
  unfold Snapshot.CapLogged
  rw [Audited.audit_logged]
  by_cases hrun : run = r
  · subst hrun
    simp [or_and_right, exists_or]
  · simp [hrun, Ne.symm hrun]

/-- How a move bears on the breaker: whoever opens it logs it with its next transaction. -/
structure Breaks (run : String) (s : Snapshot) (c c' : Point) (s' : Snapshot) : Prop where
  breaker : s'.state.breaker run = true ↔
    s.state.breaker run = true ∨ (c'.Tripping run ∧ ¬ c.Tripping run)
  logs : s'.CapLogged run ∨ c'.Tripping run ↔
    s.CapLogged run ∨ c.Tripping run ∨ (c'.Tripping run ∧ ¬ c.Tripping run)

theorem Breaks.nothing {run : String} (hbreaker : s'.state.breaker = s.state.breaker)
    (hlogs : s'.CapLogged run ↔ s.CapLogged run) (hpoint : c'.Tripping run ↔ c.Tripping run) :
    Breaks run s c c' s' := by
  constructor
  · rw [hbreaker, hpoint, and_not_self_iff, or_false]
  · rw [hlogs, hpoint, and_not_self_iff, or_false]

theorem Move.breaks (h : Move scope s c c' s') (run : String) : Breaks run s c c' s' := by
  cases h with
  | tripped t =>
    refine ⟨?_, by simp [Point.Tripping]; rfl⟩
    show (if run = t.runId then true else s.state.breaker run) = true ↔ _
    by_cases hrun : t.runId = run
    · simp [Point.Tripping, hrun]
    · simp [Point.Tripping, hrun, Ne.symm hrun]
  | capLogged t detail =>
    refine ⟨by simp [Point.Tripping]; rfl, ?_⟩
    rw [capLogged_logged]
    simp [Point.Tripping]
  | logged r action decision detail hother =>
    refine .nothing rfl ?_ Iff.rfl
    rw [capLogged_logged]
    exact or_iff_left fun h => hother (.inr h.2)
  | executed t detail =>
    refine .nothing rfl ?_ Iff.rfl
    rw [capLogged_logged]
    exact or_iff_left fun h => absurd h.2 (by decide)
  | _ => exact .nothing rfl Iff.rfl Iff.rfl

/-! ## The books -/

theorem totalCost_add (a b : Multiset About) : totalCost (a + b) = totalCost a + totalCost b := by
  unfold totalCost
  rw [Multiset.map_add, Multiset.sum_add]

theorem countOf_add (subject : String) (a b : Multiset About) :
    countOf subject (a + b) = countOf subject a + countOf subject b :=
  Multiset.countP_add ..

/-- The log and what the workers have yet to log is what was charged; with what they have yet to
charge it is what was done. The breaker is open if that was logged or is about to be. -/
structure SharedBooks [Fintype ι] (points : ι → Point) (s : Snapshot) : Prop where
  seqs : ∀ r, (s.state.audit r).map (·.seq) = List.range' 1 (s.state.audit r).length
  effects : ∀ r, s.executedAbout r + ∑ i, (points i).unlogged r + ∑ i, (points i).uncharged r =
    s.effectsAbout r
  spend : ∀ r, s.state.spend r = totalCost (s.executedAbout r + ∑ i, (points i).unlogged r)
  count : ∀ r subject,
    s.state.count r subject = countOf subject (s.executedAbout r + ∑ i, (points i).unlogged r)
  breaker : ∀ r, s.state.breaker r = true ↔ s.CapLogged r ∨ ∃ i, (points i).Tripping r

namespace SharedBooks

variable [Fintype ι]

/-- Books kept by one caller alone. -/
theorem start (haccounts : Accounts s) (haudit : Audited s) :
    SharedBooks (fun _ : ι => Point.idle) s := by
  have hexecuted : ∀ r, s.executedAbout r = s.effectsAbout r := fun r => by
    unfold Snapshot.executedAbout
    rw [haudit.executed r]
    rfl
  refine ⟨haudit.seqs, fun r => ?_, fun r => ?_, fun r subject => ?_, fun r => ?_⟩
  · simp [Point.unlogged, Point.uncharged, hexecuted r]
  · simp only [Point.unlogged, Finset.sum_const_zero, add_zero, hexecuted r]
    rw [haccounts.spend_eq r, totalCost, Snapshot.effectsAbout, Multiset.map_coe, List.map_map,
      Multiset.sum_coe]
    rfl
  · simp only [Point.unlogged, Finset.sum_const_zero, add_zero, hexecuted r]
    rw [haccounts.count_eq r subject, countOf, Snapshot.effectsAbout, Multiset.coe_countP,
      List.countP_map, Snapshot.effectsIn, List.countP_filter, List.countP_eq_length_filter]
    congr 2
    funext inv
    simp [Action.about, Bool.and_comm]
  · refine (haudit.breaker r).trans (or_iff_left ?_).symm
    rintro ⟨_, h⟩
    exact h

variable [DecidableEq ι]

theorem move {points : ι → Point} {i : ι} (h : SharedBooks points s)
    (hmove : Move scope s (points i) c' s') : SharedBooks (Function.update points i c') s' := by
  -- the ledger grows by what the move charges
  have hledger : ∀ r, ∃ charged, Charges r charged s (points i) c' s' ∧
      s'.executedAbout r + ∑ j, (Function.update points i c' j).unlogged r =
        s.executedAbout r + ∑ j, (points j).unlogged r + charged := by
    intro r
    obtain ⟨charged, hcharges⟩ := hmove.charges r
    refine ⟨charged, hcharges, ?_⟩
    have hsum := sum_update (Point.unlogged r) points i c'
    refine add_right_cancel (b := (points i).unlogged r) ?_
    calc _ = s'.executedAbout r + (∑ j, (Function.update points i c' j).unlogged r +
          (points i).unlogged r) := add_assoc ..
      _ = s'.executedAbout r + c'.unlogged r + ∑ j, (points j).unlogged r := by rw [hsum]; abel
      _ = _ := by rw [hcharges.log]; abel
  refine ⟨hmove.seqs h.seqs, fun r => ?_, fun r => ?_, fun r subject => ?_, fun r => ?_⟩
  · obtain ⟨charged, hcharges, hgrown⟩ := hledger r
    have hsum := sum_update (Point.uncharged r) points i c'
    refine add_right_cancel (b := (points i).uncharged r) ?_
    calc _ = s.executedAbout r + ∑ j, (points j).unlogged r + charged +
          (∑ j, (Function.update points i c' j).uncharged r + (points i).uncharged r) := by
            rw [hgrown, add_assoc]
      _ = s.executedAbout r + ∑ j, (points j).unlogged r + ∑ j, (points j).uncharged r +
          c'.uncharged r + charged := by rw [hsum]; abel
      _ = _ := by rw [h.effects r, hcharges.effects]
  · obtain ⟨charged, hcharges, hgrown⟩ := hledger r
    rw [hgrown, totalCost_add, hcharges.spend, h.spend r]
  · obtain ⟨charged, hcharges, hgrown⟩ := hledger r
    rw [hgrown, countOf_add, hcharges.count, h.count r subject]
  · have hbreaks := hmove.breaks r
    have hothers : (∃ j, (Function.update points i c' j).Tripping r) ↔
        c'.Tripping r ∨ ∃ j, j ≠ i ∧ (points j).Tripping r := by
      rw [Function.exists_update_iff points fun _ c => Point.Tripping r c]
    have hbefore : (∃ j, (points j).Tripping r) ↔
        (points i).Tripping r ∨ ∃ j, j ≠ i ∧ (points j).Tripping r := by
      have := Function.exists_update_iff points (a := i) (b := points i)
        fun _ c => Point.Tripping r c
      rwa [Function.update_eq_self] at this
    rw [hothers, ← or_assoc, hbreaks.logs, hbreaks.breaker, h.breaker r, hbefore, ← or_assoc,
      or_right_comm, or_assoc (a := s.CapLogged r)]

omit [DecidableEq ι] in
/-- Where no worker is in the middle of a call, nothing is missing. -/
theorem settled {points : ι → Point} (h : SharedBooks points s) (hidle : ∀ i, points i = .idle)
    (run : String) : s.executedAbout run = s.effectsAbout run ∧
      s.state.spend run = totalCost (s.effectsAbout run) ∧
      (∀ subject, s.state.count run subject = countOf subject (s.effectsAbout run)) ∧
      (s.state.breaker run = true ↔ s.CapLogged run) := by
  have heffects := h.effects run
  have hspend := h.spend run
  have hcount := h.count run
  have hbreaker := h.breaker run
  simp only [hidle, Point.unlogged, Point.uncharged, Point.Tripping, Finset.sum_const_zero,
    add_zero, exists_const_iff, and_false, or_false] at heffects hspend hcount hbreaker
  rw [heffects] at hspend hcount
  exact ⟨heffects, hspend, hcount, hbreaker⟩

end SharedBooks

/-! ## Replaying -/

/-- The log folded back, in any order, gives what it says was executed. -/
theorem reconstruct_perm {log entries : List AuditEntry}
    (hseqs : log.map (·.seq) = List.range' 1 log.length) (hperm : entries.Perm log) :
    let executed : Multiset About := ((executedEntries log).map (·.about) : List About)
    (reconstruct entries).totalCost = totalCost executed ∧
    (∀ subject, ((reconstruct entries).perSubjectExecuted.get? subject).getD 0 =
      countOf subject executed) ∧
    (reconstruct entries).executedCount = executed.card ∧
    ((reconstruct entries).breakerTripped = true ↔
      ∃ entry ∈ log, entry.decision = ExecutionStatus.rejectedSpendCap.value) := by
  unfold reconstruct
  rw [mergeSort_of_perm hseqs hperm]
  refine ⟨?_, fun subject => ?_, ?_, ?_⟩
  · rw [foldl_totalCost, totalCost, Multiset.map_coe, List.map_map, Multiset.sum_coe]
    exact zero_add _
  · rw [foldl_perSubject, countOf, Multiset.coe_countP, List.countP_map,
      List.countP_eq_length_filter]
    exact Nat.zero_add _
  · rw [foldl_executedCount, Multiset.coe_card, List.length_map]
    exact Nat.zero_add _
  · exact (foldl_breaker _ _).trans (or_iff_right (by simp [ReplayState.init]))

section Runs

variable [Fintype ι] [DecidableEq ι] [GuardStore S] [LawfulGuardStore S] [SharedGuardStore S]

/-- **No worker's entry is lost.** After any calls one after another, workers make calls beside
each other. At every moment the entries of a run are numbered `1..n`, and no entry that was there
is changed. When all calls are over, the entries in any order fold back to the run's spend, its
subject counts and its breaker, and to as many executions as there were effects. -/
theorem audit_among_workers (earlier : List (Call σ)) (env : σ) (calls : ι → List (Call σ))
    (schedule : List ι) (run : String) :
    let w : World S σ := runCalls earlier (.fresh env)
    let log := GuardStore.readAudit (worldAfter calls w schedule).store run
    log.map (·.seq) = List.range' 1 log.length ∧
    (∀ before, before <+: schedule →
      GuardStore.readAudit (worldAfter calls w before).store run <+: log) ∧
    (((workers calls w).exec schedule).Done → ∀ entries : List AuditEntry, entries.Perm log →
      (reconstruct entries).totalCost =
        GuardStore.accumulatedSpend (worldAfter calls w schedule).store run ∧
      (∀ subject, ((reconstruct entries).perSubjectExecuted.get? subject).getD 0 =
        GuardStore.subjectExecutedCount (worldAfter calls w schedule).store run subject) ∧
      (reconstruct entries).executedCount =
        ((worldAfter calls w schedule).snapshot.effectsIn run).length ∧
      (reconstruct entries).breakerTripped =
        GuardStore.isBreakerOpen (worldAfter calls w schedule).store run) := by
  intro w log
  have hlog : log = (afterSchedule calls w schedule).state.audit run := readAudit_eq _ _
  obtain ⟨points, ⟨hbooks, hgrown⟩, hdone⟩ := workers_keep .all calls w
    (I := fun past points s => SharedBooks points s ∧ ∀ before, before <+: past →
      (afterSchedule calls w before).state.audit run <+: s.state.audit run)
    (fun _ call _ => Scope.all_covers call) (fun _ _ _ _ => trivial)
    ⟨.start (Accounts.runCalls earlier env) (audited_runCalls earlier env), fun before hbefore => by
      obtain rfl := List.prefix_nil.mp hbefore
      exact List.prefix_rfl⟩
    (fun past points i c' _ h hmove => ⟨h.1.move hmove, fun before hbefore => by
      rcases List.prefix_concat_iff.mp hbefore with rfl | hpast
      · exact List.prefix_rfl
      · exact (h.2 before hpast).trans (hmove.audit_prefix run)⟩) schedule
  rw [hlog]
  refine ⟨hbooks.seqs run, fun before hbefore => ?_, fun hall entries hperm => ?_⟩
  · rw [readAudit_eq]
    exact hgrown before hbefore
  · obtain ⟨hexecuted, hspend, hcount, hbreaker⟩ := hbooks.settled (hdone hall) run
    obtain ⟨htotal, hsubjects, hruns, htripped⟩ := reconstruct_perm (hbooks.seqs run) hperm
    rw [accumulatedSpend_eq, isBreakerOpen_eq]
    simp only [subjectExecutedCount_eq]
    refine ⟨?_, fun subject => ?_, ?_, ?_⟩
    · exact (htotal.trans (congrArg totalCost hexecuted)).trans hspend.symm
    · exact ((hsubjects subject).trans (congrArg (countOf subject) hexecuted)).trans
        (hcount subject).symm
    · refine (hruns.trans (congrArg Multiset.card hexecuted)).trans ?_
      exact (Multiset.coe_card _).trans (List.length_map _)
    · exact Bool.eq_iff_iff.mpr (htripped.trans hbreaker.symm)

end Runs

open Sample

theorem audit_among_two :
    (reconstruct (GuardStore.readAudit (besideWorld inTurns).store "run").reverse).totalCost =
      GuardStore.accumulatedSpend (besideWorld inTurns).store "run" :=
  ((audit_among_workers [] () beside inTurns "run").2.2
    (fun i => List.isEmpty_iff.mp (by cases i <;> decide +kernel)) _ (List.reverse_perm _)).1

end PaymentRecovery.Guardrails

import PaymentRecovery.Guardrails.Approval

/-!
# The limits of a run

Spend never passes the cap, no subject passes its budget, and a run that was
halted once stays halted. All executors of the run share one policy; executors
of other runs are free.
-/

namespace PaymentRecovery.Guardrails

open PaymentRecovery.Python PaymentRecovery.Lib

variable {S σ : Type} [GuardStore S]

/-- The call is made under `policy` if it is made in `run`. -/
def Under (run : String) (policy : GuardPolicy) (call : Call σ) : Prop :=
  call.executor.runId = run → call.executor.policy = policy

/-- The counters of a run are within its policy. -/
structure WithinLimits (run : String) (policy : GuardPolicy) (g : GuardState) : Prop where
  spend : g.spend run ≤ policy.perRunSpendCap
  count : ∀ subject, (g.count run subject : Int) ≤ policy.perSubjectActionBudget

variable {run : String} {policy : GuardPolicy}

theorem WithinLimits.execute {ex : GuardedExecutor σ} {action : Action} {s s' : Snapshot}
    {answer : Except PyExc ExecutionResult} (h : WithinLimits run policy s.state)
    (hpolicy : ex.runId = run → ex.policy = policy)
    (hstep : ExecuteStep ex action s answer s') : WithinLimits run policy s'.state := by
  cases hstep with
  | executed result resultJson hadm hyields hdump =>
    refine ⟨?_, fun subject => ?_⟩
    · show (if run = ex.runId then s.state.spend run + action.cost else s.state.spend run) ≤ _
      split
      · rename_i hrun
        rw [← hpolicy hrun.symm, hrun]
        exact hadm.cap
      · exact h.spend
    · show ((if run = ex.runId ∧ subject = action.subjectId then s.state.count run subject + 1
        else s.state.count run subject : Nat) : Int) ≤ _
      split
      · rename_i hrs
        have hbudget := hadm.budget
        rw [hpolicy hrs.1.symm, ← hrs.1, ← hrs.2] at hbudget
        omega
      · exact h.count subject
  | _ => exact ⟨h.spend, h.count⟩

theorem WithinLimits.step {call : Call σ} {s s' : Snapshot}
    {answer : Except PyExc (Option ExecutionResult)} (h : WithinLimits run policy s.state)
    (hpolicy : Under run policy call) (hstep : CallStep s call answer s') :
    WithinLimits run policy s'.state :=
  hstep.keeps (P := fun s => WithinLimits run policy s.state)
    (fun _ _ _ hs => ⟨hs.spend, hs.count⟩)
    (fun _ _ _ _ hs hexec => hs.execute hpolicy hexec) h

/-! ## The breaker -/

/-- The handler runs of one run. -/
def Snapshot.invocationsIn (s : Snapshot) (run : String) : List Invocation :=
  s.invocations.filter fun inv => inv.runId = run

theorem ExecuteStep.halted {ex : GuardedExecutor σ} {action : Action} {s s' : Snapshot}
    {answer : Except PyExc ExecutionResult} (hstep : ExecuteStep ex action s answer s')
    (hopen : s.state.breaker run = true) :
    s'.state.breaker run = true ∧ s'.invocationsIn run = s.invocationsIn run := by
  refine ⟨?_, ?_⟩
  · cases hstep with
    | overCap =>
      show (if run = ex.runId then true else s.state.breaker run) = true
      rw [hopen, ite_self]
    | _ => exact hopen
  · unfold Snapshot.invocationsIn
    rcases hstep.quiet_or_ran with ⟨_, hsame⟩ | ⟨outcome, hadm, _, happ⟩
    · rw [hsame]
    · have hne : ex.runId ≠ run := by
        intro hrun
        rw [← hrun, hadm.closed] at hopen
        cases hopen
      rw [happ]
      simp [invocationIn, hne]

/-- A halted run stays halted and runs nothing. -/
theorem CallStep.halted {call : Call σ} {s s' : Snapshot}
    {answer : Except PyExc (Option ExecutionResult)} (hstep : CallStep s call answer s')
    (hopen : s.state.breaker run = true) :
    s'.state.breaker run = true ∧ s'.invocationsIn run = s.invocationsIn run := by
  refine hstep.keeps
    (P := fun t => t.state.breaker run = true ∧ t.invocationsIn run = s.invocationsIn run)
    (fun _ _ _ hs => hs) (fun action t answer t' hs hexec => ?_) ⟨hopen, rfl⟩
  obtain ⟨hopen', hsame⟩ := hexec.halted hs.1
  exact ⟨hopen', hsame.trans hs.2⟩

/-- The answer "spend cap" leaves the run halted. -/
theorem ExecuteStep.trips {ex : GuardedExecutor σ} {action : Action} {s s' : Snapshot}
    {res : ExecutionResult} (hstep : ExecuteStep ex action s (.ok res) s')
    (hstatus : res.status = .rejectedSpendCap) : s'.state.breaker ex.runId = true := by
  cases hstep with
  | overCap => exact if_pos rfl
  | _ => cases hstatus

theorem CallStep.trips {call : Call σ} {s s' : Snapshot} {res : ExecutionResult}
    (hstep : CallStep s call (.ok (some res)) s') (hstatus : res.status = .rejectedSpendCap) :
    s'.state.breaker call.executor.runId = true := by
  generalize hanswer : (Except.ok (some res) : Except PyExc (Option ExecutionResult)) = answer
    at hstep
  cases hstep with
  | execute ex action answer s' hexec =>
    cases answer with
    | error exc => cases hanswer
    | ok res' =>
      injection hanswer with hres
      injection hres with hres
      exact hexec.trips (hres ▸ hstatus)
  | approveRefused => cases hanswer
  | rejectRefused => cases hanswer
  | unreadable => cases hanswer
  | approve ex id rec params answer s' hrec hrun hload hexec =>
    cases answer with
    | error exc => cases hanswer
    | ok res' =>
      injection hanswer with hres
      injection hres with hres
      exact hexec.trips (hres ▸ hstatus)
  | rejectApproval => cases hanswer

/-! ## Runs -/

section Limits

variable [LawfulGuardStore S]

/-- **The limits hold in every reachable state.** Under one policy with non-negative
limits, after any run of calls: the run's spend is within the cap, every subject's count
within the budget, and once a call of the run has answered that the cap refused it, no
later call runs a handler in the run. -/
theorem limits_hold (run : String) (policy : GuardPolicy) (calls : List (Call σ)) (env : σ)
    (hcap : 0 ≤ policy.perRunSpendCap) (hbudget : 0 ≤ policy.perSubjectActionBudget)
    (hpolicy : ∀ call ∈ calls, Under run policy call) :
    let w : World S σ := runCalls calls (.fresh env)
    GuardStore.accumulatedSpend w.store run ≤ policy.perRunSpendCap ∧
    (∀ subject, (GuardStore.subjectExecutedCount w.store run subject : Int) ≤
      policy.perSubjectActionBudget) ∧
    ∀ before call after res, calls = before ++ call :: after → call.executor.runId = run →
      (call.run (runCalls before (.fresh env : World S σ))).1 = .ok (some res) →
      res.status = .rejectedSpendCap →
      w.snapshot.invocationsIn run =
        (runCalls (before ++ [call]) (.fresh env : World S σ)).snapshot.invocationsIn run := by
  intro w
  have hlimits : WithinLimits run policy w.snapshot.state :=
    Run.exec_inv_along (P := fun w : World S σ => WithinLimits run policy w.snapshot.state)
      (fun w call h hcall => h.step hcall (call_step call w))
      (by
        rw [snapshot_fresh]
        exact ⟨hcap, fun _ => hbudget⟩)
      (Run.along_of_forall hpolicy _)
  refine ⟨?_, fun subject => ?_, ?_⟩
  · rw [LawfulGuardStore.accumulatedSpend_eq]
    exact hlimits.spend
  · rw [LawfulGuardStore.subjectExecutedCount_eq]
    exact hlimits.count subject
  · -- the refusal leaves the breaker open, and an open breaker stays open
    intro before call after res hcalls hrun hanswer hstatus
    have hsplit : w = runCalls after (runCalls (before ++ [call]) (.fresh env)) := by
      rw [← runCalls_append, List.append_assoc]
      exact congrArg (runCalls · _) hcalls
    have hopen : (runCalls (before ++ [call])
        (.fresh env : World S σ)).snapshot.state.breaker run = true := by
      have hstep := call_step call (runCalls before (.fresh env : World S σ))
      unfold Call.run at hanswer
      rw [hanswer] at hstep
      rw [runCalls_append, ← hrun]
      exact hstep.trips hstatus
    rw [hsplit]
    have hkeep := runCalls_inv (S := S) (w := runCalls (before ++ [call]) (.fresh env))
      (P := fun s => s.state.breaker run = true ∧ s.invocationsIn run =
        (runCalls (before ++ [call]) (.fresh env : World S σ)).snapshot.invocationsIn run)
      (fun _ h hstep => by
        obtain ⟨hopen', hsame⟩ := hstep.halted h.1
        exact ⟨hopen', hsame.trans h.2⟩) after ⟨hopen, rfl⟩
    exact hkeep.2

end Limits

/-- The sample policy, on a payment within its limits and one past its cap. -/
theorem limits_hold_sample :
    GuardStore.accumulatedSpend (Sample.after [.execute Sample.executor (Sample.pay 100),
      .execute Sample.executor ⟨"pay", "order", "other", 20000, .dict []⟩]).store "run" ≤
      10000 := by
  have h := limits_hold (S := SqlGuardStore) "run" Sample.policy
    [.execute Sample.executor (Sample.pay 100),
      .execute Sample.executor ⟨"pay", "order", "other", 20000, .dict []⟩] ()
    (by decide +kernel) (by decide) (by
      intro call hcall hrun
      simp only [List.mem_cons, List.not_mem_nil, or_false] at hcall
      rcases hcall with rfl | rfl <;> rfl)
  exact h.1

end PaymentRecovery.Guardrails

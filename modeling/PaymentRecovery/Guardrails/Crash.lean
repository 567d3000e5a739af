import PaymentRecovery.Guardrails.Runs
import PaymentRecovery.Lib.Triple

/-!
# Dying inside an executor call

`ExecuteCut` lists the states a call to `execute` passes through: what a process
that dies there leaves in the store and the journal. The handler has run, or has
been charged, before its result is stored; an approval is queued, and a breaker
opened, before it is logged.
-/

namespace PaymentRecovery.Guardrails

open PaymentRecovery.Python PaymentRecovery.Lib Program

variable {σ : Type}

/-- The effect was charged, and its result is not stored yet. -/
def Snapshot.charged (s : Snapshot) (run : String) (action : Action) : Snapshot :=
  { s with state := s.state.charged run action.subjectId action.cost }

@[simp] theorem Snapshot.invocations_charged (s : Snapshot) (run : String) (action : Action) :
    (s.charged run action).invocations = s.invocations := rfl

/-- The states on the way through one call to `execute`. -/
inductive ExecuteCut (ex : GuardedExecutor σ) (action : Action) (s : Snapshot) : Snapshot → Prop
  | entered : ExecuteCut ex action s (s.called ex.runId action)
  | queued (rec : ApprovalRecord)
    (hnone : s.state.approval ex.runId action.idempotencyKey = none)
    (hown : rec.runId = ex.runId ∧ rec.idempotencyKey = action.idempotencyKey)
    (hid : s.state.approvalKey rec.approvalId = none) :
    ExecuteCut ex action s ((s.called ex.runId action).held rec)
  | tripped (hcap : ex.policy.perRunSpendCap < s.state.spend ex.runId + action.cost) :
    ExecuteCut ex action s ((s.called ex.runId action).tripped ex.runId)
  | invoked (outcome : Except PyExc PyVal) (hadm : Admitted ex action s.state)
    (hyields : Yields ex action outcome) :
    ExecuteCut ex action s
      ((s.called ex.runId action).invoked (invocationIn ex action s.state outcome))
  | charged (result : PyVal) (hadm : Admitted ex action s.state)
    (hyields : Yields ex action (.ok result)) :
    ExecuteCut ex action s (((s.called ex.runId action).invoked
      (invocationIn ex action s.state (.ok result))).charged ex.runId action)
  | settled (result : PyVal) (resultJson : JsonText) (hadm : Admitted ex action s.state)
    (hyields : Yields ex action (.ok result)) (hdump : jsonDumps result = .ok resultJson) :
    ExecuteCut ex action s (((s.called ex.runId action).invoked
      (invocationIn ex action s.state (.ok result))).settled ex.runId action resultJson)
  | ended (answer : Except PyExc ExecutionResult) (s' : Snapshot)
    (hstep : ExecuteStep ex action s answer s') : ExecuteCut ex action s s'

/-- On the way through a call a handler ran once at most, and then every guard had let the
action pass. -/
theorem ExecuteCut.quiet_or_ran {ex : GuardedExecutor σ} {action : Action} {s s' : Snapshot}
    (h : ExecuteCut ex action s s') :
    s'.invocations = s.invocations ∨
    ∃ outcome, Admitted ex action s.state ∧ Yields ex action outcome ∧
      s'.invocations = s.invocations ++ [invocationIn ex action s.state outcome] := by
  cases h with
  | entered => exact .inl (by simp)
  | queued => exact .inl (by simp)
  | tripped => exact .inl (by simp)
  | invoked outcome hadm hyields => exact .inr ⟨outcome, hadm, hyields, by simp⟩
  | charged result hadm hyields => exact .inr ⟨_, hadm, hyields, by simp⟩
  | settled result resultJson hadm hyields hdump => exact .inr ⟨_, hadm, hyields, by simp⟩
  | ended answer s' hstep => exact hstep.quiet_or_ran.imp (·.2) id

/-- The result of a handler that returned a value with a text is stored. -/
theorem ExecuteStep.result_of_ran {ex : GuardedExecutor σ} {action : Action} {s s' : Snapshot}
    {answer : Except PyExc ExecutionResult} (h : ExecuteStep ex action s answer s')
    {value : PyVal} {text : JsonText} (hdump : jsonDumps value = .ok text)
    (hran : s'.invocations = s.invocations ++ [invocationIn ex action s.state (.ok value)]) :
    s'.state.result ex.runId action.idempotencyKey ≠ none := by
  cases h with
  | executed result resultJson hadm hyields hdump' =>
    show (if ex.runId = ex.runId ∧ action.idempotencyKey = action.idempotencyKey then some _
      else _) ≠ none
    rw [if_pos ⟨rfl, rfl⟩]
    exact Option.some_ne_none _
  | unstorable result exc hadm hyields hdump' =>
    simp only [Snapshot.invocations_invoked, Snapshot.invocations_called,
      List.append_cancel_left_eq, List.cons.injEq, and_true] at hran
    have hvalue : (Except.ok result : Except PyExc PyVal) = .ok value :=
      congrArg Invocation.outcome hran
    rw [Except.ok.inj hvalue, hdump] at hdump'
    cases hdump'
  | raised exc hadm hyields =>
    simp only [Snapshot.invocations_logged, Snapshot.invocations_invoked,
      Snapshot.invocations_called, List.append_cancel_left_eq, List.cons.injEq, and_true] at hran
    have hvalue : (Except.error exc : Except PyExc PyVal) = .ok value :=
      congrArg Invocation.outcome hran
    cases hvalue
  | _ => simp at hran

/-- No call forgets an approval id. -/
theorem ExecuteStep.approvalKey_kept {ex : GuardedExecutor σ} {action : Action} {s s' : Snapshot}
    {answer : Except PyExc ExecutionResult} (h : ExecuteStep ex action s answer s')
    {id : ApprovalId} (hid : s.state.approvalKey id ≠ none) : s'.state.approvalKey id ≠ none := by
  cases h with
  | enqueued id' paramsJson t =>
    show (if id = id' then _ else _) ≠ none
    split
    · exact Option.some_ne_none _
    · exact hid
  | _ => exact hid

theorem ExecuteCut.approvalKey_kept {ex : GuardedExecutor σ} {action : Action} {s s' : Snapshot}
    (h : ExecuteCut ex action s s') {id : ApprovalId} (hid : s.state.approvalKey id ≠ none) :
    s'.state.approvalKey id ≠ none := by
  cases h with
  | queued rec =>
    show (if id = rec.approvalId then _ else _) ≠ none
    split
    · exact Option.some_ne_none _
    · exact hid
  | ended answer s' hstep => exact hstep.approvalKey_kept hid
  | _ => exact hid

theorem ResultsReadable.settled {s : Snapshot} (h : ResultsReadable s) (run : String)
    (action : Action) {result : PyVal} {resultJson : JsonText}
    (hdump : jsonDumps result = .ok resultJson) :
    ResultsReadable (s.settled run action resultJson) := by
  intro r k rec hrec
  have hstored : (if r = run ∧ k = action.idempotencyKey then
      some (⟨run, action.idempotencyKey, ExecutionStatus.executed.value, resultJson⟩ :
        IdempotencyRecord) else s.state.result r k) = some rec := hrec
  split at hstored
  · injection hstored with hstored
    exact hstored ▸ jsonLoads_of_jsonDumps hdump
  · exact h r k rec hstored

/-- A call stores texts only. -/
theorem ExecuteStep.resultsReadable {ex : GuardedExecutor σ} {action : Action} {s s' : Snapshot}
    {answer : Except PyExc ExecutionResult} (h : ExecuteStep ex action s answer s')
    (hs : ResultsReadable s) : ResultsReadable s' := by
  cases h with
  | executed result resultJson hadm hyields hdump => exact hs.settled ex.runId action hdump
  | _ => exact hs

theorem ExecuteCut.resultsReadable {ex : GuardedExecutor σ} {action : Action} {s s' : Snapshot}
    (h : ExecuteCut ex action s s') (hs : ResultsReadable s) : ResultsReadable s' := by
  cases h with
  | settled result resultJson hadm hyields hdump => exact hs.settled ex.runId action hdump
  | ended answer s' hstep => exact hstep.resultsReadable hs
  | _ => exact hs

section Refinement

variable {S : Type} [GuardStore S]

open GuardedExecutor LawfulGuardStore

@[simp] theorem cuts_audit (ex : GuardedExecutor σ) (action : Action) (decision detail : String)
    (w : World S σ) :
    (ex.audit action decision detail).cuts w = [w.audited ex.runId action decision detail] := rfl

@[simp] theorem cuts_finish (ex : GuardedExecutor σ) (action : Action) (status : ExecutionStatus)
    (result : PyVal) (id : Option ApprovalId) (detail : String) (w : World S σ) :
    (ex.finish action status result id detail).cuts w =
      [w.audited ex.runId action status.value detail] := by
  simp [finish]

/-- Queueing is one transaction. -/
theorem cuts_createPending (ex : GuardedExecutor σ) (action : Action) (paramsJson : JsonText)
    (w : World S σ) :
    (ex.createPending action paramsJson).cuts w =
      [((ex.createPending action paramsJson).run w).2] := rfl

variable [LawfulGuardStore S] {ex : GuardedExecutor σ} {action : Action} {w : World S σ}
  {s : Snapshot}

theorem snapshot_charged (w : World S σ) (run : String) (action : Action) :
    ({ w with store := GuardStore.recordExecution w.store run action.subjectId action.cost } :
      World S σ).snapshot = w.snapshot.charged run action := by
  unfold World.snapshot Snapshot.charged
  rw [view_recordExecution]

/-- The ways through the effect itself. -/
theorem perform_cut {handler : EffectHandler σ}
    (hw : w.snapshot = s.called ex.runId action) (hadm : Admitted ex action s.state)
    (hhandler : ex.handlers.get? action.name = some handler) :
    ∀ c ∈ (ex.perform handler action).cuts w, ExecuteCut ex action s c.snapshot := by
  have hinv := snapshot_afterHandler hw
  unfold World.afterHandler at hinv
  intro c hc
  unfold perform invoke at hc
  cases hout : handler action w.env with
  | mk outcome env =>
    have hyields : Yields ex action outcome := ⟨handler, w.env, hhandler, by rw [hout]⟩
    cases outcome with
    | error exc =>
      simp only [cuts_bind, cuts_tryCatch, cuts_attempt, run_bind, run_tryCatch, run_attempt,
        hout, cuts_audit, run_audit, cuts_throw, run_throw, List.append_nil, List.mem_append,
        List.mem_singleton] at hc
      rcases hc with rfl | rfl
      · -- between the handler's exception and its entry
        rw [hinv]
        exact .invoked _ hadm hyields
      · rw [snapshot_audited, hinv]
        exact .ended _ _ (.raised exc hadm hyields)
    | ok result =>
      simp only [cuts_bind, cuts_tryCatch, cuts_attempt, run_tryCatch, run_attempt, hout,
        cuts_orRaise, run_orRaise, List.append_nil, List.nil_append, List.mem_append,
        List.mem_singleton] at hc
      rcases hc with rfl | hc
      · rw [hinv]
        exact .invoked _ hadm hyields
      · cases hdump : jsonDumps result with
        | error exc =>
          rw [hdump] at hc
          exact absurd hc List.not_mem_nil
        | ok resultJson =>
          rw [hdump] at hc
          simp only [cuts_write, run_write, cuts_finish, List.mem_append,
            List.mem_singleton] at hc
          -- charged, then stored, then logged
          have hsettled := snapshot_settled (⟨w.store, env, w.journal ++ [.invoked ⟨ex.runId,
            ex.policy, action, GuardStore.getApproval w.store ex.runId action.idempotencyKey,
            .ok result⟩]⟩ : World S σ) ex.runId action resultJson (by
              rw [hinv]
              exact hadm.fresh)
          dsimp only at hsettled
          rcases hc with rfl | rfl | rfl
          · rw [snapshot_charged (⟨w.store, env, _⟩ : World S σ), hinv]
            exact .charged result hadm hyields
          · rw [hsettled, hinv]
            exact .settled result resultJson hadm hyields hdump
          · rw [snapshot_audited, hsettled, hinv]
            exact .ended _ _ (.executed result resultJson hadm hyields hdump)

/-- The ways through the two limits. -/
theorem spend_cut {handler : EffectHandler σ}
    (hw : w.snapshot = s.called ex.runId action) (hclear : Cleared ex action s.state)
    (hhandler : ex.handlers.get? action.name = some handler) :
    ∀ c ∈ (ex.spend handler action).cuts w, ExecuteCut ex action s c.snapshot := by
  have hview : LawfulGuardStore.view w.store = s.state := congrArg Snapshot.state hw
  have hsame : ExecuteCut ex action s w.snapshot := hw ▸ .entered
  intro c hc
  unfold spend at hc
  simp only [cuts_bind, cuts_read, run_read, subjectExecutedCount_eq, hview, List.mem_append,
    List.mem_singleton] at hc
  rcases hc with rfl | hc
  · exact hsame
  · split at hc
    · rename_i hbudget
      simp only [cuts_finish, List.mem_singleton] at hc
      rw [hc, snapshot_audited, hw]
      exact .ended _ _ (.overBudget _ hclear hbudget)
    · rename_i hbudget
      simp only [cuts_bind, cuts_read, run_read, accumulatedSpend_eq, hview, List.mem_append,
        List.mem_singleton] at hc
      rcases hc with rfl | hc
      · exact hsame
      · split at hc
        · rename_i hcap
          have htrip := snapshot_tripped w ex.runId
          rw [hw] at htrip
          simp only [cuts_bind, cuts_write, run_write, cuts_finish, List.mem_append,
            List.mem_singleton] at hc
          rcases hc with rfl | rfl
          · rw [htrip]
            exact .tripped hcap
          · rw [snapshot_audited, htrip]
            exact .ended _ _ (.overCap hclear (Int.not_le.mp hbudget) hcap)
        · rename_i hcap
          exact perform_cut hw ⟨hclear, Int.not_le.mp hbudget, Rat.not_lt.mp hcap⟩ hhandler c hc

/-- The ways through the gate. -/
theorem approvalGate_cut
    (hw : w.snapshot = s.called ex.runId action)
    (hclosed : s.state.breaker ex.runId = false)
    (hfresh : s.state.result ex.runId action.idempotencyKey = none) :
    ∀ c ∈ (ex.approvalGate action).cuts w, ExecuteCut ex action s c.snapshot := by
  have hview : LawfulGuardStore.view w.store = s.state := congrArg Snapshot.state hw
  have hsame : ExecuteCut ex action s w.snapshot := hw ▸ .entered
  intro c hc
  unfold approvalGate at hc
  split at hc
  · rename_i hgated
    simp only [cuts_bind, cuts_read, run_read, getApproval_eq, hview, List.mem_append,
      List.mem_singleton] at hc
    rcases hc with rfl | hc
    · exact hsame
    · cases hrec : s.state.approval ex.runId action.idempotencyKey with
      | some rec =>
        simp only [hrec, cuts_bind, cuts_pure, run_pure, List.nil_append] at hc
        split at hc
        · exact absurd hc List.not_mem_nil
        · rename_i hstate
          simp only [cuts_bind, cuts_finish, run_finish, cuts_pure, List.append_nil,
            List.mem_singleton] at hc
          rw [hc, snapshot_audited, hw]
          exact .ended _ _ (.undecided rec _ hclosed hfresh hgated hrec hstate)
      | none =>
        cases hdump : jsonDumps action.params with
        | error exc =>
          simp only [hrec, hdump, cuts_bind, cuts_orRaise, run_orRaise,
            List.append_nil] at hc
          exact absurd hc List.not_mem_nil
        | ok paramsJson =>
          obtain ⟨id, w', hid, hpend, hheld⟩ := run_createPending ex action paramsJson
            (show w.snapshot.state.approval _ _ = none by rw [hw]; exact hrec)
          rw [hw] at hid hheld
          simp only [hrec, hdump, cuts_bind, cuts_orRaise, run_orRaise, cuts_createPending,
            hpend, reduceCtorEq, if_false, if_true, cuts_finish, run_finish, cuts_pure,
            List.append_nil, List.nil_append, List.mem_append, List.mem_singleton] at hc
          rcases hc with rfl | rfl
          · rw [hheld]
            exact .queued _ hrec ⟨rfl, rfl⟩ hid
          · rw [snapshot_audited, hheld]
            exact .ended _ _ (.enqueued id paramsJson _ hclosed hfresh hgated hrec hdump hid)
  · exact absurd hc List.not_mem_nil

/-- A process that dies in a call to `execute` leaves one of these states. -/
theorem execute_cut (ex : GuardedExecutor σ) (action : Action) (w : World S σ) :
    ∀ c ∈ (ex.execute action).cuts w, ExecuteCut ex action w.snapshot c.snapshot := by
  have hcalled : ({ w with journal := w.journal ++ [.called ex.runId action] } :
      World S σ).snapshot = w.snapshot.called ex.runId action := rfl
  have hsame : ExecuteCut ex action w.snapshot ({ w with journal :=
      w.journal ++ [.called ex.runId action] } : World S σ).snapshot := hcalled ▸ .entered
  intro c hc
  unfold execute at hc
  simp only [cuts_bind, cuts_step, run_step, isBreakerOpen_eq, List.mem_append,
    List.mem_singleton] at hc
  rcases hc with rfl | hc
  · exact hsame
  · cases hbreaker : (LawfulGuardStore.view w.store).breaker ex.runId with
    | true =>
      simp only [hbreaker, if_true, cuts_finish, List.mem_singleton] at hc
      rw [hc, snapshot_audited, hcalled]
      exact .ended _ _ (.breakerOpen hbreaker)
    | false =>
      simp only [hbreaker, Bool.false_eq_true, if_false, cuts_bind, cuts_read, run_read,
        getResult_eq, List.mem_append, List.mem_singleton] at hc
      rcases hc with rfl | hc
      · exact hsame
      · cases hres : (LawfulGuardStore.view w.store).result ex.runId action.idempotencyKey with
        | some rec =>
          cases hload : jsonLoads rec.resultJson with
          | error exc =>
            simp only [hres, hload, cuts_bind, cuts_orRaise, run_orRaise, List.append_nil] at hc
            exact absurd hc List.not_mem_nil
          | ok result =>
            simp only [hres, hload, cuts_bind, cuts_orRaise, run_orRaise, cuts_finish,
              List.nil_append, List.mem_singleton] at hc
            rw [hc, snapshot_audited, hcalled]
            exact .ended _ _ (.duplicate rec result hbreaker hres hload)
        | none =>
          cases hhandler : ex.handlers.get? action.name with
          | none =>
            simp only [hres, hhandler, cuts_throw] at hc
            exact absurd hc List.not_mem_nil
          | some handler =>
            simp only [hres, hhandler, cuts_bind, List.mem_append] at hc
            -- in the gate, or behind it if it let the action pass
            rcases hc with hgate | hc
            · exact approvalGate_cut hcalled hbreaker hres c hgate
            · rcases approvalGate_step hcalled hbreaker hres ⟨handler, hhandler⟩ with
                ⟨hrun, hclear⟩ | ⟨result, w', hrun, _⟩ | ⟨exc, w', hrun, _⟩
              · rw [hrun] at hc
                exact spend_cut hcalled hclear hhandler c hc
              · rw [hrun] at hc
                exact absurd hc List.not_mem_nil
              · rw [hrun] at hc
                exact absurd hc List.not_mem_nil

/-- A property of snapshots that `execute` keeps from start to end, with what is left of it
on the way. -/
theorem execute_carries {C I : Snapshot → Prop} {ex : GuardedExecutor σ} {action : Action}
    (hcut : ∀ s s', s.state.Wf → I s → ExecuteCut ex action s s' → C s')
    (hstep : ∀ s answer s', s.state.Wf → I s → ExecuteStep ex action s answer s' → I s') :
    Carries (fun w : World S σ => C w.snapshot) (fun w => I w.snapshot) (ex.execute action) :=
  fun w hw => ⟨fun c hc => hcut _ _ (view_wf w.store) hw (execute_cut ex action w c hc),
    hstep _ _ _ (view_wf w.store) hw (execute_step ex action w)⟩

end Refinement

/-! ## Outside the store -/

section Outside

variable {S : Type} {I : σ → List GuardEvent → Prop}

open GuardedExecutor

/-- A condition on the environment and the journal, and on nothing in the store. -/
abbrev World.Outside (I : σ → List GuardEvent → Prop) (w : World S σ) : Prop :=
  I w.env w.journal

/-- A read-only transaction leaves everything outside the store as it is. -/
theorem read_outside {α : Type} (f : World S σ → α) :
    Carries (World.Outside I) (World.Outside I) (read f : Program (World S σ) PyExc α) :=
  Carries.read f fun _ h => h

/-- So does one that rewrites the store. -/
theorem store_outside (store : World S σ → S) :
    Carries (World.Outside I) (World.Outside I)
      (write fun w => { w with store := store w } : Program (World S σ) PyExc Unit) :=
  Carries.write fun _ h => ⟨h, h⟩

variable [GuardStore S] {ex : GuardedExecutor σ} {action : Action}

theorem finish_outside (status : ExecutionStatus) (result : PyVal) (id : Option ApprovalId)
    (detail : String) :
    Carries (World.Outside (S := S) I) (World.Outside I)
      (ex.finish action status result id detail) :=
  Carries.bind (store_outside _) fun _ => .pure _

/-- The gate reads the clock when it queues. -/
theorem approvalGate_outside
    (hnow : ∀ env journal, I env journal → I (ex.now env).2 journal) :
    Carries (World.Outside (S := S) I) (World.Outside I) (ex.approvalGate action) := by
  have hanswer : ∀ approval : ApprovalRecord,
      Carries (World.Outside (S := S) I) (World.Outside I)
        (if approval.state = .approved then return none else do
          let result ← ex.finish action .pendingApproval .none (some approval.approvalId)
            (if approval.state = .pending then "awaiting human approval"
              else "approval was rejected; not executing")
          return some result) := by
    intro approval
    split
    · exact .pure _
    · exact Carries.bind (finish_outside _ _ _ _) fun _ => .pure _
  unfold approvalGate
  split
  · refine Carries.bind (read_outside _) fun existing => ?_
    cases existing with
    | some approval => exact Carries.bind (.pure _) hanswer
    | none =>
      refine Carries.bind (.orRaise _) fun paramsJson => Carries.bind ?_ hanswer
      exact Carries.step fun w hw => ⟨hnow _ _ hw, hnow _ _ hw⟩
  · exact .pure _

/-- The handler is the one step of the effect that reaches outside. -/
theorem perform_outside {handler : EffectHandler σ}
    (hinvoke : ∀ env journal approval, I env journal → I (handler action env).2 (journal ++
      [.invoked ⟨ex.runId, ex.policy, action, approval, (handler action env).1⟩])) :
    Carries (World.Outside (S := S) I) (World.Outside I) (ex.perform handler action) := by
  refine Carries.bind (Carries.tryCatch (Carries.attempt fun w hw => ?_) fun exc => ?_)
    fun result => ?_
  · -- the call itself
    exact ⟨hinvoke _ _ _ hw, hinvoke _ _ _ hw⟩
  · -- a raising handler is logged and the exception goes on
    exact Carries.bind (store_outside _) fun _ => .throw _
  · -- the value is charged, stored and logged
    refine Carries.bind (.orRaise _) fun _ => ?_
    exact Carries.bind (store_outside _) fun _ =>
      Carries.bind (store_outside _) fun _ => finish_outside _ _ _ _

theorem spend_outside {handler : EffectHandler σ}
    (hinvoke : ∀ env journal approval, I env journal → I (handler action env).2 (journal ++
      [.invoked ⟨ex.runId, ex.policy, action, approval, (handler action env).1⟩])) :
    Carries (World.Outside (S := S) I) (World.Outside I) (ex.spend handler action) := by
  refine Carries.bind (read_outside _) fun used => ?_
  split
  · exact finish_outside _ _ _ _
  · refine Carries.bind (read_outside _) fun spent => ?_
    split
    · exact Carries.bind (store_outside _) fun _ => finish_outside _ _ _ _
    · exact perform_outside hinvoke

/-- What the executor keeps of the environment and the journal: of its environment, its
clock and the handler of the action alone can change anything. -/
theorem execute_carries_outside
    (hcalled : ∀ env journal, I env journal → I env (journal ++ [.called ex.runId action]))
    (hnow : ∀ env journal, I env journal → I (ex.now env).2 journal)
    (hinvoke : ∀ handler, ex.handlers.get? action.name = some handler →
      ∀ env journal approval, I env journal → I (handler action env).2 (journal ++
        [.invoked ⟨ex.runId, ex.policy, action, approval, (handler action env).1⟩])) :
    Carries (fun w : World S σ => I w.env w.journal) (fun w => I w.env w.journal)
      (ex.execute action) := by
  refine Carries.bind (Carries.step fun w hw => ⟨hcalled _ _ hw, hcalled _ _ hw⟩) fun halted => ?_
  split
  · exact finish_outside _ _ _ _
  · refine Carries.bind (read_outside _) fun existing => ?_
    cases existing with
    | some existing => exact Carries.bind (.orRaise _) fun _ => finish_outside _ _ _ _
    | none =>
      cases hhandler : ex.handlers.get? action.name with
      | none => exact .throw _
      | some handler =>
        refine Carries.bind (approvalGate_outside hnow) fun held => ?_
        cases held with
        | some result => exact .pure _
        | none => exact spend_outside (hinvoke handler hhandler)

end Outside

end PaymentRecovery.Guardrails

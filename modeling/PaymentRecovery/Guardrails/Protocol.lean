import PaymentRecovery.Guardrails.Executor

/-!
# What one executor call can do

The abstract protocol of the guardrail layer, over the state a store stands for
and the journal. `ExecuteStep` and `CallStep` list every way a call can go, with
its guards, its answer and the state it leaves; `execute_step` and `call_step`
say that the executor over any lawful store goes one of these ways. Every
invariant is proved from these lists.
-/

namespace PaymentRecovery.Guardrails

open PaymentRecovery.Python PaymentRecovery.Lib Program

/-- What can be told about a guarded world: the state of its store and the journal. -/
structure Snapshot where
  state : GuardState
  journal : List GuardEvent

namespace Snapshot

/-- Nobody has called anything yet. -/
def init : Snapshot := ⟨.init, []⟩

/-- The handler runs, in order. -/
def invocations (s : Snapshot) : List Invocation :=
  s.journal.filterMap fun
    | .called _ _ => none
    | .invoked inv => some inv

/-- `execute` was entered. -/
def called (s : Snapshot) (run : String) (action : Action) : Snapshot :=
  { s with journal := s.journal ++ [.called run action] }

/-- A handler ran. -/
def invoked (s : Snapshot) (inv : Invocation) : Snapshot :=
  { s with journal := s.journal ++ [.invoked inv] }

/-- The next audit entry of the run was appended. -/
def logged (s : Snapshot) (run : String) (action : Action) (decision detail : String) :
    Snapshot :=
  { s with state := s.state.logged (s.state.nextEntry run action.name action.subjectId
      action.idempotencyKey action.cost decision detail) }

def held (s : Snapshot) (rec : ApprovalRecord) : Snapshot :=
  { s with state := s.state.held rec }

def decided (s : Snapshot) (id : ApprovalId) (st : ApprovalState) : Snapshot :=
  { s with state := s.state.decided id st }

def tripped (s : Snapshot) (run : String) : Snapshot :=
  { s with state := s.state.tripped run }

/-- The effect was charged and its result stored. -/
def settled (s : Snapshot) (run : String) (action : Action) (resultJson : JsonText) : Snapshot :=
  { s with state := ((s.state.charged run action.subjectId action.cost).stored
      ⟨run, action.idempotencyKey, ExecutionStatus.executed.value, resultJson⟩) }

@[simp] theorem invocations_called (s : Snapshot) (run : String) (action : Action) :
    (s.called run action).invocations = s.invocations := by
  simp [invocations, called]

@[simp] theorem invocations_invoked (s : Snapshot) (inv : Invocation) :
    (s.invoked inv).invocations = s.invocations ++ [inv] := by
  simp [invocations, invoked]

@[simp] theorem invocations_logged (s : Snapshot) (run : String) (action : Action)
    (decision detail : String) :
    (s.logged run action decision detail).invocations = s.invocations := rfl

@[simp] theorem invocations_held (s : Snapshot) (rec : ApprovalRecord) :
    (s.held rec).invocations = s.invocations := rfl

@[simp] theorem invocations_decided (s : Snapshot) (id : ApprovalId) (st : ApprovalState) :
    (s.decided id st).invocations = s.invocations := rfl

@[simp] theorem invocations_tripped (s : Snapshot) (run : String) :
    (s.tripped run).invocations = s.invocations := rfl

@[simp] theorem invocations_settled (s : Snapshot) (run : String) (action : Action)
    (j : JsonText) : (s.settled run action j).invocations = s.invocations := rfl

end Snapshot

variable {σ : Type}

/-- Breaker, idempotency, registry and approval gate let the action pass. -/
structure Cleared (ex : GuardedExecutor σ) (action : Action) (g : GuardState) : Prop where
  closed : g.breaker ex.runId = false
  fresh : g.result ex.runId action.idempotencyKey = none
  known : ∃ handler, ex.handlers.get? action.name = some handler
  approved : ex.policy.approvalThreshold < action.cost →
    ∃ rec, g.approval ex.runId action.idempotencyKey = some rec ∧ rec.state = .approved

/-- Every guard lets the action pass. -/
structure Admitted (ex : GuardedExecutor σ) (action : Action) (g : GuardState) : Prop
    extends Cleared ex action g where
  budget : (g.count ex.runId action.subjectId : Int) < ex.policy.perSubjectActionBudget
  cap : g.spend ex.runId + action.cost ≤ ex.policy.perRunSpendCap

/-- The registered handler can end this way. -/
def Yields (ex : GuardedExecutor σ) (action : Action) (outcome : Except PyExc PyVal) : Prop :=
  ∃ handler env, ex.handlers.get? action.name = some handler ∧ (handler action env).1 = outcome

/-- The journal entry of a handler run in a given state. -/
def invocationIn (ex : GuardedExecutor σ) (action : Action) (g : GuardState)
    (outcome : Except PyExc PyVal) : Invocation :=
  ⟨ex.runId, ex.policy, action, g.approval ex.runId action.idempotencyKey, outcome⟩

/-- The ways of one call to `execute`. -/
inductive ExecuteStep (ex : GuardedExecutor σ) (action : Action) (s : Snapshot) :
    Except PyExc ExecutionResult → Snapshot → Prop
  | breakerOpen (hopen : s.state.breaker ex.runId = true) :
    ExecuteStep ex action s
      (.ok ⟨.rejectedBreakerOpen, action.idempotencyKey, .none, none,
        "spend-cap breaker open; run halted"⟩)
      ((s.called ex.runId action).logged ex.runId action "rejected_breaker_open"
        "spend-cap breaker open; run halted")
  | duplicate (rec : IdempotencyRecord) (result : PyVal)
    (hclosed : s.state.breaker ex.runId = false)
    (hrec : s.state.result ex.runId action.idempotencyKey = some rec)
    (hload : jsonLoads rec.resultJson = .ok result) :
    ExecuteStep ex action s
      (.ok ⟨.duplicate, action.idempotencyKey, result, none,
        "idempotent replay of a completed action"⟩)
      ((s.called ex.runId action).logged ex.runId action "duplicate"
        "idempotent replay of a completed action")
  | corrupt (rec : IdempotencyRecord) (exc : PyExc)
    (hclosed : s.state.breaker ex.runId = false)
    (hrec : s.state.result ex.runId action.idempotencyKey = some rec)
    (hload : jsonLoads rec.resultJson = .error exc) :
    ExecuteStep ex action s (.error exc) (s.called ex.runId action)
  | unknownAction
    (hclosed : s.state.breaker ex.runId = false)
    (hfresh : s.state.result ex.runId action.idempotencyKey = none)
    (hunknown : ex.handlers.get? action.name = none) :
    ExecuteStep ex action s (.error ⟨.unknownActionError, action.name⟩)
      (s.called ex.runId action)
  | unserialisable (exc : PyExc)
    (hclosed : s.state.breaker ex.runId = false)
    (hfresh : s.state.result ex.runId action.idempotencyKey = none)
    (hgated : ex.policy.approvalThreshold < action.cost)
    (hnone : s.state.approval ex.runId action.idempotencyKey = none)
    (hdump : jsonDumps action.params = .error exc) :
    ExecuteStep ex action s (.error exc) (s.called ex.runId action)
  | enqueued (id : ApprovalId) (paramsJson : JsonText) (t : Time)
    (hclosed : s.state.breaker ex.runId = false)
    (hfresh : s.state.result ex.runId action.idempotencyKey = none)
    (hgated : ex.policy.approvalThreshold < action.cost)
    (hnone : s.state.approval ex.runId action.idempotencyKey = none)
    (hdump : jsonDumps action.params = .ok paramsJson)
    (hid : s.state.approvalKey id = none) :
    ExecuteStep ex action s
      (.ok ⟨.pendingApproval, action.idempotencyKey, .none, some id, "awaiting human approval"⟩)
      (((s.called ex.runId action).held ⟨id, ex.runId, action.idempotencyKey, action.name,
        action.subjectId, action.cost, paramsJson, .pending, t⟩).logged ex.runId action
        "pending_approval" "awaiting human approval")
  | undecided (rec : ApprovalRecord) (detail : String)
    (hclosed : s.state.breaker ex.runId = false)
    (hfresh : s.state.result ex.runId action.idempotencyKey = none)
    (hgated : ex.policy.approvalThreshold < action.cost)
    (hrec : s.state.approval ex.runId action.idempotencyKey = some rec)
    (hstate : rec.state ≠ .approved) :
    ExecuteStep ex action s
      (.ok ⟨.pendingApproval, action.idempotencyKey, .none, some rec.approvalId, detail⟩)
      ((s.called ex.runId action).logged ex.runId action "pending_approval" detail)
  | overBudget (detail : String) (hclear : Cleared ex action s.state)
    (hbudget : ex.policy.perSubjectActionBudget ≤ (s.state.count ex.runId action.subjectId : Int)) :
    ExecuteStep ex action s
      (.ok ⟨.rejectedActionBudget, action.idempotencyKey, .none, none, detail⟩)
      ((s.called ex.runId action).logged ex.runId action "rejected_action_budget" detail)
  | overCap (hclear : Cleared ex action s.state)
    (hbudget : (s.state.count ex.runId action.subjectId : Int) < ex.policy.perSubjectActionBudget)
    (hcap : ex.policy.perRunSpendCap < s.state.spend ex.runId + action.cost) :
    ExecuteStep ex action s
      (.ok ⟨.rejectedSpendCap, action.idempotencyKey, .none, none,
        "spend-cap breaker tripped by this action"⟩)
      (((s.called ex.runId action).tripped ex.runId).logged ex.runId action "rejected_spend_cap"
        "spend-cap breaker tripped by this action")
  | raised (exc : PyExc) (hadm : Admitted ex action s.state)
    (hyields : Yields ex action (.error exc)) :
    ExecuteStep ex action s (.error exc)
      (((s.called ex.runId action).invoked (invocationIn ex action s.state (.error exc))).logged
        ex.runId action "error" exc.repr)
  | unstorable (result : PyVal) (exc : PyExc) (hadm : Admitted ex action s.state)
    (hyields : Yields ex action (.ok result)) (hdump : jsonDumps result = .error exc) :
    ExecuteStep ex action s (.error exc)
      ((s.called ex.runId action).invoked (invocationIn ex action s.state (.ok result)))
  | executed (result : PyVal) (resultJson : JsonText) (hadm : Admitted ex action s.state)
    (hyields : Yields ex action (.ok result)) (hdump : jsonDumps result = .ok resultJson) :
    ExecuteStep ex action s
      (.ok ⟨.executed, action.idempotencyKey, result, none, "executed"⟩)
      ((((s.called ex.runId action).invoked (invocationIn ex action s.state (.ok result))).settled
        ex.runId action resultJson).logged ex.runId action "executed" "executed")

/-- One call on an executor. -/
inductive Call (σ : Type) where
  | execute (ex : GuardedExecutor σ) (action : Action)
  | approve (ex : GuardedExecutor σ) (id : ApprovalId)
  | rejectApproval (ex : GuardedExecutor σ) (id : ApprovalId)

/-- The executor a call is made on. -/
def Call.executor : Call σ → GuardedExecutor σ
  | .execute ex _ => ex
  | .approve ex _ => ex
  | .rejectApproval ex _ => ex

/-- What the call runs; only `rejectApproval` returns nothing. -/
def Call.program {S : Type} [GuardStore S] :
    Call σ → Program (World S σ) PyExc (Option ExecutionResult)
  | .execute ex action => some <$> ex.execute action
  | .approve ex id => some <$> ex.approve id
  | .rejectApproval ex id => (fun _ => none) <$> ex.rejectApproval id

section Programs

variable {S : Type} [GuardStore S] (ex : GuardedExecutor σ) (w : World S σ)

theorem run_execute_program (action : Action) :
    ((Call.execute ex action).program.run w).2 = ((ex.execute action).run w).2 := by
  unfold Call.program
  rw [run_map]

theorem run_approve_program (id : ApprovalId) :
    ((Call.approve ex id).program.run w).2 = ((ex.approve id).run w).2 := by
  unfold Call.program
  rw [run_map]

theorem run_rejectApproval_program (id : ApprovalId) :
    ((Call.rejectApproval ex id).program.run w).2 = ((ex.rejectApproval id).run w).2 := by
  unfold Call.program
  rw [run_map]

end Programs

/-- The ways of one call. -/
inductive CallStep (s : Snapshot) :
    Call σ → Except PyExc (Option ExecutionResult) → Snapshot → Prop
  | execute (ex : GuardedExecutor σ) (action : Action) (answer : Except PyExc ExecutionResult)
    (s' : Snapshot) (hstep : ExecuteStep ex action s answer s') :
    CallStep s (.execute ex action) (some <$> answer) s'
  | approveRefused (ex : GuardedExecutor σ) (id : ApprovalId) (exc : PyExc)
    (hrefused : ∀ rec, s.state.approvalById id = some rec → rec.runId ≠ ex.runId) :
    CallStep s (.approve ex id) (.error exc) s
  | rejectRefused (ex : GuardedExecutor σ) (id : ApprovalId) (exc : PyExc)
    (hrefused : ∀ rec, s.state.approvalById id = some rec → rec.runId ≠ ex.runId) :
    CallStep s (.rejectApproval ex id) (.error exc) s
  | unreadable (ex : GuardedExecutor σ) (id : ApprovalId) (rec : ApprovalRecord) (exc : PyExc)
    (hrec : s.state.approvalById id = some rec) (hrun : rec.runId = ex.runId)
    (hload : jsonLoads rec.paramsJson = .error exc) :
    CallStep s (.approve ex id) (.error exc) (s.decided id .approved)
  | approve (ex : GuardedExecutor σ) (id : ApprovalId) (rec : ApprovalRecord) (params : PyVal)
    (answer : Except PyExc ExecutionResult) (s' : Snapshot)
    (hrec : s.state.approvalById id = some rec) (hrun : rec.runId = ex.runId)
    (hload : jsonLoads rec.paramsJson = .ok params)
    (hstep : ExecuteStep ex
      ⟨rec.actionName, rec.subjectId, rec.idempotencyKey, rec.cost, params⟩
      (s.decided id .approved) answer s') :
    CallStep s (.approve ex id) (some <$> answer) s'
  | rejectApproval (ex : GuardedExecutor σ) (id : ApprovalId) (rec : ApprovalRecord)
    (hrec : s.state.approvalById id = some rec) (hrun : rec.runId = ex.runId) :
    CallStep s (.rejectApproval ex id) (.ok none) (s.decided id .rejected)

/-! ## The executor goes one of these ways -/

section Refinement

variable {S : Type} [GuardStore S] [LawfulGuardStore S]

/-- What a world shows. -/
def World.snapshot (w : World S σ) : Snapshot :=
  ⟨LawfulGuardStore.view w.store, w.journal⟩

open GuardedExecutor LawfulGuardStore

variable {ex : GuardedExecutor σ} {action : Action} {w : World S σ} {s : Snapshot}

/-- The world with one more audit entry. -/
def World.audited (w : World S σ) (run : String) (action : Action) (decision detail : String) :
    World S σ :=
  { w with store := (GuardStore.appendAudit w.store run action.name action.subjectId
      action.idempotencyKey action.cost decision detail).2 }

@[simp] theorem snapshot_audited (w : World S σ) (run : String) (action : Action)
    (decision detail : String) :
    (w.audited run action decision detail).snapshot =
      w.snapshot.logged run action decision detail := by
  unfold World.snapshot Snapshot.logged World.audited
  rw [(view_appendAudit _ _ _ _ _ _ _ _).2]

omit [LawfulGuardStore S] in
@[simp] theorem run_audit (ex : GuardedExecutor σ) (action : Action) (decision detail : String)
    (w : World S σ) :
    (ex.audit action decision detail).run w =
      (.ok (), w.audited ex.runId action decision detail) := rfl

omit [LawfulGuardStore S] in
@[simp] theorem run_finish (ex : GuardedExecutor σ) (action : Action) (status : ExecutionStatus)
    (result : PyVal) (id : Option ApprovalId) (detail : String) (w : World S σ) :
    (ex.finish action status result id detail).run w =
      (.ok ⟨status, action.idempotencyKey, result, id, detail⟩,
        w.audited ex.runId action status.value detail) := by
  simp [finish]

/-- Charging and storing a result for a key without one. -/
theorem snapshot_settled (w : World S σ) (run : String) (action : Action) (j : JsonText)
    (hfresh : w.snapshot.state.result run action.idempotencyKey = none) :
    ({ w with store := (GuardStore.putResult
      (GuardStore.recordExecution w.store run action.subjectId action.cost) run
      action.idempotencyKey ExecutionStatus.executed.value j) } : World S σ).snapshot =
      w.snapshot.settled run action j := by
  unfold World.snapshot Snapshot.settled
  rw [view_putResult, view_recordExecution]
  rw [view_recordExecution]
  exact hfresh

@[simp] theorem snapshot_tripped (w : World S σ) (run : String) :
    ({ w with store := GuardStore.tripBreaker w.store run } : World S σ).snapshot =
      w.snapshot.tripped run := by
  unfold World.snapshot Snapshot.tripped
  rw [view_tripBreaker]

/-- The world after the handler of an action: its environment, and the entry of its call. -/
def World.afterHandler (w : World S σ) (ex : GuardedExecutor σ) (action : Action)
    (outcome : Except PyExc PyVal) (env : σ) : World S σ :=
  ⟨w.store, env, w.journal ++ [.invoked ⟨ex.runId, ex.policy, action,
    GuardStore.getApproval w.store ex.runId action.idempotencyKey, outcome⟩]⟩

theorem snapshot_afterHandler (hw : w.snapshot = s.called ex.runId action)
    (outcome : Except PyExc PyVal) (env : σ) :
    (w.afterHandler ex action outcome env).snapshot =
      (s.called ex.runId action).invoked (invocationIn ex action s.state outcome) := by
  have happ : GuardStore.getApproval w.store ex.runId action.idempotencyKey =
      s.state.approval ex.runId action.idempotencyKey := by
    rw [getApproval_eq]
    exact congrArg (fun t : Snapshot => t.state.approval ex.runId action.idempotencyKey) hw
  unfold World.afterHandler
  rw [happ, ← hw]
  rfl

/-- Queueing under a key without a record: a new id, and a record of the action. -/
theorem run_createPending (ex : GuardedExecutor σ) (action : Action) (paramsJson : JsonText)
    (hnone : w.snapshot.state.approval ex.runId action.idempotencyKey = none) :
    ∃ id w', w.snapshot.state.approvalKey id = none ∧
      (ex.createPending action paramsJson).run w =
        (.ok ⟨id, ex.runId, action.idempotencyKey, action.name, action.subjectId, action.cost,
          paramsJson, .pending, (ex.now w.env).1⟩, w') ∧
      w'.snapshot = w.snapshot.held ⟨id, ex.runId, action.idempotencyKey, action.name,
        action.subjectId, action.cost, paramsJson, .pending, (ex.now w.env).1⟩ := by
  obtain ⟨id, store, hid, hcreate, hheld⟩ := view_createPending w.store ex.runId
    action.idempotencyKey action.name action.subjectId action.cost paramsJson
    (ex.now w.env).1 hnone
  refine ⟨id, { w with store := store, env := (ex.now w.env).2 }, hid, ?_, ?_⟩
  · simp only [createPending, run_step, hcreate]
  · unfold World.snapshot Snapshot.held
    rw [hheld]

/-- The effect itself, once every guard has let the action pass. -/
theorem perform_step {handler : EffectHandler σ}
    (hw : w.snapshot = s.called ex.runId action) (hadm : Admitted ex action s.state)
    (hhandler : ex.handlers.get? action.name = some handler) :
    ExecuteStep ex action s ((ex.perform handler action).run w).1
      ((ex.perform handler action).run w).2.snapshot := by
  have hinv := snapshot_afterHandler hw
  unfold World.afterHandler at hinv
  unfold perform invoke
  cases hout : handler action w.env with
  | mk outcome env =>
    have hyields : Yields ex action outcome := ⟨handler, w.env, hhandler, by rw [hout]⟩
    cases outcome with
    | error exc =>
      -- logged as an error, and nothing charged or stored
      simp only [run_bind, run_tryCatch, run_attempt, hout, run_audit, run_throw,
        snapshot_audited, hinv]
      exact .raised exc hadm hyields
    | ok result =>
      simp only [run_bind, run_tryCatch, run_attempt, hout]
      cases hdump : jsonDumps result with
      | error exc =>
        -- the effect happened, and nothing tells
        simp only [run_orRaise, hinv]
        exact .unstorable result exc hadm hyields hdump
      | ok resultJson =>
        simp only [run_orRaise, run_write, run_finish, snapshot_audited]
        have hsettled := snapshot_settled (⟨w.store, env, w.journal ++ [.invoked ⟨ex.runId,
          ex.policy, action, GuardStore.getApproval w.store ex.runId action.idempotencyKey,
          .ok result⟩]⟩ : World S σ) ex.runId action resultJson (by
            rw [hinv]
            exact hadm.fresh)
        rw [hsettled, hinv]
        exact .executed result resultJson hadm hyields hdump

/-- The two limits and the effect, for an action the gate has let pass. -/
theorem spend_step {handler : EffectHandler σ}
    (hw : w.snapshot = s.called ex.runId action) (hclear : Cleared ex action s.state)
    (hhandler : ex.handlers.get? action.name = some handler) :
    ExecuteStep ex action s ((ex.spend handler action).run w).1
      ((ex.spend handler action).run w).2.snapshot := by
  have hview : LawfulGuardStore.view w.store = s.state := congrArg Snapshot.state hw
  unfold spend
  simp only [run_bind, run_read, subjectExecutedCount_eq, hview]
  split
  · rename_i hbudget
    simp only [run_finish, snapshot_audited, hw]
    exact .overBudget _ hclear hbudget
  · rename_i hbudget
    simp only [run_bind, run_read, accumulatedSpend_eq, hview]
    split
    · rename_i hcap
      simp only [run_bind, run_write, run_finish, snapshot_audited, snapshot_tripped, hw]
      exact .overCap hclear (Int.not_le.mp hbudget) hcap
    · rename_i hcap
      exact perform_step hw ⟨hclear, Int.not_le.mp hbudget, Rat.not_lt.mp hcap⟩ hhandler

/-- The gate lets the action pass and changes nothing, or the call ends there. -/
theorem approvalGate_step
    (hw : w.snapshot = s.called ex.runId action)
    (hclosed : s.state.breaker ex.runId = false)
    (hfresh : s.state.result ex.runId action.idempotencyKey = none)
    (hknown : ∃ handler, ex.handlers.get? action.name = some handler) :
    ((ex.approvalGate action).run w = (.ok none, w) ∧ Cleared ex action s.state) ∨
    (∃ result w', (ex.approvalGate action).run w = (.ok (some result), w') ∧
      ExecuteStep ex action s (.ok result) w'.snapshot) ∨
    (∃ exc w', (ex.approvalGate action).run w = (.error exc, w') ∧
      ExecuteStep ex action s (.error exc) w'.snapshot) := by
  have hview : LawfulGuardStore.view w.store = s.state := congrArg Snapshot.state hw
  unfold approvalGate
  split
  · rename_i hgated
    simp only [run_bind, run_read, getApproval_eq, hview]
    cases hrec : s.state.approval ex.runId action.idempotencyKey with
    | some rec =>
      -- queued before: approved, or still to be decided
      simp only [run_bind, run_pure]
      split
      · rename_i hstate
        exact .inl ⟨rfl, hclosed, hfresh, hknown, fun _ => ⟨rec, hrec, hstate⟩⟩
      · rename_i hstate
        refine .inr (.inl ⟨_, _, by
          simp only [run_bind, run_finish, run_pure]; rfl, ?_⟩)
        rw [snapshot_audited, hw]
        exact .undecided rec _ hclosed hfresh hgated hrec hstate
    | none =>
      cases hdump : jsonDumps action.params with
      | error exc =>
        refine .inr (.inr ⟨exc, w, by simp only [run_bind, run_orRaise], ?_⟩)
        rw [hw]
        exact .unserialisable exc hclosed hfresh hgated hrec hdump
      | ok paramsJson =>
        obtain ⟨id, w', hid, hpend, hheld⟩ := run_createPending ex action paramsJson
          (show w.snapshot.state.approval _ _ = none by rw [hw]; exact hrec)
        rw [hw] at hid hheld
        refine .inr (.inl ⟨_, _, by
          simp only [run_bind, run_orRaise, hpend, reduceCtorEq, if_false, if_true, run_finish,
            run_pure]; rfl, ?_⟩)
        rw [snapshot_audited, hheld]
        exact .enqueued id paramsJson _ hclosed hfresh hgated hrec hdump hid
  · -- at or below the threshold the gate is not asked
    rename_i hgated
    exact .inl ⟨rfl, hclosed, hfresh, hknown, fun h => absurd h hgated⟩

/-- One call to `execute`, over any lawful store. -/
theorem execute_step (ex : GuardedExecutor σ) (action : Action) (w : World S σ) :
    ExecuteStep ex action w.snapshot ((ex.execute action).run w).1
      ((ex.execute action).run w).2.snapshot := by
  have hcalled : ({ w with journal := w.journal ++ [.called ex.runId action] } :
      World S σ).snapshot = w.snapshot.called ex.runId action := rfl
  unfold execute
  simp only [run_bind, run_step, isBreakerOpen_eq]
  cases hbreaker : (LawfulGuardStore.view w.store).breaker ex.runId with
  | true =>
    simp only [if_true, run_finish, snapshot_audited, hcalled]
    exact .breakerOpen hbreaker
  | false =>
    simp only [Bool.false_eq_true, if_false, run_bind, run_read, getResult_eq]
    cases hres : (LawfulGuardStore.view w.store).result ex.runId action.idempotencyKey with
    | some rec =>
      cases hload : jsonLoads rec.resultJson with
      | error exc =>
        simp only [run_bind, hload, run_orRaise, hcalled]
        exact .corrupt rec exc hbreaker hres hload
      | ok result =>
        simp only [run_bind, hload, run_orRaise, run_finish, snapshot_audited, hcalled]
        exact .duplicate rec result hbreaker hres hload
    | none =>
      cases hhandler : ex.handlers.get? action.name with
      | none =>
        simp only [run_throw, hcalled]
        exact .unknownAction hbreaker hres hhandler
      | some handler =>
        simp only [run_bind]
        rcases approvalGate_step hcalled hbreaker hres ⟨handler, hhandler⟩ with
          ⟨hrun, hclear⟩ | ⟨result, w', hrun, hstep⟩ | ⟨exc, w', hrun, hstep⟩
        · rw [hrun]
          exact spend_step hcalled hclear hhandler
        · rw [hrun]
          exact hstep
        · rw [hrun]
          exact hstep

omit [LawfulGuardStore S] in
theorem run_requireApproval (ex : GuardedExecutor σ) (id : ApprovalId) (w : World S σ) :
    (∃ rec, GuardStore.getApprovalById w.store id = some rec ∧ rec.runId = ex.runId ∧
      (ex.requireApproval id).run w = (.ok rec, w)) ∨
    (∃ exc, (∀ rec, GuardStore.getApprovalById w.store id = some rec → rec.runId ≠ ex.runId) ∧
      (ex.requireApproval id).run w = (.error exc, w)) := by
  unfold requireApproval
  simp only [run_bind, run_read]
  cases hrec : GuardStore.getApprovalById w.store id with
  | none => exact .inr ⟨_, fun rec h => by simp at h, rfl⟩
  | some rec =>
    by_cases hrun : rec.runId = ex.runId
    · exact .inl ⟨rec, rfl, hrun, by simp only [hrun, if_true, run_pure]⟩
    · refine .inr ⟨_, fun rec' h => ?_, by simp only [hrun, if_false, run_throw]; rfl⟩
      rw [← Option.some.inj h]
      exact hrun

/-- Deciding a known approval changes its state and nothing else. -/
theorem run_setApprovalState {id : ApprovalId} {rec : ApprovalRecord}
    (hrec : w.snapshot.state.approvalById id = some rec) (st : ApprovalState) :
    ∃ w', (setApprovalState id st : Program (World S σ) PyExc Unit).run w = (.ok (), w') ∧
      w'.env = w.env ∧ w'.snapshot = w.snapshot.decided id st := by
  obtain ⟨store, hset, hview⟩ := view_setApprovalState w.store id st rec hrec
  refine ⟨{ w with store := store }, ?_, rfl, ?_⟩
  · simp only [setApprovalState, run_attempt, hset]
  · unfold World.snapshot Snapshot.decided
    rw [hview]

theorem GuardState.decided_self {g : GuardState} (hwf : g.Wf) {id : ApprovalId}
    {rec : ApprovalRecord} (hrec : g.approvalById id = some rec) :
    g.decided id rec.state = g := by
  obtain ⟨hid, hown⟩ := hwf.approvalById_own hrec
  obtain ⟨_, _, hkey⟩ := hwf.approval_own _ _ _ hown
  unfold decided
  congr 1
  funext r k
  split
  · rename_i h
    rw [← hid, hkey] at h
    injection h with h
    injection h with hr hk
    rw [← hr, ← hk, hown]
    rfl
  · rfl

/-- The record is marked approved, whatever it was before. -/
theorem run_markApproved {id : ApprovalId} {rec : ApprovalRecord}
    (hrec : w.snapshot.state.approvalById id = some rec) :
    ∃ w', (if rec.state = .approved then pure () else
        setApprovalState id .approved : Program (World S σ) PyExc Unit).run w = (.ok (), w') ∧
      w'.env = w.env ∧ w'.snapshot = w.snapshot.decided id .approved := by
  by_cases hstate : rec.state = .approved
  · refine ⟨w, by rw [if_pos hstate]; rfl, rfl, ?_⟩
    have hself := GuardState.decided_self (view_wf w.store) hrec
    rw [hstate] at hself
    unfold Snapshot.decided
    exact congrArg (Snapshot.mk · w.journal) hself.symm
  · rw [if_neg hstate]
    exact run_setApprovalState hrec .approved

/-- `approve` marks the record and presents the recorded action. -/
theorem run_approve {ex : GuardedExecutor σ} {id : ApprovalId} {rec : ApprovalRecord}
    (hrec : w.snapshot.state.approvalById id = some rec) (hrun : rec.runId = ex.runId) :
    ∃ w', w'.env = w.env ∧ w'.snapshot = w.snapshot.decided id .approved ∧
      (ex.approve id).run w = (orRaise (actionFromApproval rec) >>= ex.execute).run w' := by
  obtain ⟨w', hmark, henv, hsnap⟩ := run_markApproved hrec
  refine ⟨w', henv, hsnap, ?_⟩
  have hreq : (ex.requireApproval id).run w = (.ok rec, w) := by
    have hby : GuardStore.getApprovalById w.store id = some rec := by
      rw [getApprovalById_eq]
      exact hrec
    simp only [requireApproval, run_bind, run_read, hby, hrun, if_true, run_pure]
  unfold approve
  rw [run_bind, hreq]
  by_cases hstate : rec.state = .approved
  · rw [if_pos hstate] at hmark
    injection hmark with _ hw
    simp only [if_pos hstate, hw]
  · rw [if_neg hstate] at hmark
    simp only [if_neg hstate, run_bind, hmark]

/-- One call, over any lawful store. -/
theorem call_step (call : Call σ) (w : World S σ) :
    CallStep w.snapshot call (call.program.run w).1 (call.program.run w).2.snapshot := by
  cases call with
  | execute ex action =>
    unfold Call.program
    rw [run_map]
    exact .execute ex action _ _ (execute_step ex action w)
  | approve ex id =>
    unfold Call.program
    rw [run_map]
    rcases run_requireApproval ex id w with ⟨rec, hrec, hrun, _⟩ | ⟨exc, hrefused, hreq⟩
    · rw [getApprovalById_eq] at hrec
      obtain ⟨w', _, hsnap, happrove⟩ := run_approve hrec hrun
      rw [happrove]
      cases hload : jsonLoads rec.paramsJson with
      | error exc =>
        have hact : actionFromApproval rec = .error exc := by
          unfold actionFromApproval
          rw [hload]
          rfl
        simp only [run_bind, hact, run_orRaise, hsnap]
        exact .unreadable ex id rec exc hrec hrun hload
      | ok params =>
        have hact : actionFromApproval rec = .ok ⟨rec.actionName, rec.subjectId,
            rec.idempotencyKey, rec.cost, params⟩ := by
          unfold actionFromApproval
          rw [hload]
          rfl
        simp only [run_bind, hact, run_orRaise]
        refine .approve ex id rec params _ _ hrec hrun hload ?_
        rw [← hsnap]
        exact execute_step ex _ w'
    · simp only [approve, run_bind, hreq]
      refine .approveRefused ex id exc fun rec hrec => hrefused rec ?_
      rw [getApprovalById_eq]
      exact hrec
  | rejectApproval ex id =>
    unfold Call.program
    rw [run_map]
    rcases run_requireApproval ex id w with ⟨rec, hrec, hrun, hreq⟩ | ⟨exc, hrefused, hreq⟩
    · rw [getApprovalById_eq] at hrec
      obtain ⟨w', hset, _, hsnap⟩ := run_setApprovalState hrec .rejected
      simp only [rejectApproval, run_bind, hreq, hset, hsnap]
      exact .rejectApproval ex id rec hrec hrun
    · simp only [rejectApproval, run_bind, hreq]
      refine .rejectRefused ex id exc fun rec hrec => hrefused rec ?_
      rw [getApprovalById_eq]
      exact hrec

end Refinement

end PaymentRecovery.Guardrails

import PaymentRecovery.Guardrails.Crash
import PaymentRecovery.Guardrails.InMemoryStore
import PaymentRecovery.Guardrails.SqlStore
import PaymentRecovery.Lib.Threads

/-!
# Workers that share a guard store

Several workers make executor calls on one store at the same time. Each store
method and each handler run is one transaction (the in-memory store holds its lock
through a method, the SQL store a session); between two of them any other worker
may act. `Point` says how far a call has come and `Move` what its next
transaction may do, with the guard the code has just read. `Call.comesHome` says
that every call goes by these moves. What was read may be stale by the time it is
acted on, so the guards speak of the state they were read in and of no other.
-/

namespace PaymentRecovery.Guardrails

open PaymentRecovery.Python PaymentRecovery.Lib Program LawfulGuardStore

/-! ## The store, where another worker came first -/

/-- A write whose row is there already: the first result may stay or give way to the second, and
the record that was queued first is answered. -/
class SharedGuardStore (S : Type) [GuardStore S] [LawfulGuardStore S] : Prop where
  view_putResult_again : ∀ (s : S) r k st j old, (view s).result r k = some old →
    ∃ rec : IdempotencyRecord, rec.runId = r ∧ rec.idempotencyKey = k ∧
      view (GuardStore.putResult s r k st j) = (view s).stored rec
  createPending_again : ∀ (s : S) r k name sub cost params t old,
    (view s).approval r k = some old →
    GuardStore.createPending s r k name sub cost params t = (old, s)

/-- The dictionary is overwritten. -/
instance : SharedGuardStore InMemoryGuardStore where
  view_putResult_again s r k st j _ _ := by
    refine ⟨⟨r, k, st, j⟩, rfl, rfl, ?_⟩
    show InMemoryGuardStore.view _ = (InMemoryGuardStore.view s).stored _
    unfold GuardState.stored InMemoryGuardStore.view
    congr 1
    funext r' k'
    exact (Dict.get?_set _ _ _ _).trans (by simp only [Prod.mk.injEq]; rfl)
  createPending_again s r k name sub cost params t old h := by
    have hold : s.toInMemoryTables.getApproval r k = some old := h
    have hcreate : s.toInMemoryTables.createPending r k name sub cost params t =
        (old, s.toInMemoryTables) := by
      unfold InMemoryTables.createPending
      rw [hold]
    show ((s.toInMemoryTables.createPending r k name sub cost params t).1,
      (⟨(s.toInMemoryTables.createPending r k name sub cost params t).2, _⟩ :
        InMemoryGuardStore)) = (old, s)
    simp only [hcreate]

/-- The row is left as it is. -/
instance : SharedGuardStore SqlGuardStore where
  view_putResult_again s r k st j old h := by
    have hold : s.toSqlTables.getResult r k = some old := h
    obtain ⟨_, hpk⟩ := Table.selectBy_some hold
    injection hpk with hr hk
    have hput : s.toSqlTables.putResult r k st j = s.toSqlTables := by
      unfold SqlTables.putResult
      rw [hold]
    refine ⟨old, hr, hk, ?_⟩
    have hview : view (GuardStore.putResult s r k st j) = view s := by
      show SqlGuardStore.view _ = SqlGuardStore.view s
      unfold SqlGuardStore.view
      simp only [GuardStore.putResult, hput]
    rw [hview]
    unfold GuardState.stored
    -- storing what is stored changes nothing
    have hsame : (fun r' k' => if r' = old.runId ∧ k' = old.idempotencyKey then some old
        else (view s).result r' k') = (view s).result := by
      funext r' k'
      split
      · rename_i he
        rw [he.1, he.2, hr, hk]
        exact hold.symm
      · rfl
    rw [hsame]
  createPending_again s r k name sub cost params t old h := by
    have hold : s.toSqlTables.getApproval r k = some old := h
    have hcreate : s.toSqlTables.createPending r k name sub cost params t =
        (old, s.toSqlTables) := by
      unfold SqlTables.createPending
      rw [hold]
    show ((s.toSqlTables.createPending r k name sub cost params t).1,
      (⟨(s.toSqlTables.createPending r k name sub cost params t).2, _⟩ : SqlGuardStore)) = (old, s)
    simp only [hcreate]

/-! ## The protocol of one worker -/

/-- An action on its way through `execute`. -/
structure Ticket where
  runId : String
  policy : GuardPolicy
  action : Action

/-- The key the action is known by. -/
def Ticket.key (t : Ticket) : String := t.action.idempotencyKey

/-- The action as this executor presents it. -/
def GuardedExecutor.ticket {σ : Type} (ex : GuardedExecutor σ) (action : Action) : Ticket :=
  ⟨ex.runId, ex.policy, action⟩

/-- How far a worker has come. At `idle` it holds nothing the others could take from under it. -/
inductive Point where
  | idle
  | deciding (id : ApprovalId)
  | gated (t : Ticket)
  | cleared (t : Ticket)
  | counted (t : Ticket)
  | admitted (t : Ticket)
  | returned (t : Ticket)
  | charged (t : Ticket)
  | stored (t : Ticket)
  | refused (t : Ticket)
  | tripped (t : Ticket)

/-- Which policies executors of a run work under, and which costs are presented in it. -/
structure Scope where
  policy : String → GuardPolicy → Prop
  cost : String → ℚ → Prop

def Scope.Allows (scope : Scope) (t : Ticket) : Prop :=
  scope.policy t.runId t.policy ∧ scope.cost t.runId t.action.cost

def Snapshot.stored (s : Snapshot) (rec : IdempotencyRecord) : Snapshot :=
  { s with state := s.state.stored rec }

/-- The words that the two counters and the breaker are read back from. -/
def IsAccounted (decision : String) : Prop :=
  decision = ExecutionStatus.executed.value ∨ decision = ExecutionStatus.rejectedSpendCap.value

/-- One transaction of a worker. -/
inductive Move (scope : Scope) (s : Snapshot) : Point → Point → Snapshot → Prop
  | quiet (c : Point) : Move scope s c c s
  | called (run : String) (action : Action) :
    Move scope s .idle .idle (s.called run action)
  | logged (run : String) (action : Action) (decision detail : String)
    (hother : ¬ IsAccounted decision) :
    Move scope s .idle .idle (s.logged run action decision detail)
  | gated (t : Ticket) (hscope : scope.Allows t)
    (hfresh : s.state.result t.runId t.key = none) : Move scope s .idle (.gated t) s
  | passed (t : Ticket) (hscope : scope.Allows t)
    (hfresh : s.state.result t.runId t.key = none)
    (hlow : ¬ t.policy.approvalThreshold < t.action.cost) : Move scope s .idle (.cleared t) s
  | cleared (t : Ticket) (rec : ApprovalRecord)
    (hrec : s.state.approval t.runId t.key = some rec) (hstate : rec.state = .approved) :
    Move scope s (.gated t) (.cleared t) s
  | ungated (t : Ticket) : Move scope s (.gated t) .idle s
  | held (t : Ticket) (rec : ApprovalRecord)
    (hnone : s.state.approval t.runId t.key = none)
    (hid : s.state.approvalKey rec.approvalId = none)
    (hown : rec.runId = t.runId ∧ rec.idempotencyKey = t.key) (hcost : rec.cost = t.action.cost)
    (hpending : rec.state = .pending) : Move scope s (.gated t) .idle (s.held rec)
  | counted (t : Ticket)
    (hbudget : (s.state.count t.runId t.action.subjectId : Int) <
      t.policy.perSubjectActionBudget) : Move scope s (.cleared t) (.counted t) s
  | spent (t : Ticket) : Move scope s (.cleared t) .idle s
  | admitted (t : Ticket)
    (hcap : s.state.spend t.runId + t.action.cost ≤ t.policy.perRunSpendCap) :
    Move scope s (.counted t) (.admitted t) s
  | refused (t : Ticket) : Move scope s (.counted t) (.refused t) s
  | tripped (t : Ticket) :
    Move scope s (.refused t) (.tripped t) (s.tripped t.runId)
  | capLogged (t : Ticket) (detail : String) :
    Move scope s (.tripped t) .idle
      (s.logged t.runId t.action ExecutionStatus.rejectedSpendCap.value detail)
  | failed (t : Ticket) (inv : Invocation)
    (hown : inv.runId = t.runId ∧ inv.policy = t.policy ∧ inv.action = t.action)
    (hlost : inv.resultJson = none) : Move scope s (.admitted t) .idle (s.invoked inv)
  | returned (t : Ticket) (inv : Invocation)
    (hown : inv.runId = t.runId ∧ inv.policy = t.policy ∧ inv.action = t.action)
    (hstores : inv.resultJson.isSome) : Move scope s (.admitted t) (.returned t) (s.invoked inv)
  | charged (t : Ticket) :
    Move scope s (.returned t) (.charged t) (s.charged t.runId t.action)
  | stored (t : Ticket) (rec : IdempotencyRecord)
    (hown : rec.runId = t.runId ∧ rec.idempotencyKey = t.key) :
    Move scope s (.charged t) (.stored t) (s.stored rec)
  | executed (t : Ticket) (detail : String) :
    Move scope s (.stored t) .idle
      (s.logged t.runId t.action ExecutionStatus.executed.value detail)
  | found (id : ApprovalId) (hid : s.state.approvalKey id ≠ none) :
    Move scope s .idle (.deciding id) s
  | decided (id : ApprovalId) (state : ApprovalState) :
    Move scope s (.deciding id) .idle (s.decided id state)

/-- What a worker may rely on at each of its transactions, whatever the others do: queued costs
are in scope, and an approval that was found is not forgotten. -/
def Relies (scope : Scope) (c : Point) (s : Snapshot) : Prop :=
  (∀ r k rec, s.state.approval r k = some rec → scope.cost r rec.cost) ∧
    match c with
    | .deciding id => s.state.approvalKey id ≠ none
    | _ => True

section Follows

variable {S σ : Type} [GuardStore S] [LawfulGuardStore S] (scope : Scope)

/-- A worker's program goes by the moves of the protocol. -/
abbrev Works {α : Type} (Q : Except PyExc α → Point → Prop) (p : Program (World S σ) PyExc α)
    (c : Point) : Prop :=
  Follows (fun c w => Relies scope c w.snapshot)
    (fun c w c' w' => Move scope w.snapshot c c' w'.snapshot) Q p c

/-- The program ends at `idle`, however it ends. -/
def Home {α : Type} : Except PyExc α → Point → Prop := fun _ c => c = .idle

variable {scope}

theorem works_finish {ex : GuardedExecutor σ} {action : Action} {status : ExecutionStatus}
    {result : PyVal} {id : Option ApprovalId} {detail : String} {c : Point}
    (hlog : ∀ s : Snapshot,
      Move scope s c .idle (s.logged ex.runId action status.value detail)) :
    Works scope Home (ex.finish action status result id detail :
      Program (World S σ) PyExc ExecutionResult) c := by
  unfold GuardedExecutor.finish GuardedExecutor.audit
  refine Follows.bind (Q := Home) (.write fun w _ => ⟨.idle, ?_, rfl⟩) (fun _ c hc => hc)
    fun _ c hc => hc
  have hmove := hlog w.snapshot
  rw [← snapshot_audited] at hmove
  exact hmove

/-- Any other word is logged from `idle`. -/
theorem works_finish_idle {ex : GuardedExecutor σ} {action : Action} {status : ExecutionStatus}
    {result : PyVal} {id : Option ApprovalId} {detail : String}
    (hother : ¬ IsAccounted status.value) :
    Works scope Home (ex.finish action status result id detail :
      Program (World S σ) PyExc ExecutionResult) .idle :=
  works_finish fun _ => .logged ex.runId action status.value detail hother

/-! ## The transactions of `perform` -/

/-- Where the handler run has brought the worker. -/
def AfterRun (t : Ticket) (answer : Except PyExc PyVal) (c : Point) : Prop :=
  match answer with
  | .ok value => c = if (jsonDumps value).toOption.isSome then .returned t else .idle
  | .error _ => c = .idle

theorem works_invoke {ex : GuardedExecutor σ} {handler : EffectHandler σ} {action : Action} :
    Works scope (AfterRun (ex.ticket action))
      (ex.invoke handler action : Program (World S σ) PyExc PyVal)
      (.admitted (ex.ticket action)) := by
  unfold GuardedExecutor.invoke
  refine .attempt fun w _ => ?_
  cases hout : handler action w.env with
  | mk outcome env =>
    dsimp only
    cases outcome with
    | error exc =>
      exact ⟨.idle, .failed _ ⟨ex.runId, ex.policy, action, _, .error exc⟩ ⟨rfl, rfl, rfl⟩ rfl, rfl⟩
    | ok value =>
      refine ⟨if (jsonDumps value).toOption.isSome then .returned (ex.ticket action) else .idle,
        ?_, rfl⟩
      split
      · rename_i htext
        exact .returned _ ⟨ex.runId, ex.policy, action, _, .ok value⟩ ⟨rfl, rfl, rfl⟩ htext
      · rename_i htext
        exact .failed _ ⟨ex.runId, ex.policy, action, _, .ok value⟩ ⟨rfl, rfl, rfl⟩
          (Option.not_isSome_iff_eq_none.mp htext)

theorem move_charged (w : World S σ) (t : Ticket) :
    Move scope w.snapshot (.returned t) (.charged t) ({ w with
      store := GuardStore.recordExecution w.store t.runId t.action.subjectId t.action.cost } :
        World S σ).snapshot := by
  have hmove : Move scope w.snapshot _ _ _ := .charged t
  unfold Snapshot.charged World.snapshot at hmove
  dsimp only at hmove
  rw [← view_recordExecution] at hmove
  exact hmove

theorem move_stored [SharedGuardStore S] (w : World S σ) (t : Ticket) (text : JsonText) :
    Move scope w.snapshot (.charged t) (.stored t) ({ w with
      store := GuardStore.putResult w.store t.runId t.key ExecutionStatus.executed.value text } :
        World S σ).snapshot := by
  -- another worker may have stored its result under the key
  obtain ⟨rec, hr, hk, hview⟩ : ∃ rec : IdempotencyRecord, rec.runId = t.runId ∧
      rec.idempotencyKey = t.key ∧ view (GuardStore.putResult w.store t.runId t.key
        ExecutionStatus.executed.value text) = (view w.store).stored rec := by
    cases hold : (view w.store).result t.runId t.key with
    | none => exact ⟨_, rfl, rfl, view_putResult _ _ _ _ _ hold⟩
    | some old => exact SharedGuardStore.view_putResult_again _ _ _ _ _ old hold
  have hmove : Move scope w.snapshot _ _ _ := .stored t rec ⟨hr, hk⟩
  unfold Snapshot.stored World.snapshot at hmove
  rw [← hview] at hmove
  exact hmove

variable [SharedGuardStore S]

theorem works_perform {ex : GuardedExecutor σ} {handler : EffectHandler σ} {action : Action} :
    Works scope Home (ex.perform handler action : Program (World S σ) PyExc ExecutionResult)
      (.admitted (ex.ticket action)) := by
  unfold GuardedExecutor.perform
  refine .bind (.tryCatch works_invoke (fun _ _ h => h) fun exc c hc => ?_) (fun value c hc => ?_)
    fun exc c hc => hc
  · -- a raising handler is logged as an error and nothing else
    obtain rfl : c = .idle := hc
    unfold GuardedExecutor.audit
    refine .write_bind fun w _ => ⟨.idle, ?_, .throw rfl⟩
    have hmove : Move scope w.snapshot _ _ _ := .logged ex.runId action "error" exc.repr
      (by unfold IsAccounted; decide)
    rw [← snapshot_audited] at hmove
    exact hmove
  · replace hc : c = if (jsonDumps value).toOption.isSome then .returned (ex.ticket action)
      else .idle := hc
    refine .orRaise_bind (fun text hdump => ?_) fun exc hdump => ?_
    · obtain rfl : c = .returned (ex.ticket action) := by
        rw [hdump] at hc
        exact hc
      exact .write_bind fun w _ => ⟨.charged (ex.ticket action), move_charged w _,
        .write_bind fun v _ => ⟨.stored (ex.ticket action), move_stored v _ text,
          works_finish fun _ => .executed (ex.ticket action) "executed"⟩⟩
    · rw [hdump] at hc
      exact hc

/-- The two limits, read one after the other, and then the effect. -/
theorem works_spend {ex : GuardedExecutor σ} {handler : EffectHandler σ} {action : Action} :
    Works scope Home (ex.spend handler action : Program (World S σ) PyExc ExecutionResult)
      (.cleared (ex.ticket action)) := by
  unfold GuardedExecutor.spend
  refine .read_bind fun w _ => ?_
  rw [subjectExecutedCount_eq]
  split
  · exact ⟨.idle, .spent _, works_finish_idle (by unfold IsAccounted; decide)⟩
  · rename_i hbudget
    refine ⟨.counted (ex.ticket action), .counted _ (Int.not_le.mp hbudget), ?_⟩
    refine .read_bind fun v _ => ?_
    rw [accumulatedSpend_eq]
    split
    · refine ⟨.refused (ex.ticket action), .refused _, .write_bind fun u _ =>
        ⟨.tripped (ex.ticket action), ?_, works_finish fun _ => .capLogged _ _⟩⟩
      rw [snapshot_tripped]
      exact .tripped (ex.ticket action)
    · rename_i hcap
      exact ⟨.admitted (ex.ticket action), .admitted _ (Rat.not_lt.mp hcap), works_perform⟩

/-! ## The calls -/

/-- Where the gate has brought the worker. -/
def AfterGate (t : Ticket) : Except PyExc (Option ExecutionResult) → Point → Prop
  | .ok none, c => c = .cleared t
  | .ok (some _), c => c = .idle
  | .error _, c => c = .idle

/-- Where a worker stands that has found no result: before the gate, if its action has one. -/
def beforeGate (t : Ticket) : Point :=
  if t.policy.approvalThreshold < t.action.cost then .gated t else .cleared t

omit [SharedGuardStore S] in
/-- An approval that was read, or queued by whoever came first, lets pass or ends the call. -/
theorem works_decided {ex : GuardedExecutor σ} {action : Action} {approval : ApprovalRecord}
    {c : Point} (happroved : approval.state = .approved → c = .cleared (ex.ticket action))
    (hother : approval.state ≠ .approved → c = .idle) :
    Works scope (AfterGate (ex.ticket action)) (if approval.state = .approved then return none
      else do
        let result ← ex.finish action .pendingApproval .none (some approval.approvalId)
          (if approval.state = .pending then "awaiting human approval"
            else "approval was rejected; not executing")
        return some result : Program (World S σ) PyExc (Option ExecutionResult)) c := by
  split
  · rename_i hstate
    exact happroved hstate
  · rename_i hstate
    rw [hother hstate]
    exact .bind (works_finish_idle (by unfold IsAccounted; decide)) (fun _ _ hc => hc)
      fun _ _ hc => hc

theorem works_approvalGate {ex : GuardedExecutor σ} {action : Action} :
    Works scope (AfterGate (ex.ticket action))
      (ex.approvalGate action : Program (World S σ) PyExc (Option ExecutionResult))
      (beforeGate (ex.ticket action)) := by
  unfold GuardedExecutor.approvalGate beforeGate
  by_cases hgated : ex.policy.approvalThreshold < action.cost
  · rw [if_pos hgated, if_pos (show (ex.ticket action).policy.approvalThreshold <
      (ex.ticket action).action.cost from hgated)]
    refine .read_bind fun w _ => ?_
    rw [getApproval_eq]
    cases hrec : (view w.store).approval ex.runId action.idempotencyKey with
    | some approval =>
      by_cases hstate : approval.state = .approved
      · exact ⟨.cleared (ex.ticket action), .cleared _ approval hrec hstate,
          works_decided (fun _ => rfl) fun h => absurd hstate h⟩
      · exact ⟨.idle, .ungated _, works_decided (fun h => absurd h hstate) fun _ => rfl⟩
    | none =>
      cases hdump : jsonDumps action.params with
      | error exc => exact ⟨.idle, .ungated _, .throw rfl⟩
      | ok paramsJson =>
        refine ⟨.gated (ex.ticket action), .quiet _, .step_bind fun v _ => ?_⟩
        cases hnow : ex.now v.env with
        | mk t env =>
          dsimp only
          cases hagain : (view v.store).approval ex.runId action.idempotencyKey with
          | none =>
            obtain ⟨id, store, hid, hcreate, hheld⟩ := view_createPending v.store ex.runId
              action.idempotencyKey action.name action.subjectId action.cost paramsJson t hagain
            rw [hcreate]
            refine ⟨.idle, ?_, works_decided (fun h => by cases h) fun _ => rfl⟩
            have hmove : Move scope v.snapshot _ _ _ := .held (ex.ticket action) ⟨id, ex.runId,
              action.idempotencyKey, action.name, action.subjectId, action.cost, paramsJson,
              .pending, t⟩ hagain hid ⟨rfl, rfl⟩ rfl rfl
            unfold Snapshot.held World.snapshot at hmove
            rw [← hheld] at hmove
            exact hmove
          | some old =>
            -- queued in between by another worker, and perhaps decided since
            rw [SharedGuardStore.createPending_again _ _ _ _ _ _ _ _ old hagain]
            by_cases hstate : old.state = .approved
            · exact ⟨.cleared (ex.ticket action), .cleared _ old hagain hstate,
                works_decided (fun _ => rfl) fun h => absurd hstate h⟩
            · exact ⟨.idle, .ungated _, works_decided (fun h => absurd h hstate)
                fun _ => rfl⟩
  · rw [if_neg hgated, if_neg (show ¬ (ex.ticket action).policy.approvalThreshold <
      (ex.ticket action).action.cost from hgated)]
    exact .pure rfl

theorem works_execute {ex : GuardedExecutor σ} {action : Action}
    (hscope : scope.Allows (ex.ticket action)) :
    Works scope Home (ex.execute action : Program (World S σ) PyExc ExecutionResult) .idle := by
  unfold GuardedExecutor.execute
  refine .step_bind fun w _ => ⟨.idle, .called ex.runId action, ?_⟩
  split
  · exact works_finish_idle (by unfold IsAccounted; decide)
  · refine .read_bind fun v _ => ?_
    rw [getResult_eq]
    cases hfresh : (view v.store).result ex.runId action.idempotencyKey with
    | some existing =>
      exact ⟨.idle, .quiet _, .orRaise_bind
        (fun _ _ => works_finish_idle (by unfold IsAccounted; decide)) fun _ _ => rfl⟩
    | none =>
      cases hhandler : ex.handlers.get? action.name with
      | none => exact ⟨.idle, .quiet _, .throw rfl⟩
      | some handler =>
        refine ⟨beforeGate (ex.ticket action), ?_, .bind works_approvalGate (fun held c hc => ?_)
          fun _ _ hc => hc⟩
        · unfold beforeGate
          split
          · exact .gated (ex.ticket action) hscope hfresh
          · rename_i hlow
            exact .passed (ex.ticket action) hscope hfresh hlow
        · cases held with
          | some result => exact .pure hc
          | none =>
            have hcleared : c = .cleared (ex.ticket action) := hc
            rw [hcleared]
            exact works_spend

omit [SharedGuardStore S] in
/-- An approval that belongs to the run is found. Where it is to be decided it is known from then
on; otherwise the worker is back at `idle`. -/
theorem works_requireApproval {ex : GuardedExecutor σ} {id : ApprovalId}
    (next : ApprovalRecord → Point) (hnext : ∀ rec, next rec = .idle ∨ next rec = .deciding id) :
    Works scope (fun answer c => match answer with
        | .ok approval => c = next approval ∧ approval.runId = ex.runId ∧
          scope.cost ex.runId approval.cost
        | .error _ => c = .idle)
      (ex.requireApproval id : Program (World S σ) PyExc ApprovalRecord) .idle := by
  unfold GuardedExecutor.requireApproval
  refine .read_bind fun w hw => ?_
  rw [getApprovalById_eq]
  cases hrec : (view w.store).approvalById id with
  | none => exact ⟨.idle, .quiet _, .throw rfl⟩
  | some approval =>
    dsimp only
    split
    · rename_i hrun
      obtain ⟨hid, hheld⟩ := (view_wf w.store).approvalById_own hrec
      have hknown : (view w.store).approvalKey id ≠ none := by
        intro hnone
        unfold GuardState.approvalById at hrec
        rw [hnone] at hrec
        cases hrec
      have hcost : scope.cost ex.runId approval.cost := by
        rw [← hrun]
        exact hw.1 _ _ approval hheld
      refine ⟨next approval, ?_, .pure ⟨rfl, hrun, hcost⟩⟩
      rcases hnext approval with h | h
      · rw [h]
        exact .quiet _
      · rw [h]
        exact .found id hknown
    · exact ⟨.idle, .quiet _, .throw rfl⟩

omit [SharedGuardStore S] in
theorem works_setApprovalState {id : ApprovalId} {state : ApprovalState} :
    Works scope Home (GuardedExecutor.setApprovalState id state :
      Program (World S σ) PyExc Unit) (.deciding id) := by
  unfold GuardedExecutor.setApprovalState
  refine .attempt fun w hw => ⟨.idle, ?_, rfl⟩
  obtain ⟨⟨r, k⟩, hkey⟩ := Option.ne_none_iff_exists'.mp hw.2
  obtain ⟨rec, hrec, _⟩ := (view_wf w.store).approvalKey_held id r k hkey
  have hknown : (view w.store).approvalById id = some rec := by
    unfold GuardState.approvalById
    rw [show (view w.store).approvalKey id = some (r, k) from hkey]
    exact hrec
  obtain ⟨store, hset, hview⟩ := view_setApprovalState w.store id state rec hknown
  rw [hset]
  have hmove : Move scope w.snapshot _ _ _ := .decided id state
  unfold Snapshot.decided World.snapshot at hmove
  rw [← hview] at hmove
  exact hmove

/-- The recorded action, presented by the run's own executor. -/
theorem works_recorded {ex : GuardedExecutor σ} {approval : ApprovalRecord}
    (hpolicy : scope.policy ex.runId ex.policy) (hcost : scope.cost ex.runId approval.cost) :
    Works scope Home (do
        let action ← orRaise (GuardedExecutor.actionFromApproval approval)
        ex.execute action : Program (World S σ) PyExc ExecutionResult) .idle := by
  refine .orRaise_bind (fun action haction => works_execute ⟨hpolicy, ?_⟩) fun _ _ => rfl
  unfold GuardedExecutor.actionFromApproval at haction
  cases hload : jsonLoads approval.paramsJson with
  | error exc =>
    rw [hload] at haction
    cases haction
  | ok params =>
    rw [hload] at haction
    injection haction with haction
    rw [← haction]
    exact hcost

theorem works_approve {ex : GuardedExecutor σ} {id : ApprovalId}
    (hpolicy : scope.policy ex.runId ex.policy) :
    Works scope Home (ex.approve id : Program (World S σ) PyExc ExecutionResult) .idle := by
  unfold GuardedExecutor.approve
  refine .bind (works_requireApproval
    (fun rec => if rec.state = .approved then .idle else .deciding id)
    fun rec => by split <;> simp) (fun approval c hc => ?_) fun _ _ hc => hc
  obtain ⟨hc, _, hcost⟩ := hc
  subst hc
  split
  · exact works_recorded hpolicy hcost
  · refine .bind works_setApprovalState (fun _ c hc => ?_) fun _ _ hc => hc
    subst hc
    exact works_recorded hpolicy hcost

omit [SharedGuardStore S] in
theorem works_rejectApproval {ex : GuardedExecutor σ} {id : ApprovalId} :
    Works scope Home (ex.rejectApproval id : Program (World S σ) PyExc Unit) .idle := by
  unfold GuardedExecutor.rejectApproval
  refine .bind (works_requireApproval (fun _ => .deciding id) fun _ => .inr rfl)
    (fun approval c hc => ?_) fun _ _ hc => hc
  obtain ⟨hc, _⟩ := hc
  subst hc
  exact works_setApprovalState

/-- The call is in scope; an approval is decided at the cost it was queued for. -/
def Scope.Covers (scope : Scope) : Call σ → Prop
  | .execute ex action => scope.Allows (ex.ticket action)
  | .approve ex _ => scope.policy ex.runId ex.policy
  | .rejectApproval _ _ => True

/-- **Every call goes by the moves of the protocol**, and leaves its worker at `idle`. -/
theorem Call.comesHome {call : Call σ} (h : scope.Covers call) :
    Works scope Home (call.program : Program (World S σ) PyExc (Option ExecutionResult)) .idle := by
  cases call with
  | execute ex action => exact .map (works_execute h) fun _ _ hc => hc
  | approve ex id => exact .map (works_approve h) fun _ _ hc => hc
  | rejectApproval ex id => exact .map works_rejectApproval fun _ _ hc => hc

end Follows

end PaymentRecovery.Guardrails

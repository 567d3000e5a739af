import PaymentRecovery.Guardrails.Model

/-!
# The storage contract of the guardrail layer

`GuardStore` is the protocol the executor depends on. `GuardState` says what a
store is for: for each run and key a result and an approval, for each run a
spend, a breaker, the subject counts and an audit log. `LawfulGuardStore` ties
the two: every read is a read of the state, every write the matching update.
-/

namespace PaymentRecovery.Guardrails

open PaymentRecovery.Python

/-- Storage contract the executor depends on. -/
class GuardStore (S : Type) where
  empty : S
  getResult : S → (runId idempotencyKey : String) → Option IdempotencyRecord
  putResult : S → (runId idempotencyKey status : String) → (resultJson : JsonText) → S
  getApproval : S → (runId idempotencyKey : String) → Option ApprovalRecord
  getApprovalById : S → ApprovalId → Option ApprovalRecord
  createPending : S → (runId idempotencyKey actionName subjectId : String) → (cost : ℚ) →
    (paramsJson : JsonText) → (createdAt : Time) → ApprovalRecord × S
  setApprovalState : S → ApprovalId → ApprovalState → Except PyExc S
  listPending : S → (runId : String) → List ApprovalRecord
  subjectExecutedCount : S → (runId subjectId : String) → Nat
  accumulatedSpend : S → (runId : String) → ℚ
  recordExecution : S → (runId subjectId : String) → (cost : ℚ) → S
  isBreakerOpen : S → (runId : String) → Bool
  tripBreaker : S → (runId : String) → S
  appendAudit : S → (runId actionName subjectId idempotencyKey : String) → (cost : ℚ) →
    (decision detail : String) → AuditEntry × S
  readAudit : S → (runId : String) → List AuditEntry

/-! ## The abstract state -/

/-- What a guard store holds. -/
structure GuardState where
  result : String → String → Option IdempotencyRecord
  approval : String → String → Option ApprovalRecord
  approvalKey : ApprovalId → Option (String × String)
  count : String → String → Nat
  spend : String → ℚ
  breaker : String → Bool
  audit : String → List AuditEntry

namespace GuardState

/-- The state of a store nobody has used. -/
def init : GuardState where
  result _ _ := none
  approval _ _ := none
  approvalKey _ := none
  count _ _ := 0
  spend _ := 0
  breaker _ := false
  audit _ := []

/-- The record behind an approval id. -/
def approvalById (g : GuardState) (id : ApprovalId) : Option ApprovalRecord :=
  (g.approvalKey id).bind fun rk => g.approval rk.1 rk.2

/-- Approvals sit under their own run and key, and ids and keys name each other. -/
structure Wf (g : GuardState) : Prop where
  approval_own : ∀ r k rec, g.approval r k = some rec →
    rec.runId = r ∧ rec.idempotencyKey = k ∧ g.approvalKey rec.approvalId = some (r, k)
  approvalKey_held : ∀ id r k, g.approvalKey id = some (r, k) →
    ∃ rec, g.approval r k = some rec ∧ rec.approvalId = id

/-- Store the terminal result of a key. -/
def stored (g : GuardState) (rec : IdempotencyRecord) : GuardState :=
  { g with result := fun r k =>
      if r = rec.runId ∧ k = rec.idempotencyKey then some rec else g.result r k }

/-- Queue an action for a human decision. -/
def held (g : GuardState) (rec : ApprovalRecord) : GuardState :=
  { g with
    approval := fun r k =>
      if r = rec.runId ∧ k = rec.idempotencyKey then some rec else g.approval r k
    approvalKey := fun id =>
      if id = rec.approvalId then some (rec.runId, rec.idempotencyKey) else g.approvalKey id }

/-- Set the state of one approval record. -/
def decided (g : GuardState) (id : ApprovalId) (st : ApprovalState) : GuardState :=
  { g with approval := fun r k =>
      if g.approvalKey id = some (r, k) then
        (g.approval r k).map fun rec => { rec with state := st }
      else g.approval r k }

/-- Charge one executed effect. -/
def charged (g : GuardState) (run subject : String) (cost : ℚ) : GuardState :=
  { g with
    count := fun r s => if r = run ∧ s = subject then g.count r s + 1 else g.count r s
    spend := fun r => if r = run then g.spend r + cost else g.spend r }

/-- Open the breaker of a run. -/
def tripped (g : GuardState) (run : String) : GuardState :=
  { g with breaker := fun r => if r = run then true else g.breaker r }

/-- The audit entry that would come next. -/
def nextEntry (g : GuardState) (run name subject key : String) (cost : ℚ)
    (decision detail : String) : AuditEntry :=
  ⟨run, (g.audit run).length + 1, name, subject, key, cost, decision, detail⟩

/-- Append one audit entry to its run. -/
def logged (g : GuardState) (e : AuditEntry) : GuardState :=
  { g with audit := fun r => if r = e.runId then g.audit r ++ [e] else g.audit r }

theorem Wf.approvalById_own {g : GuardState} (hwf : g.Wf) {id : ApprovalId}
    {rec : ApprovalRecord} (h : g.approvalById id = some rec) :
    rec.approvalId = id ∧ g.approval rec.runId rec.idempotencyKey = some rec := by
  obtain ⟨⟨r, k⟩, hkey, hrec⟩ := Option.bind_eq_some_iff.mp h
  obtain ⟨rec', hrec', hid⟩ := hwf.approvalKey_held id r k hkey
  have hsame : rec = rec' := Option.some.inj (hrec.symm.trans hrec')
  obtain ⟨hr, hk, _⟩ := hwf.approval_own r k rec hrec
  exact ⟨hsame ▸ hid, by rw [hr, hk]; exact hrec⟩

theorem Wf.approvalById_of_approval {g : GuardState} (hwf : g.Wf) {r k : String}
    {rec : ApprovalRecord} (h : g.approval r k = some rec) :
    g.approvalById rec.approvalId = some rec := by
  obtain ⟨_, _, hid⟩ := hwf.approval_own r k rec h
  unfold approvalById
  rw [hid]
  exact h

end GuardState

/-! ## Lawful stores -/

/-- A store whose operations are the operations of the abstract state. The
writes are specified where the executor uses them: a result for a key without
one, an approval for a key without one, a decision on a known id. -/
class LawfulGuardStore (S : Type) [GuardStore S] where
  view : S → GuardState
  view_wf : ∀ s, (view s).Wf
  view_empty : view GuardStore.empty = GuardState.init
  getResult_eq : ∀ s r k, GuardStore.getResult s r k = (view s).result r k
  getApproval_eq : ∀ s r k, GuardStore.getApproval s r k = (view s).approval r k
  getApprovalById_eq : ∀ s id, GuardStore.getApprovalById s id = (view s).approvalById id
  subjectExecutedCount_eq : ∀ s r sub,
    GuardStore.subjectExecutedCount s r sub = (view s).count r sub
  accumulatedSpend_eq : ∀ s r, GuardStore.accumulatedSpend s r = (view s).spend r
  isBreakerOpen_eq : ∀ s r, GuardStore.isBreakerOpen s r = (view s).breaker r
  readAudit_eq : ∀ s r, GuardStore.readAudit s r = (view s).audit r
  mem_listPending : ∀ s r rec, rec ∈ GuardStore.listPending s r ↔
    ∃ k, (view s).approval r k = some rec ∧ rec.state = .pending
  view_putResult : ∀ s r k st j, (view s).result r k = none →
    view (GuardStore.putResult s r k st j) = (view s).stored ⟨r, k, st, j⟩
  view_createPending : ∀ s r k name sub cost params t, (view s).approval r k = none →
    ∃ id s', (view s).approvalKey id = none ∧
      GuardStore.createPending s r k name sub cost params t =
        (⟨id, r, k, name, sub, cost, params, .pending, t⟩, s') ∧
      view s' = (view s).held ⟨id, r, k, name, sub, cost, params, .pending, t⟩
  view_setApprovalState : ∀ s id st rec, (view s).approvalById id = some rec →
    ∃ s', GuardStore.setApprovalState s id st = .ok s' ∧ view s' = (view s).decided id st
  view_recordExecution : ∀ s r sub cost,
    view (GuardStore.recordExecution s r sub cost) = (view s).charged r sub cost
  view_tripBreaker : ∀ s r, view (GuardStore.tripBreaker s r) = (view s).tripped r
  view_appendAudit : ∀ s r name sub key cost decision detail,
    (GuardStore.appendAudit s r name sub key cost decision detail).1 =
      (view s).nextEntry r name sub key cost decision detail ∧
    view (GuardStore.appendAudit s r name sub key cost decision detail).2 =
      (view s).logged ((view s).nextEntry r name sub key cost decision detail)

end PaymentRecovery.Guardrails

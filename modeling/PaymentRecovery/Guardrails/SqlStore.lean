import Mathlib.Data.List.Sort
import PaymentRecovery.Guardrails.Store
import PaymentRecovery.Lib.Table

/-!
# The SQL guard store

The tables of `SqlGuardStore` and one committed transaction per method. The
invariant is what the primary keys and `create_pending` maintain: an approval
id and a (run, key) pair each select at most one approval, and the sequence
numbers of a run count its audit rows.
-/

namespace PaymentRecovery.Guardrails

open PaymentRecovery.Python PaymentRecovery.Lib.Table

/-- A row of `guardrail_runstate`. -/
structure RunStateRow where
  runId : String
  accumulatedSpend : ℚ
  breakerOpen : Bool

/-- A row of `guardrail_subject_count`. -/
structure SubjectCountRow where
  runId : String
  subjectId : String
  executedCount : Nat

/-- The guardrail tables. `nextApproval` is the supply that `_new_approval_id`
draws from. -/
structure SqlTables where
  idem : List IdempotencyRecord
  approvals : List ApprovalRecord
  runState : List RunStateRow
  subjectCount : List SubjectCountRow
  auditRows : List AuditEntry
  nextApproval : Nat

/-- The primary key of `guardrail_idempotency`. -/
def IdempotencyRecord.pk (row : IdempotencyRecord) : String × String :=
  (row.runId, row.idempotencyKey)

/-- The pair of columns `get_approval` selects on. -/
def ApprovalRecord.runKey (row : ApprovalRecord) : String × String :=
  (row.runId, row.idempotencyKey)

/-- The primary key of `guardrail_subject_count`. -/
def SubjectCountRow.pk (row : SubjectCountRow) : String × String :=
  (row.runId, row.subjectId)

namespace SqlTables

def empty : SqlTables where
  idem := []
  approvals := []
  runState := []
  subjectCount := []
  auditRows := []
  nextApproval := 0

def getResult (s : SqlTables) (runId idempotencyKey : String) : Option IdempotencyRecord :=
  selectBy IdempotencyRecord.pk (runId, idempotencyKey) s.idem

def putResult (s : SqlTables) (runId idempotencyKey status : String) (resultJson : JsonText) :
    SqlTables :=
  match s.getResult runId idempotencyKey with
  | none => { s with idem := s.idem ++ [⟨runId, idempotencyKey, status, resultJson⟩] }
  | some _ => s

def getApproval (s : SqlTables) (runId idempotencyKey : String) : Option ApprovalRecord :=
  selectBy ApprovalRecord.runKey (runId, idempotencyKey) s.approvals

def getApprovalById (s : SqlTables) (id : ApprovalId) : Option ApprovalRecord :=
  selectBy ApprovalRecord.approvalId id s.approvals

def createPending (s : SqlTables) (runId idempotencyKey actionName subjectId : String)
    (cost : ℚ) (paramsJson : JsonText) (createdAt : Time) : ApprovalRecord × SqlTables :=
  match s.getApproval runId idempotencyKey with
  | some existing => (existing, s)
  | none =>
    let row : ApprovalRecord :=
      ⟨⟨s.nextApproval⟩, runId, idempotencyKey, actionName, subjectId, cost, paramsJson,
        .pending, createdAt⟩
    (row, { s with approvals := s.approvals ++ [row], nextApproval := s.nextApproval + 1 })

def setApprovalState (s : SqlTables) (id : ApprovalId) (state : ApprovalState) : SqlTables :=
  { s with approvals :=
      updateBy ApprovalRecord.approvalId id (fun row => { row with state := state }) s.approvals }

def listPending (s : SqlTables) (runId : String) : List ApprovalRecord :=
  s.approvals.filter fun row => row.runId = runId ∧ row.state = .pending

def subjectExecutedCount (s : SqlTables) (runId subjectId : String) : Nat :=
  ((selectBy SubjectCountRow.pk (runId, subjectId) s.subjectCount).map (·.executedCount)).getD 0

def accumulatedSpend (s : SqlTables) (runId : String) : ℚ :=
  ((selectBy RunStateRow.runId runId s.runState).map (·.accumulatedSpend)).getD 0

/-- `_get_or_create_runstate`, then change the row. -/
def updateRunState (s : SqlTables) (runId : String) (f : RunStateRow → RunStateRow) :
    List RunStateRow :=
  upsertBy RunStateRow.runId runId f (f ⟨runId, 0, false⟩) s.runState

def recordExecution (s : SqlTables) (runId subjectId : String) (cost : ℚ) : SqlTables :=
  { s with
    runState := s.updateRunState runId fun row =>
      { row with accumulatedSpend := row.accumulatedSpend + cost }
    subjectCount := upsertBy SubjectCountRow.pk (runId, subjectId)
      (fun row => { row with executedCount := row.executedCount + 1 })
      ⟨runId, subjectId, 1⟩ s.subjectCount }

def isBreakerOpen (s : SqlTables) (runId : String) : Bool :=
  ((selectBy RunStateRow.runId runId s.runState).map (·.breakerOpen)).getD false

def tripBreaker (s : SqlTables) (runId : String) : SqlTables :=
  { s with runState := s.updateRunState runId fun row => { row with breakerOpen := true } }

/-- The audit rows of one run. -/
def auditOf (s : SqlTables) (runId : String) : List AuditEntry :=
  s.auditRows.filter fun row => row.runId = runId

def appendAudit (s : SqlTables) (runId actionName subjectId idempotencyKey : String) (cost : ℚ)
    (decision detail : String) : AuditEntry × SqlTables :=
  let maxSeq := ((s.auditOf runId).map (·.seq)).max?
  let entry : AuditEntry :=
    ⟨runId, maxSeq.getD 0 + 1, actionName, subjectId, idempotencyKey, cost, decision, detail⟩
  (entry, { s with auditRows := s.auditRows ++ [entry] })

def readAudit (s : SqlTables) (runId : String) : List AuditEntry :=
  (s.auditOf runId).mergeSort fun a b => a.seq ≤ b.seq

/-! ## The invariant -/

/-- What every method keeps. -/
structure Wf (s : SqlTables) : Prop where
  approvalIds : (s.approvals.map (·.approvalId)).Nodup
  approvalKeys : (s.approvals.map (·.runKey)).Nodup
  supply : ∀ row ∈ s.approvals, row.approvalId.serial < s.nextApproval
  seqs : ∀ r, (s.auditOf r).map (·.seq) = List.range' 1 (s.auditOf r).length

theorem empty_wf : empty.Wf where
  approvalIds := List.nodup_nil
  approvalKeys := List.nodup_nil
  supply _ h := absurd h List.not_mem_nil
  seqs _ := rfl

theorem createPending_wf {s : SqlTables} (hwf : s.Wf) (r k name sub : String) (cost : ℚ)
    (params : JsonText) (t : Time) : (s.createPending r k name sub cost params t).2.Wf := by
  unfold createPending
  cases hnone : s.getApproval r k with
  | some existing => exact hwf
  | none =>
    refine ⟨?_, ?_, ?_, hwf.seqs⟩
    · -- the new id is past every id in use
      rw [List.map_append, List.nodup_append]
      refine ⟨hwf.approvalIds, List.nodup_singleton _, ?_⟩
      intro id hid id' hid' he
      obtain ⟨row, hrow, rfl⟩ := List.mem_map.mp hid
      have hlt := hwf.supply row hrow
      rw [he, List.mem_singleton.mp hid'] at hlt
      exact Nat.lt_irrefl _ hlt
    · -- no row had the key, or the lookup would have found it
      rw [List.map_append, List.nodup_append]
      refine ⟨hwf.approvalKeys, List.nodup_singleton _, ?_⟩
      intro rk hrk rk' hrk' he
      obtain ⟨row, hrow, rfl⟩ := List.mem_map.mp hrk
      exact selectBy_none.mp hnone row hrow (he.trans (List.mem_singleton.mp hrk'))
    · intro row hrow
      rcases List.mem_append.mp hrow with h | h
      · exact Nat.lt_succ_of_lt (hwf.supply row h)
      · rw [List.mem_singleton.mp h]
        exact Nat.lt_succ_self _

theorem setApprovalState_wf {s : SqlTables} (hwf : s.Wf) (id : ApprovalId) (st : ApprovalState) :
    (s.setApprovalState id st).Wf := by
  refine ⟨?_, ?_, ?_, hwf.seqs⟩
  · have hids : (s.setApprovalState id st).approvals.map (·.approvalId) =
        s.approvals.map (·.approvalId) := map_updateBy fun _ => rfl
    rw [hids]
    exact hwf.approvalIds
  · have hkeys : (s.setApprovalState id st).approvals.map (·.runKey) =
        s.approvals.map (·.runKey) := map_updateBy fun _ => rfl
    rw [hkeys]
    exact hwf.approvalKeys
  · intro row hrow
    obtain ⟨row', hmem, rfl⟩ := mem_updateBy hrow
    have hlt := hwf.supply row' hmem
    split <;> exact hlt

theorem max_range' (n : Nat) : (List.range' 1 n).max?.getD 0 = n := by
  cases n with
  | zero => rfl
  | succ n =>
    have h : (List.range' 1 (n + 1)).max? = some (n + 1) := by
      rw [List.max?_eq_some_iff]
      refine ⟨List.mem_range'_1.mpr (by omega), ?_⟩
      intro b hb
      have := List.mem_range'_1.mp hb
      omega
    rw [h]
    rfl

/-- `max(seq) + 1` is one more than the number of the run's entries. -/
theorem nextSeq_eq {s : SqlTables} (hwf : s.Wf) (r : String) :
    ((s.auditOf r).map (·.seq)).max?.getD 0 = (s.auditOf r).length := by
  rw [hwf.seqs r, max_range']

theorem appendAudit_wf {s : SqlTables} (hwf : s.Wf) (r name sub key : String) (cost : ℚ)
    (decision detail : String) : (s.appendAudit r name sub key cost decision detail).2.Wf := by
  refine ⟨hwf.approvalIds, hwf.approvalKeys, hwf.supply, ?_⟩
  intro r'
  have hnext := nextSeq_eq hwf r
  have hold := hwf.seqs r'
  unfold auditOf at hnext hold ⊢
  simp only [appendAudit, auditOf, List.filter_append, List.map_append, hold]
  by_cases h : r' = r
  · subst h
    simp only [decide_true, List.filter_cons_of_pos, List.filter_nil, List.map_cons,
      List.map_nil, List.length_append, List.length_singleton]
    rw [hnext, List.range'_1_concat, Nat.add_comm 1]
  · simp [Ne.symm h]

/-- The rows of a run are stored in order of their sequence numbers, so sorting them again
changes nothing. -/
theorem readAudit_eq {s : SqlTables} (hwf : s.Wf) (r : String) :
    s.readAudit r = s.auditOf r := by
  unfold readAudit
  apply List.mergeSort_of_pairwise
  have hseq : ((s.auditOf r).map (·.seq)).Pairwise (· ≤ ·) := by
    rw [hwf.seqs r]
    exact (List.pairwise_lt_range' (s := 1)).imp Nat.le_of_lt
  rw [List.pairwise_map] at hseq
  exact hseq.imp fun hle => by simpa using hle

/-! ### Reading back what was written -/

theorem getResult_putResult {s : SqlTables} {r k : String} (hnone : s.getResult r k = none)
    (st : String) (j : JsonText) (r' k' : String) :
    (s.putResult r k st j).getResult r' k' =
      if r' = r ∧ k' = k then some ⟨r, k, st, j⟩ else s.getResult r' k' := by
  have hput : s.putResult r k st j = { s with idem := s.idem ++ [⟨r, k, st, j⟩] } := by
    unfold putResult
    rw [hnone]
  have hins : selectBy IdempotencyRecord.pk (r', k') (s.idem ++ [⟨r, k, st, j⟩]) =
      if (r', k') = (r, k) then some ⟨r, k, st, j⟩ else s.getResult r' k' :=
    selectBy_insert (by rfl) hnone (r', k')
  simp only [Prod.mk.injEq] at hins
  rw [hput]
  exact hins

theorem createPending_none {s : SqlTables} {r k : String} (hnone : s.getApproval r k = none)
    (name sub : String) (cost : ℚ) (params : JsonText) (t : Time) :
    s.createPending r k name sub cost params t =
      (⟨⟨s.nextApproval⟩, r, k, name, sub, cost, params, .pending, t⟩,
        { s with
          approvals := s.approvals ++
            [⟨⟨s.nextApproval⟩, r, k, name, sub, cost, params, .pending, t⟩]
          nextApproval := s.nextApproval + 1 }) := by
  unfold createPending
  rw [hnone]

theorem getApproval_createPending {s : SqlTables} {r k : String}
    (hnone : s.getApproval r k = none) (name sub : String) (cost : ℚ) (params : JsonText)
    (t : Time) (r' k' : String) :
    (s.createPending r k name sub cost params t).2.getApproval r' k' =
      if r' = r ∧ k' = k then
        some ⟨⟨s.nextApproval⟩, r, k, name, sub, cost, params, .pending, t⟩
      else s.getApproval r' k' := by
  have hins : selectBy ApprovalRecord.runKey (r', k')
      (s.approvals ++ [⟨⟨s.nextApproval⟩, r, k, name, sub, cost, params, .pending, t⟩]) =
      if (r', k') = (r, k) then
        some ⟨⟨s.nextApproval⟩, r, k, name, sub, cost, params, .pending, t⟩
      else s.getApproval r' k' := selectBy_insert (by rfl) hnone (r', k')
  simp only [Prod.mk.injEq] at hins
  rw [createPending_none hnone]
  exact hins

theorem getApprovalById_createPending {s : SqlTables} {r k : String}
    (hnone : s.getApproval r k = none) (hfresh : s.getApprovalById ⟨s.nextApproval⟩ = none)
    (name sub : String) (cost : ℚ) (params : JsonText) (t : Time) (id : ApprovalId) :
    (s.createPending r k name sub cost params t).2.getApprovalById id =
      if id = ⟨s.nextApproval⟩ then
        some ⟨⟨s.nextApproval⟩, r, k, name, sub, cost, params, .pending, t⟩
      else s.getApprovalById id := by
  rw [createPending_none hnone]
  exact selectBy_insert (by rfl) hfresh id

theorem getApprovalById_setApprovalState (s : SqlTables) (id : ApprovalId) (st : ApprovalState)
    (id' : ApprovalId) :
    (s.setApprovalState id st).getApprovalById id' =
      if id' = id then (s.getApprovalById id).map (fun row => { row with state := st })
      else s.getApprovalById id' :=
  selectBy_update (by intro; rfl) id'

theorem subjectExecutedCount_recordExecution (s : SqlTables) (r sub : String) (cost : ℚ)
    (r' sub' : String) :
    (s.recordExecution r sub cost).subjectExecutedCount r' sub' =
      if r' = r ∧ sub' = sub then s.subjectExecutedCount r' sub' + 1
      else s.subjectExecutedCount r' sub' := by
  have hups : selectBy SubjectCountRow.pk (r', sub')
      (s.recordExecution r sub cost).subjectCount =
      if (r', sub') = (r, sub) then
        some ((selectBy SubjectCountRow.pk (r, sub) s.subjectCount).elim ⟨r, sub, 1⟩
          fun row => { row with executedCount := row.executedCount + 1 })
      else selectBy SubjectCountRow.pk (r', sub') s.subjectCount :=
    selectBy_upsert (by intro; rfl) (by rfl) (r', sub')
  unfold subjectExecutedCount
  rw [hups]
  by_cases h : r' = r ∧ sub' = sub
  · obtain ⟨rfl, rfl⟩ := h
    rw [if_pos rfl, if_pos ⟨rfl, rfl⟩]
    cases selectBy SubjectCountRow.pk (r', sub') s.subjectCount <;> rfl
  · rw [if_neg h, if_neg (by simpa only [Prod.mk.injEq] using h)]

/-- A change of one run's row is seen by that run alone; a new row starts from no spend
and a closed breaker. -/
theorem selectBy_updateRunState (s : SqlTables) (r : String) {f : RunStateRow → RunStateRow}
    (hf : ∀ row, (f row).runId = row.runId) (r' : String) :
    selectBy RunStateRow.runId r' (s.updateRunState r f) =
      if r' = r then
        some (f ((selectBy RunStateRow.runId r s.runState).getD ⟨r, 0, false⟩))
      else selectBy RunStateRow.runId r' s.runState := by
  have hups : selectBy RunStateRow.runId r' (s.updateRunState r f) =
      if r' = r then
        some ((selectBy RunStateRow.runId r s.runState).elim (f ⟨r, 0, false⟩) f)
      else selectBy RunStateRow.runId r' s.runState :=
    selectBy_upsert hf (hf ⟨r, 0, false⟩) r'
  rw [hups]
  cases selectBy RunStateRow.runId r s.runState <;> rfl

theorem accumulatedSpend_recordExecution (s : SqlTables) (r sub : String) (cost : ℚ)
    (r' : String) :
    (s.recordExecution r sub cost).accumulatedSpend r' =
      if r' = r then s.accumulatedSpend r' + cost else s.accumulatedSpend r' := by
  unfold accumulatedSpend recordExecution
  rw [selectBy_updateRunState s r (by intro; rfl)]
  split
  · rename_i he
    subst he
    cases selectBy RunStateRow.runId r' s.runState <;> rfl
  · rfl

theorem isBreakerOpen_recordExecution (s : SqlTables) (r sub : String) (cost : ℚ)
    (r' : String) :
    (s.recordExecution r sub cost).isBreakerOpen r' = s.isBreakerOpen r' := by
  unfold isBreakerOpen recordExecution
  rw [selectBy_updateRunState s r (by intro; rfl)]
  split
  · rename_i he
    subst he
    cases selectBy RunStateRow.runId r' s.runState <;> rfl
  · rfl

theorem accumulatedSpend_tripBreaker (s : SqlTables) (r r' : String) :
    (s.tripBreaker r).accumulatedSpend r' = s.accumulatedSpend r' := by
  unfold accumulatedSpend tripBreaker
  rw [selectBy_updateRunState s r (by intro; rfl)]
  split
  · rename_i he
    subst he
    cases selectBy RunStateRow.runId r' s.runState <;> rfl
  · rfl

theorem isBreakerOpen_tripBreaker (s : SqlTables) (r r' : String) :
    (s.tripBreaker r).isBreakerOpen r' = if r' = r then true else s.isBreakerOpen r' := by
  unfold isBreakerOpen tripBreaker
  rw [selectBy_updateRunState s r (by intro; rfl)]
  split <;> rfl

end SqlTables

/-- Durable, one committed transaction per method. -/
structure SqlGuardStore extends SqlTables where
  wf : toSqlTables.Wf

namespace SqlGuardStore

instance : GuardStore SqlGuardStore where
  empty := ⟨.empty, SqlTables.empty_wf⟩
  getResult s := s.getResult
  putResult s r k st j :=
    ⟨s.putResult r k st j, by
      unfold SqlTables.putResult
      split
      · exact ⟨s.wf.approvalIds, s.wf.approvalKeys, s.wf.supply, s.wf.seqs⟩
      · exact s.wf⟩
  getApproval s := s.getApproval
  getApprovalById s := s.getApprovalById
  createPending s r k name sub cost params t :=
    ((s.createPending r k name sub cost params t).1,
      ⟨(s.createPending r k name sub cost params t).2,
        SqlTables.createPending_wf s.wf r k name sub cost params t⟩)
  setApprovalState s id st :=
    .ok ⟨s.setApprovalState id st, SqlTables.setApprovalState_wf s.wf id st⟩
  listPending s := s.listPending
  subjectExecutedCount s := s.subjectExecutedCount
  accumulatedSpend s := s.accumulatedSpend
  recordExecution s r sub cost :=
    ⟨s.recordExecution r sub cost,
      ⟨s.wf.approvalIds, s.wf.approvalKeys, s.wf.supply, s.wf.seqs⟩⟩
  isBreakerOpen s := s.isBreakerOpen
  tripBreaker s r :=
    ⟨s.tripBreaker r, ⟨s.wf.approvalIds, s.wf.approvalKeys, s.wf.supply, s.wf.seqs⟩⟩
  appendAudit s r name sub key cost decision detail :=
    ((s.appendAudit r name sub key cost decision detail).1,
      ⟨(s.appendAudit r name sub key cost decision detail).2,
        SqlTables.appendAudit_wf s.wf r name sub key cost decision detail⟩)
  readAudit s := s.readAudit

/-! ## The store is lawful -/

/-- The state the tables stand for. -/
def view (s : SqlGuardStore) : GuardState where
  result := s.getResult
  approval := s.getApproval
  approvalKey id := (s.getApprovalById id).map (·.runKey)
  count := s.subjectExecutedCount
  spend := s.accumulatedSpend
  breaker := s.isBreakerOpen
  audit := s.readAudit

theorem approval_some {s : SqlGuardStore} {r k : String} {rec : ApprovalRecord} :
    s.getApproval r k = some rec ↔ rec ∈ s.approvals ∧ rec.runId = r ∧ rec.idempotencyKey = k := by
  constructor
  · intro h
    obtain ⟨hmem, hkey⟩ := selectBy_some h
    injection hkey with hr hk
    exact ⟨hmem, hr, hk⟩
  · rintro ⟨hmem, rfl, rfl⟩
    exact selectBy_of_mem s.wf.approvalKeys hmem

theorem approvalById_some {s : SqlGuardStore} {id : ApprovalId} {rec : ApprovalRecord} :
    s.getApprovalById id = some rec ↔ rec ∈ s.approvals ∧ rec.approvalId = id := by
  constructor
  · exact selectBy_some
  · rintro ⟨hmem, rfl⟩
    exact selectBy_of_mem s.wf.approvalIds hmem

theorem view_wf (s : SqlGuardStore) : (view s).Wf where
  approval_own r k rec h := by
    obtain ⟨hmem, hr, hk⟩ := approval_some.mp h
    refine ⟨hr, hk, ?_⟩
    show (s.getApprovalById rec.approvalId).map (·.runKey) = _
    rw [approvalById_some.mpr ⟨hmem, rfl⟩, ← hr, ← hk]
    rfl
  approvalKey_held id r k h := by
    obtain ⟨rec, hrec, hkey⟩ := Option.map_eq_some_iff.mp h
    obtain ⟨hmem, hid⟩ := approvalById_some.mp hrec
    injection hkey with hr hk
    exact ⟨rec, approval_some.mpr ⟨hmem, hr, hk⟩, hid⟩

theorem getApprovalById_view (s : SqlGuardStore) (id : ApprovalId) :
    s.getApprovalById id = (view s).approvalById id := by
  unfold GuardState.approvalById
  show _ = ((s.getApprovalById id).map (·.runKey)).bind fun rk => s.getApproval rk.1 rk.2
  cases hrec : s.getApprovalById id with
  | none => rfl
  | some rec =>
    obtain ⟨hmem, _⟩ := approvalById_some.mp hrec
    exact (approval_some.mpr ⟨hmem, rfl, rfl⟩).symm

theorem mem_listPending_view (s : SqlGuardStore) (r : String) (rec : ApprovalRecord) :
    rec ∈ s.listPending r ↔ ∃ k, (view s).approval r k = some rec ∧ rec.state = .pending := by
  simp only [SqlTables.listPending, List.mem_filter, decide_eq_true_eq]
  constructor
  · rintro ⟨hmem, hrun, hst⟩
    exact ⟨_, approval_some.mpr ⟨hmem, hrun, rfl⟩, hst⟩
  · rintro ⟨k, happ, hst⟩
    obtain ⟨hmem, hrun, _⟩ := approval_some.mp happ
    exact ⟨hmem, hrun, hst⟩

theorem fresh_approval (s : SqlGuardStore) : s.getApprovalById ⟨s.nextApproval⟩ = none := by
  cases h : s.getApprovalById ⟨s.nextApproval⟩ with
  | none => rfl
  | some rec =>
    obtain ⟨hmem, hid⟩ := approvalById_some.mp h
    have hlt := s.wf.supply rec hmem
    rw [hid] at hlt
    exact absurd hlt (Nat.lt_irrefl _)

theorem view_createPending (s : SqlGuardStore) (r k name sub : String) (cost : ℚ)
    (params : JsonText) (t : Time) (hnone : s.getApproval r k = none) :
    ∃ id s', (view s).approvalKey id = none ∧
      GuardStore.createPending s r k name sub cost params t =
        (⟨id, r, k, name, sub, cost, params, .pending, t⟩, s') ∧
      view s' = (view s).held ⟨id, r, k, name, sub, cost, params, .pending, t⟩ := by
  have hfresh := fresh_approval s
  refine ⟨⟨s.nextApproval⟩, (GuardStore.createPending s r k name sub cost params t).2, ?_, ?_, ?_⟩
  · show (s.getApprovalById ⟨s.nextApproval⟩).map (·.runKey) = none
    rw [hfresh]
    rfl
  · refine Prod.ext ?_ rfl
    show (s.createPending r k name sub cost params t).1 = _
    unfold SqlTables.createPending
    rw [hnone]
  · unfold view GuardState.held
    congr 1
    case e_approval =>
      funext r' k'
      exact SqlTables.getApproval_createPending hnone name sub cost params t r' k'
    case e_approvalKey =>
      funext id
      show ((s.createPending r k name sub cost params t).2.getApprovalById id).map _ = _
      rw [SqlTables.getApprovalById_createPending hnone hfresh]
      split <;> rfl
    all_goals
      funext
      simp only [GuardStore.createPending, SqlTables.createPending_none hnone]
      rfl

theorem getApproval_setApprovalState (s : SqlGuardStore) (id : ApprovalId) (st : ApprovalState)
    (r k : String) :
    (s.setApprovalState id st).getApproval r k =
      if (s.getApprovalById id).map (·.runKey) = some (r, k) then
        (s.getApproval r k).map fun rec => { rec with state := st }
      else s.getApproval r k := by
  have hwf' := SqlTables.setApprovalState_wf s.wf id st
  by_cases hkey : (s.getApprovalById id).map (·.runKey) = some (r, k)
  · rw [if_pos hkey]
    obtain ⟨rec, hrec, hrk⟩ := Option.map_eq_some_iff.mp hkey
    obtain ⟨hmem, hid⟩ := approvalById_some.mp hrec
    injection hrk with hr hk
    have hold : s.getApproval r k = some rec := approval_some.mpr ⟨hmem, hr, hk⟩
    rw [hold, Option.map_some]
    refine (approval_some (s := ⟨_, hwf'⟩)).mpr ⟨?_, hr, hk⟩
    exact List.mem_map.mpr ⟨rec, hmem, if_pos hid⟩
  · rw [if_neg hkey]
    cases hold : s.getApproval r k with
    | none =>
      refine selectBy_none.mpr ?_
      intro row hrow
      obtain ⟨row', hmem, rfl⟩ := mem_updateBy hrow
      have hne := selectBy_none.mp hold row' hmem
      split <;> exact hne
    | some rec =>
      obtain ⟨hmem, hr, hk⟩ := approval_some.mp hold
      refine (approval_some (s := ⟨_, hwf'⟩)).mpr ⟨?_, hr, hk⟩
      refine List.mem_map.mpr ⟨rec, hmem, if_neg fun hid => hkey ?_⟩
      rw [approvalById_some.mpr ⟨hmem, hid⟩, ← hr, ← hk]
      rfl

theorem view_setApprovalState (s : SqlGuardStore) (id : ApprovalId) (st : ApprovalState)
    (rec : ApprovalRecord) (h : s.getApprovalById id = some rec) :
    ∃ s', GuardStore.setApprovalState s id st = .ok s' ∧ view s' = (view s).decided id st := by
  refine ⟨_, rfl, ?_⟩
  unfold GuardState.decided
  unfold view
  congr 1
  · funext r k
    exact getApproval_setApprovalState s id st r k
  · funext id'
    show ((s.setApprovalState id st).getApprovalById id').map (·.runKey) =
      (s.getApprovalById id').map (·.runKey)
    rw [SqlTables.getApprovalById_setApprovalState]
    split
    · rename_i he
      rw [he, h]
      rfl
    · rfl

instance : LawfulGuardStore SqlGuardStore where
  view := view
  view_wf := view_wf
  view_empty := by
    unfold view GuardState.init
    congr 1
    funext r
    exact SqlTables.readAudit_eq SqlTables.empty_wf r
  getResult_eq _ _ _ := rfl
  getApproval_eq _ _ _ := rfl
  getApprovalById_eq := getApprovalById_view
  subjectExecutedCount_eq _ _ _ := rfl
  accumulatedSpend_eq _ _ := rfl
  isBreakerOpen_eq _ _ := rfl
  readAudit_eq _ _ := rfl
  mem_listPending := mem_listPending_view
  view_putResult s r k st j h := by
    unfold GuardState.stored view
    congr 1
    · funext r' k'
      exact SqlTables.getResult_putResult h st j r' k'
    all_goals
      funext
      simp only [GuardStore.putResult, SqlTables.putResult, show s.getResult r k = none from h]
      rfl
  view_createPending s r k name sub cost params t h :=
    view_createPending s r k name sub cost params t h
  view_setApprovalState s id st rec h :=
    view_setApprovalState s id st rec ((getApprovalById_view s id).trans h)
  view_recordExecution s r sub cost := by
    unfold GuardState.charged view
    congr 1
    · funext r' sub'
      exact SqlTables.subjectExecutedCount_recordExecution s.toSqlTables r sub cost r' sub'
    · funext r'
      exact SqlTables.accumulatedSpend_recordExecution s.toSqlTables r sub cost r'
    · funext r'
      exact SqlTables.isBreakerOpen_recordExecution s.toSqlTables r sub cost r'
  view_tripBreaker s r := by
    unfold GuardState.tripped view
    congr 1
    · funext r'
      exact SqlTables.accumulatedSpend_tripBreaker s.toSqlTables r r'
    · funext r'
      exact SqlTables.isBreakerOpen_tripBreaker s.toSqlTables r r'
  view_appendAudit s r name sub key cost decision detail := by
    have hwf' := SqlTables.appendAudit_wf s.wf r name sub key cost decision detail
    have hentry : (s.appendAudit r name sub key cost decision detail).1 =
        (view s).nextEntry r name sub key cost decision detail := by
      show AuditEntry.mk r (_ + 1) name sub key cost decision detail =
        AuditEntry.mk r ((s.readAudit r).length + 1) name sub key cost decision detail
      rw [SqlTables.nextSeq_eq s.wf, SqlTables.readAudit_eq s.wf]
    refine ⟨hentry, ?_⟩
    unfold GuardState.logged
    unfold view at hentry ⊢
    rw [← hentry]
    congr 1
    funext r'
    show (s.appendAudit r name sub key cost decision detail).2.readAudit r' =
      if r' = r then s.readAudit r' ++ [_] else s.readAudit r'
    rw [SqlTables.readAudit_eq hwf', SqlTables.readAudit_eq s.wf]
    simp only [SqlTables.appendAudit, SqlTables.auditOf, List.filter_append]
    by_cases h : r' = r
    · simp [h]
    · simp [h, Ne.symm h]

end SqlGuardStore

end PaymentRecovery.Guardrails

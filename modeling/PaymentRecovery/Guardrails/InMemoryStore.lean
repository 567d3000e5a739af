import Mathlib.Data.List.Sort
import PaymentRecovery.Guardrails.Store
import PaymentRecovery.Lib.Dict

/-!
# The in-memory guard store

The dictionaries of `InMemoryGuardStore`, its methods, and the invariant that
makes it a lawful store: the approval index and the approvals name each other,
and the sequence numbers of a run count its audit entries.
-/

namespace PaymentRecovery.Guardrails

open PaymentRecovery.Python PaymentRecovery.Lib

/-- The attributes of `InMemoryGuardStore`. `nextApproval` is the supply that
`_new_approval_id` draws from. -/
structure InMemoryTables where
  idem : Dict (String × String) IdempotencyRecord
  approvals : Dict ApprovalId ApprovalRecord
  approvalByKey : Dict (String × String) ApprovalId
  execCounts : Dict (String × String) Nat
  spend : Dict String ℚ
  breaker : Dict String Bool
  auditLog : List AuditEntry
  seq : Dict String Nat
  nextApproval : Nat

namespace InMemoryTables

def empty : InMemoryTables where
  idem := .empty
  approvals := .empty
  approvalByKey := .empty
  execCounts := .empty
  spend := .empty
  breaker := .empty
  auditLog := []
  seq := .empty
  nextApproval := 0

def getResult (s : InMemoryTables) (runId idempotencyKey : String) : Option IdempotencyRecord :=
  s.idem.get? (runId, idempotencyKey)

def putResult (s : InMemoryTables) (runId idempotencyKey status : String)
    (resultJson : JsonText) : InMemoryTables :=
  { s with idem := s.idem.set (runId, idempotencyKey) ⟨runId, idempotencyKey, status, resultJson⟩ }

def getApproval (s : InMemoryTables) (runId idempotencyKey : String) : Option ApprovalRecord :=
  (s.approvalByKey.get? (runId, idempotencyKey)).bind s.approvals.get?

def getApprovalById (s : InMemoryTables) (id : ApprovalId) : Option ApprovalRecord :=
  s.approvals.get? id

def createPending (s : InMemoryTables) (runId idempotencyKey actionName subjectId : String)
    (cost : ℚ) (paramsJson : JsonText) (createdAt : Time) : ApprovalRecord × InMemoryTables :=
  match s.getApproval runId idempotencyKey with
  | some existing => (existing, s)
  | none =>
    let record : ApprovalRecord :=
      ⟨⟨s.nextApproval⟩, runId, idempotencyKey, actionName, subjectId, cost, paramsJson,
        .pending, createdAt⟩
    (record,
      { s with
        approvals := s.approvals.set record.approvalId record
        approvalByKey := s.approvalByKey.set (runId, idempotencyKey) record.approvalId
        nextApproval := s.nextApproval + 1 })

def setApprovalState (s : InMemoryTables) (id : ApprovalId) (state : ApprovalState) :
    Except PyExc InMemoryTables :=
  match s.approvals.get? id with
  | none => .error ⟨.keyError, strRepr id.text⟩
  | some record => .ok { s with approvals := s.approvals.set id { record with state := state } }

def listPending (s : InMemoryTables) (runId : String) : List ApprovalRecord :=
  s.approvals.values.filter fun r => r.runId = runId ∧ r.state = .pending

def subjectExecutedCount (s : InMemoryTables) (runId subjectId : String) : Nat :=
  (s.execCounts.get? (runId, subjectId)).getD 0

def accumulatedSpend (s : InMemoryTables) (runId : String) : ℚ :=
  (s.spend.get? runId).getD 0

def recordExecution (s : InMemoryTables) (runId subjectId : String) (cost : ℚ) :
    InMemoryTables :=
  { s with
    execCounts := s.execCounts.set (runId, subjectId) (s.subjectExecutedCount runId subjectId + 1)
    spend := s.spend.set runId (s.accumulatedSpend runId + cost) }

def isBreakerOpen (s : InMemoryTables) (runId : String) : Bool :=
  (s.breaker.get? runId).getD false

def tripBreaker (s : InMemoryTables) (runId : String) : InMemoryTables :=
  { s with breaker := s.breaker.set runId true }

def appendAudit (s : InMemoryTables) (runId actionName subjectId idempotencyKey : String)
    (cost : ℚ) (decision detail : String) : AuditEntry × InMemoryTables :=
  let seq := (s.seq.get? runId).getD 0 + 1
  let entry : AuditEntry :=
    ⟨runId, seq, actionName, subjectId, idempotencyKey, cost, decision, detail⟩
  (entry, { s with seq := s.seq.set runId seq, auditLog := s.auditLog ++ [entry] })

def readAudit (s : InMemoryTables) (runId : String) : List AuditEntry :=
  (s.auditLog.filter fun e => e.runId = runId).mergeSort fun a b => a.seq ≤ b.seq

/-! ## The invariant -/

/-- What every method keeps. -/
structure Wf (s : InMemoryTables) : Prop where
  indexed : ∀ id rec, s.approvals.get? id = some rec →
    rec.approvalId = id ∧ s.approvalByKey.get? (rec.runId, rec.idempotencyKey) = some id
  resolved : ∀ r k id, s.approvalByKey.get? (r, k) = some id →
    ∃ rec, s.approvals.get? id = some rec ∧ rec.runId = r ∧ rec.idempotencyKey = k
  supply : ∀ id rec, s.approvals.get? id = some rec → id.serial < s.nextApproval
  seqs : ∀ r, (s.auditLog.filter fun e => e.runId = r).map (·.seq) =
    List.range' 1 ((s.seq.get? r).getD 0)

theorem empty_wf : empty.Wf where
  indexed _ _ h := by simp [empty] at h
  resolved _ _ _ h := by simp [empty] at h
  supply _ _ h := by simp [empty] at h
  seqs _ := rfl

theorem getApproval_none {s : InMemoryTables} (hwf : s.Wf) {r k : String}
    (h : s.getApproval r k = none) : s.approvalByKey.get? (r, k) = none := by
  cases hk : s.approvalByKey.get? (r, k) with
  | none => rfl
  | some id =>
    obtain ⟨rec, hrec, _⟩ := hwf.resolved r k id hk
    unfold getApproval at h
    rw [hk, Option.bind_some, hrec] at h
    exact absurd h (by simp)

theorem fresh_approval {s : InMemoryTables} (hwf : s.Wf) :
    s.approvals.get? ⟨s.nextApproval⟩ = none := by
  cases h : s.approvals.get? ⟨s.nextApproval⟩ with
  | none => rfl
  | some rec => exact absurd (hwf.supply _ rec h) (Nat.lt_irrefl _)

theorem createPending_wf {s : InMemoryTables} (hwf : s.Wf) (r k name sub : String) (cost : ℚ)
    (params : JsonText) (t : Time) : (s.createPending r k name sub cost params t).2.Wf := by
  unfold createPending
  cases hnone : s.getApproval r k with
  | some existing => exact hwf
  | none =>
    have hkey := getApproval_none hwf hnone
    have hfresh := fresh_approval hwf
    refine ⟨?_, ?_, ?_, hwf.seqs⟩
    · -- every record is indexed under its own key, and no older one was under the new key
      intro id rec hrec
      simp only [Dict.get?_set] at hrec ⊢
      split at hrec
      · rename_i hid
        injection hrec with hrec
        subst hrec
        exact ⟨hid.symm, by rw [if_pos rfl, hid]⟩
      · obtain ⟨hown, hidx⟩ := hwf.indexed id rec hrec
        refine ⟨hown, ?_⟩
        rw [if_neg, hidx]
        intro he
        rw [he, hkey] at hidx
        exact absurd hidx (by simp)
    · -- every index entry finds its record, and no older one is under the new id
      intro r' k' id hid
      simp only [Dict.get?_set] at hid ⊢
      split at hid
      · rename_i hrk
        injection hid with hid
        injection hrk with hr hk
        exact ⟨_, by rw [if_pos hid.symm], hr.symm, hk.symm⟩
      · obtain ⟨rec, hrec, hown⟩ := hwf.resolved r' k' id hid
        refine ⟨rec, ?_, hown⟩
        rw [if_neg, hrec]
        intro he
        rw [he, hfresh] at hrec
        exact absurd hrec (by simp)
    · -- the supply has moved past the new id
      intro id rec hrec
      simp only [Dict.get?_set] at hrec
      show id.serial < s.nextApproval + 1
      split at hrec
      · rename_i hid
        rw [hid]
        exact Nat.lt_succ_self _
      · exact Nat.lt_succ_of_lt (hwf.supply id rec hrec)

theorem setApprovalState_wf {s s' : InMemoryTables} (hwf : s.Wf) {id : ApprovalId}
    {st : ApprovalState} (h : s.setApprovalState id st = .ok s') : s'.Wf := by
  unfold setApprovalState at h
  cases hrec : s.approvals.get? id with
  | none => rw [hrec] at h; exact absurd h (by simp)
  | some record =>
    rw [hrec] at h
    injection h with h
    subst h
    obtain ⟨hown, hidx⟩ := hwf.indexed id record hrec
    refine ⟨?_, ?_, ?_, hwf.seqs⟩
    · intro id' rec hget
      simp only [Dict.get?_set] at hget
      split at hget
      · rename_i hid
        injection hget with hget
        subst hget
        exact ⟨by rw [hid]; exact hown, by rw [hid]; exact hidx⟩
      · exact hwf.indexed id' rec hget
    · intro r k id' hid'
      obtain ⟨rec, hget, hr, hk⟩ := hwf.resolved r k id' hid'
      simp only [Dict.get?_set]
      by_cases hid : id' = id
      · subst hid
        rw [hrec] at hget
        injection hget with hget
        subst hget
        exact ⟨_, if_pos rfl, hr, hk⟩
      · exact ⟨rec, by rw [if_neg hid]; exact hget, hr, hk⟩
    · intro id' rec hget
      simp only [Dict.get?_set] at hget
      split at hget
      · rename_i hid
        rw [hid]
        exact hwf.supply id record hrec
      · exact hwf.supply id' rec hget

theorem appendAudit_wf {s : InMemoryTables} (hwf : s.Wf) (r name sub key : String) (cost : ℚ)
    (decision detail : String) : (s.appendAudit r name sub key cost decision detail).2.Wf := by
  refine ⟨hwf.indexed, hwf.resolved, hwf.supply, ?_⟩
  intro r'
  simp only [appendAudit, List.filter_append, List.map_append, Dict.get?_set, hwf.seqs r']
  by_cases h : r' = r
  · subst h
    rw [if_pos rfl, Option.getD_some, List.range'_1_concat, Nat.add_comm 1]
    simp
  · simp [h, Ne.symm h]

/-- The entries of a run are stored in order of their sequence numbers, so sorting them
again changes nothing. -/
theorem readAudit_eq {s : InMemoryTables} (hwf : s.Wf) (r : String) :
    s.readAudit r = s.auditLog.filter fun e => e.runId = r := by
  unfold readAudit
  apply List.mergeSort_of_pairwise
  have hseq : ((s.auditLog.filter fun e => e.runId = r).map (·.seq)).Pairwise (· ≤ ·) := by
    rw [hwf.seqs r]
    exact (List.pairwise_lt_range' (s := 1)).imp Nat.le_of_lt
  rw [List.pairwise_map] at hseq
  exact hseq.imp fun hle => by simpa using hle

theorem readAudit_length {s : InMemoryTables} (hwf : s.Wf) (r : String) :
    (s.readAudit r).length = (s.seq.get? r).getD 0 := by
  have h := congrArg List.length (hwf.seqs r)
  rw [readAudit_eq hwf]
  simpa using h

end InMemoryTables

/-- Fast, for tests and ephemeral runs. -/
structure InMemoryGuardStore extends InMemoryTables where
  wf : toInMemoryTables.Wf

namespace InMemoryGuardStore

/-- `set_approval_state` on the tables, with their invariant. -/
def setApprovalState (s : InMemoryGuardStore) (id : ApprovalId) (st : ApprovalState) :
    Except PyExc InMemoryGuardStore :=
  match h : s.toInMemoryTables.setApprovalState id st with
  | .error e => .error e
  | .ok s' => .ok ⟨s', InMemoryTables.setApprovalState_wf s.wf h⟩

theorem setApprovalState_ok {s : InMemoryGuardStore} {id : ApprovalId} {st : ApprovalState}
    {s' : InMemoryTables} (h : s.toInMemoryTables.setApprovalState id st = .ok s') :
    s.setApprovalState id st = .ok ⟨s', InMemoryTables.setApprovalState_wf s.wf h⟩ := by
  unfold setApprovalState
  split
  · rename_i e he
    rw [h] at he
    exact absurd he (by simp)
  · rename_i s'' he
    rw [h] at he
    injection he with he
    subst he
    rfl

instance : GuardStore InMemoryGuardStore where
  empty := ⟨.empty, InMemoryTables.empty_wf⟩
  getResult s := s.getResult
  putResult s r k st j :=
    ⟨s.putResult r k st j, ⟨s.wf.indexed, s.wf.resolved, s.wf.supply, s.wf.seqs⟩⟩
  getApproval s := s.getApproval
  getApprovalById s := s.getApprovalById
  createPending s r k name sub cost params t :=
    ((s.createPending r k name sub cost params t).1,
      ⟨(s.createPending r k name sub cost params t).2,
        InMemoryTables.createPending_wf s.wf r k name sub cost params t⟩)
  setApprovalState s := s.setApprovalState
  listPending s := s.listPending
  subjectExecutedCount s := s.subjectExecutedCount
  accumulatedSpend s := s.accumulatedSpend
  recordExecution s r sub cost :=
    ⟨s.recordExecution r sub cost, ⟨s.wf.indexed, s.wf.resolved, s.wf.supply, s.wf.seqs⟩⟩
  isBreakerOpen s := s.isBreakerOpen
  tripBreaker s r := ⟨s.tripBreaker r, ⟨s.wf.indexed, s.wf.resolved, s.wf.supply, s.wf.seqs⟩⟩
  appendAudit s r name sub key cost decision detail :=
    ((s.appendAudit r name sub key cost decision detail).1,
      ⟨(s.appendAudit r name sub key cost decision detail).2,
        InMemoryTables.appendAudit_wf s.wf r name sub key cost decision detail⟩)
  readAudit s := s.readAudit

/-! ## The store is lawful -/

/-- The state the dictionaries stand for. -/
def view (s : InMemoryGuardStore) : GuardState where
  result := s.getResult
  approval := s.getApproval
  approvalKey id := (s.approvals.get? id).map fun rec => (rec.runId, rec.idempotencyKey)
  count := s.subjectExecutedCount
  spend := s.accumulatedSpend
  breaker := s.isBreakerOpen
  audit := s.readAudit

theorem approval_some {s : InMemoryGuardStore} {r k : String} {rec : ApprovalRecord} :
    s.getApproval r k = some rec ↔
      s.approvalByKey.get? (r, k) = some rec.approvalId ∧
        s.approvals.get? rec.approvalId = some rec := by
  constructor
  · intro h
    obtain ⟨id, hid, hrec⟩ := Option.bind_eq_some_iff.mp h
    have hown := (s.wf.indexed id rec hrec).1
    rw [hown]
    exact ⟨hid, hrec⟩
  · rintro ⟨hid, hrec⟩
    exact Option.bind_eq_some_iff.mpr ⟨_, hid, hrec⟩

theorem approvalKey_some {s : InMemoryGuardStore} {id : ApprovalId} {r k : String} :
    (view s).approvalKey id = some (r, k) ↔ s.approvalByKey.get? (r, k) = some id := by
  constructor
  · intro h
    obtain ⟨rec, hrec, hrk⟩ := Option.map_eq_some_iff.mp h
    injection hrk with hr hk
    rw [← hr, ← hk]
    exact (s.wf.indexed id rec hrec).2
  · intro h
    obtain ⟨rec, hrec, hr, hk⟩ := s.wf.resolved r k id h
    exact Option.map_eq_some_iff.mpr ⟨rec, hrec, by rw [hr, hk]⟩

theorem view_wf (s : InMemoryGuardStore) : (view s).Wf where
  approval_own r k rec h := by
    obtain ⟨hid, hrec⟩ := approval_some.mp h
    obtain ⟨rec', hrec', hr, hk⟩ := s.wf.resolved r k _ hid
    have hsame : rec = rec' := Option.some.inj (hrec.symm.trans hrec')
    subst hsame
    exact ⟨hr, hk, approvalKey_some.mpr hid⟩
  approvalKey_held id r k h := by
    have hid := approvalKey_some.mp h
    obtain ⟨rec, hrec, _⟩ := s.wf.resolved r k id hid
    have hown := (s.wf.indexed id rec hrec).1
    subst hown
    exact ⟨rec, approval_some.mpr ⟨hid, hrec⟩, rfl⟩

theorem getApprovalById_view (s : InMemoryGuardStore) (id : ApprovalId) :
    s.getApprovalById id = (view s).approvalById id := by
  show s.approvals.get? id = _
  cases hrec : s.approvals.get? id with
  | none => simp [GuardState.approvalById, view, hrec]
  | some rec =>
    obtain ⟨hown, hidx⟩ := s.wf.indexed id rec hrec
    subst hown
    have happ := approval_some.mpr ⟨hidx, hrec⟩
    simp [GuardState.approvalById, view, hrec, happ]

theorem mem_listPending_view (s : InMemoryGuardStore) (r : String) (rec : ApprovalRecord) :
    rec ∈ s.listPending r ↔ ∃ k, (view s).approval r k = some rec ∧ rec.state = .pending := by
  simp only [InMemoryTables.listPending, List.mem_filter, Dict.mem_values, decide_eq_true_eq]
  constructor
  · rintro ⟨⟨id, hrec⟩, hrun, hst⟩
    obtain ⟨hown, hidx⟩ := s.wf.indexed id rec hrec
    subst hown
    exact ⟨rec.idempotencyKey, approval_some.mpr ⟨hrun ▸ hidx, hrec⟩, hst⟩
  · rintro ⟨k, happ, hst⟩
    exact ⟨⟨_, (approval_some.mp happ).2⟩, ((view_wf s).approval_own r k rec happ).1, hst⟩

theorem view_createPending (s : InMemoryGuardStore) (r k name sub : String) (cost : ℚ)
    (params : JsonText) (t : Time) (hnone : s.getApproval r k = none) :
    ∃ id s', (view s).approvalKey id = none ∧
      GuardStore.createPending s r k name sub cost params t =
        (⟨id, r, k, name, sub, cost, params, .pending, t⟩, s') ∧
      view s' = (view s).held ⟨id, r, k, name, sub, cost, params, .pending, t⟩ := by
  have hfresh := InMemoryTables.fresh_approval s.wf
  refine ⟨⟨s.nextApproval⟩, (GuardStore.createPending s r k name sub cost params t).2,
    by simp [view, hfresh], ?_, ?_⟩
  · refine Prod.ext ?_ rfl
    show (s.createPending r k name sub cost params t).1 = _
    unfold InMemoryTables.createPending
    rw [hnone]
  · have hs : (GuardStore.createPending s r k name sub cost params t).2.toInMemoryTables =
        { s.toInMemoryTables with
          approvals := s.approvals.set ⟨s.nextApproval⟩
            ⟨⟨s.nextApproval⟩, r, k, name, sub, cost, params, .pending, t⟩
          approvalByKey := s.approvalByKey.set (r, k) ⟨s.nextApproval⟩
          nextApproval := s.nextApproval + 1 } := by
      show (s.createPending r k name sub cost params t).2 = _
      unfold InMemoryTables.createPending
      rw [hnone]
    unfold view GuardState.held
    rw [hs]
    congr 1
    · -- by run and key: an older key cannot lead to the new id
      funext r' k'
      simp only [InMemoryTables.getApproval, Dict.get?_set, Prod.mk.injEq]
      split
      · simp
      · cases hid : s.approvalByKey.get? (r', k') with
        | none => rfl
        | some id =>
          obtain ⟨rec, hrec, _⟩ := s.wf.resolved r' k' id hid
          rw [Option.bind_some, Option.bind_some, if_neg]
          intro he
          rw [he, hfresh] at hrec
          exact absurd hrec (by simp)
    · funext id
      simp only [Dict.get?_set]
      split <;> rfl

theorem view_setApprovalState (s : InMemoryGuardStore) (id : ApprovalId) (st : ApprovalState)
    (rec : ApprovalRecord) (h : s.approvals.get? id = some rec) :
    ∃ s', GuardStore.setApprovalState s id st = .ok s' ∧ view s' = (view s).decided id st := by
  have hset : s.toInMemoryTables.setApprovalState id st =
      .ok { s.toInMemoryTables with approvals := s.approvals.set id { rec with state := st } } := by
    unfold InMemoryTables.setApprovalState
    rw [h]
  refine ⟨_, setApprovalState_ok hset, ?_⟩
  · unfold GuardState.decided
    unfold view
    congr 1
    · -- only the key indexed to this id sees the new state
      funext r k
      simp only [InMemoryTables.getApproval]
      by_cases hkey : s.approvalByKey.get? (r, k) = some id
      · have hview := approvalKey_some.mpr hkey
        unfold view at hview
        rw [if_pos hview, hkey, Option.bind_some, Option.bind_some, h, Dict.get?_set_self]
        rfl
      · have hview : ¬(view s).approvalKey id = some (r, k) :=
          fun hv => hkey (approvalKey_some.mp hv)
        unfold view at hview
        rw [if_neg hview]
        cases hid : s.approvalByKey.get? (r, k) with
        | none => rfl
        | some id' =>
          rw [Option.bind_some, Option.bind_some, Dict.get?_set, if_neg]
          intro he
          rw [hid, he] at hkey
          exact hkey rfl
    · -- the run and key of a record do not change
      funext id'
      simp only [Dict.get?_set]
      split
      · rename_i he
        rw [he, h]
        rfl
      · rfl

instance : LawfulGuardStore InMemoryGuardStore where
  view := view
  view_wf := view_wf
  view_empty := by
    unfold view GuardState.init
    congr 1
    funext r
    exact InMemoryTables.readAudit_eq InMemoryTables.empty_wf r
  getResult_eq _ _ _ := rfl
  getApproval_eq _ _ _ := rfl
  getApprovalById_eq := getApprovalById_view
  subjectExecutedCount_eq _ _ _ := rfl
  accumulatedSpend_eq _ _ := rfl
  isBreakerOpen_eq _ _ := rfl
  readAudit_eq _ _ := rfl
  mem_listPending := mem_listPending_view
  view_putResult s r k st j _ := by
    unfold GuardState.stored view
    congr 1
    funext r' k'
    exact (Dict.get?_set _ _ _ _).trans (by simp only [Prod.mk.injEq]; rfl)
  view_createPending s r k name sub cost params t h :=
    view_createPending s r k name sub cost params t h
  view_setApprovalState s id st rec h :=
    view_setApprovalState s id st rec ((getApprovalById_view s id).trans h)
  view_recordExecution s r sub cost := by
    unfold GuardState.charged view
    congr 1
    · funext r' sub'
      show ((s.execCounts.set (r, sub) _).get? (r', sub')).getD 0 = _
      simp only [Dict.get?_set, Prod.mk.injEq]
      split
      · rename_i he
        rw [he.1, he.2]
        rfl
      · rfl
    · funext r'
      show ((s.spend.set r _).get? r').getD 0 = _
      simp only [Dict.get?_set]
      split
      · rename_i he
        rw [he]
        rfl
      · rfl
  view_tripBreaker s r := by
    unfold GuardState.tripped view
    congr 1
    funext r'
    show ((s.breaker.set r true).get? r').getD false = _
    simp only [Dict.get?_set]
    split <;> rfl
  view_appendAudit s r name sub key cost decision detail := by
    have hlen := InMemoryTables.readAudit_length s.wf r
    have hentry : (s.appendAudit r name sub key cost decision detail).1 =
        (view s).nextEntry r name sub key cost decision detail := by
      show AuditEntry.mk r ((s.seq.get? r).getD 0 + 1) name sub key cost decision detail =
        AuditEntry.mk r ((s.readAudit r).length + 1) name sub key cost decision detail
      rw [hlen]
    refine ⟨hentry, ?_⟩
    unfold GuardState.logged
    unfold view
    congr 1
    funext r'
    have hwf' := InMemoryTables.appendAudit_wf s.wf r name sub key cost decision detail
    unfold view at hentry
    rw [← hentry]
    show (s.appendAudit r name sub key cost decision detail).2.readAudit r' =
      if r' = r then s.readAudit r' ++ [_] else s.readAudit r'
    rw [InMemoryTables.readAudit_eq hwf', InMemoryTables.readAudit_eq s.wf]
    simp only [InMemoryTables.appendAudit, List.filter_append]
    by_cases h : r' = r
    · simp [h]
    · simp [h, Ne.symm h]

end InMemoryGuardStore

end PaymentRecovery.Guardrails

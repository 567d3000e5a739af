import PaymentRecovery.Guardrails.Sequence
import PaymentRecovery.Lib.Coupling

/-!
# An executor over two stores

The stores may draw different approval ids and read different clocks, and a
handler sees neither. `Agree` says that two stores hold the same but for these;
an executor call over one store keeps step with the call over the other.
-/

namespace PaymentRecovery.Guardrails

open PaymentRecovery.Python PaymentRecovery.Lib Program

/-! ## States that agree -/

/-- What a record says, its id and its clock reading aside. -/
def ApprovalRecord.content (rec : ApprovalRecord) : ApprovalRecord :=
  { rec with approvalId := ⟨0⟩, createdAt := 0 }

theorem runKey_of_content {a b : ApprovalRecord} (h : a.content = b.content) :
    a.runId = b.runId ∧ a.idempotencyKey = b.idempotencyKey :=
  ⟨show a.content.runId = b.content.runId by rw [h],
    show a.content.idempotencyKey = b.content.idempotencyKey by rw [h]⟩

namespace GuardState

variable {U : String → Prop} {g h : GuardState}

/-- For the runs in `U`: the same results, counts, spend, breaker and audit log, and under each
key an approval of the same content. -/
structure Agree (U : String → Prop) (g h : GuardState) : Prop where
  result : ∀ r k, U r → g.result r k = h.result r k
  approval : ∀ r k, U r → (g.approval r k).map ApprovalRecord.content =
    (h.approval r k).map ApprovalRecord.content
  count : ∀ r subject, U r → g.count r subject = h.count r subject
  spend : ∀ r, U r → g.spend r = h.spend r
  breaker : ∀ r, U r → g.breaker r = h.breaker r
  audit : ∀ r, U r → g.audit r = h.audit r

/-- Two ids name the approval of one run and key. -/
def SameApproval (g h : GuardState) (a b : ApprovalId) : Prop :=
  ∃ rk, g.approvalKey a = some rk ∧ h.approvalKey b = some rk

namespace Agree

theorem refl (g : GuardState) : Agree U g g :=
  ⟨fun _ _ _ => rfl, fun _ _ _ => rfl, fun _ _ _ => rfl, fun _ _ => rfl, fun _ _ => rfl,
    fun _ _ => rfl⟩

theorem symm (hg : Agree U g h) : Agree U h g :=
  ⟨fun r k hr => (hg.result r k hr).symm, fun r k hr => (hg.approval r k hr).symm,
    fun r subject hr => (hg.count r subject hr).symm, fun r hr => (hg.spend r hr).symm,
    fun r hr => (hg.breaker r hr).symm, fun r hr => (hg.audit r hr).symm⟩

/-- An approval of one state has its counterpart in the other. -/
theorem approval_some (hg : Agree U g h) {r k : String} {rec : ApprovalRecord} (hr : U r)
    (hrec : g.approval r k = some rec) :
    ∃ rec', h.approval r k = some rec' ∧ rec.content = rec'.content := by
  have hmap := hg.approval r k hr
  rw [hrec, Option.map_some] at hmap
  obtain ⟨rec', hrec', hcontent⟩ := Option.map_eq_some_iff.mp hmap.symm
  exact ⟨rec', hrec', hcontent.symm⟩

/-- And so has an id. -/
theorem approvalKey_some (hg : Agree U g h) (hwf : g.Wf) (hwf' : h.Wf) {a : ApprovalId}
    {rk : String × String} (hr : U rk.1) (ha : g.approvalKey a = some rk) :
    ∃ b, h.approvalKey b = some rk := by
  obtain ⟨rec, hrec, _⟩ := hwf.approvalKey_held a rk.1 rk.2 ha
  obtain ⟨rec', hrec', _⟩ := hg.approval_some hr hrec
  exact ⟨rec'.approvalId, (hwf'.approval_own _ _ _ hrec').2.2⟩

theorem stored (hg : Agree U g h) (rec : IdempotencyRecord) :
    Agree U (g.stored rec) (h.stored rec) := by
  refine { hg with result := fun r k hr => ?_ }
  unfold GuardState.stored
  dsimp only
  rw [hg.result r k hr]

theorem held (hg : Agree U g h) {a b : ApprovalRecord} (hab : a.content = b.content) :
    Agree U (g.held a) (h.held b) := by
  obtain ⟨hrun, hkey⟩ := runKey_of_content hab
  refine { hg with approval := fun r k hr => ?_ }
  unfold GuardState.held
  dsimp only
  rw [hrun, hkey]
  split
  · exact congrArg some hab
  · exact hg.approval r k hr

theorem decided (hg : Agree U g h) {a b : ApprovalId} (hab : SameApproval g h a b)
    (st : ApprovalState) : Agree U (g.decided a st) (h.decided b st) := by
  obtain ⟨rk, ha, hb⟩ := hab
  refine { hg with approval := fun r k hr => ?_ }
  unfold GuardState.decided
  dsimp only
  rw [ha, hb]
  split
  · have hset : ∀ x : Option ApprovalRecord,
        (x.map fun rec => { rec with state := st }).map ApprovalRecord.content =
          (x.map ApprovalRecord.content).map fun rec => { rec with state := st } := by
      intro x
      cases x <;> rfl
    rw [hset, hset, hg.approval r k hr]
  · exact hg.approval r k hr

theorem charged (hg : Agree U g h) (run subject : String) (cost : ℚ) :
    Agree U (g.charged run subject cost) (h.charged run subject cost) := by
  refine { hg with count := fun r s hr => ?_, spend := fun r hr => ?_ }
  · unfold GuardState.charged
    dsimp only
    rw [hg.count r s hr]
  · unfold GuardState.charged
    dsimp only
    rw [hg.spend r hr]

theorem tripped (hg : Agree U g h) (run : String) : Agree U (g.tripped run) (h.tripped run) := by
  refine { hg with breaker := fun r hr => ?_ }
  unfold GuardState.tripped
  dsimp only
  rw [hg.breaker r hr]

/-- Both logs of the run go on with the same entry. -/
theorem logged (hg : Agree U g h) {run : String} (hrun : U run) (name subject key : String)
    (cost : ℚ) (decision detail : String) :
    Agree U (g.logged (g.nextEntry run name subject key cost decision detail))
      (h.logged (h.nextEntry run name subject key cost decision detail)) := by
  refine { hg with audit := fun r hr => ?_ }
  unfold GuardState.logged GuardState.nextEntry
  dsimp only
  rw [hg.audit run hrun, hg.audit r hr]

end Agree

end GuardState

/-! ## Executors that agree -/

section Executors

variable {σ ρ : Type}

/-- In related environments both handlers answer the same, and leave related environments. -/
def SameHandler (E : σ → ρ → Prop) (handler : EffectHandler σ) (handler' : EffectHandler ρ) : Prop :=
  ∀ action a b, E a b →
    (handler action a).1 = (handler' action b).1 ∧ E (handler action a).2 (handler' action b).2

/-- One executor over two environments that `E` relates. -/
structure SameExecutor (E : σ → ρ → Prop) (ex : GuardedExecutor σ) (ex' : GuardedExecutor ρ) :
    Prop where
  runId : ex.runId = ex'.runId
  policy : ex.policy = ex'.policy
  clock : ∀ a b, E a b → E (ex.now a).2 (ex'.now b).2
  handlers : ∀ name, (ex.handlers.get? name = none ∧ ex'.handlers.get? name = none) ∨
    ∃ handler handler', ex.handlers.get? name = some handler ∧
      ex'.handlers.get? name = some handler' ∧ SameHandler E handler handler'

theorem SameExecutor.register {E : σ → ρ → Prop} {ex : GuardedExecutor σ} {ex' : GuardedExecutor ρ}
    (h : SameExecutor E ex ex') (actionName : String) {handler : EffectHandler σ}
    {handler' : EffectHandler ρ} (hhandler : SameHandler E handler handler') :
    SameExecutor E (ex.register actionName handler) (ex'.register actionName handler') := by
  refine { h with handlers := fun name => ?_ }
  simp only [GuardedExecutor.register, Dict.get?_set]
  split
  · exact .inr ⟨_, _, rfl, rfl, hhandler⟩
  · exact h.handlers name

/-! ## One call over both stores -/

variable {S T : Type} [GuardStore S] [LawfulGuardStore S] [GuardStore T] [LawfulGuardStore T]

/-- The state a world's store stands for. -/
abbrev World.view {S σ : Type} [GuardStore S] [LawfulGuardStore S] (w : World S σ) : GuardState :=
  LawfulGuardStore.view w.store

/-- The stores agree on the runs in `U`, and `E` relates the environments. -/
structure Parallel (U : String → Prop) (E : σ → ρ → Prop) (w : World S σ) (v : World T ρ) :
    Prop where
  agree : w.view.Agree U v.view
  env : E w.env v.env

/-- Both name no approval, or the same. -/
inductive SameRef (g h : GuardState) : Option ApprovalId → Option ApprovalId → Prop where
  | none : SameRef g h none none
  | some {a b : ApprovalId} (hab : g.SameApproval h a b) : SameRef g h (some a) (some b)

/-- The same result, but for the approval id. -/
structure SameResult (g h : GuardState) (r s : ExecutionResult) : Prop where
  status : r.status = s.status
  idempotencyKey : r.idempotencyKey = s.idempotencyKey
  result : r.result = s.result
  detail : r.detail = s.detail
  approvalId : SameRef g h r.approvalId s.approvalId

/-- `SameResult`, in the states two worlds show. -/
def SameAnswerIn (w : World S σ) (v : World T ρ) (r s : ExecutionResult) : Prop :=
  SameResult w.view v.view r s

section Calls

open GuardedExecutor LawfulGuardStore

variable {U : String → Prop} {E : σ → ρ → Prop} {ex : GuardedExecutor σ}
  {ex' : GuardedExecutor ρ}

theorem view_audited (w : World S σ) (run : String) (action : Action)
    (decision detail : String) : (w.audited run action decision detail).view =
      w.view.logged (w.view.nextEntry run action.name action.subjectId action.idempotencyKey
        action.cost decision detail) :=
  (view_appendAudit _ _ _ _ _ _ _ _).2

theorem finish_coupled (hex : SameExecutor E ex ex') (hU : U ex.runId) (action : Action)
    (status : ExecutionStatus) (result : PyVal) {a b : Option ApprovalId} (detail : String) :
    Coupled (fun w v => Parallel U E w v ∧ SameRef w.view v.view a b) (Parallel U E)
      (SameAnswerIn (S := S) (T := T))
      (ex.finish action status result a detail) (ex'.finish action status result b detail) := by
  rintro w v ⟨hpar, href⟩
  rw [run_finish, run_finish, ← hex.runId]
  refine ⟨⟨?_, hpar.env⟩, .ok ⟨rfl, rfl, rfl, rfl, ?_⟩⟩
  · show (w.audited _ _ _ _).view.Agree U (v.audited _ _ _ _).view
    rw [view_audited, view_audited]
    exact hpar.agree.logged hU _ _ _ _ _ _
  · show SameRef (w.audited _ _ _ _).view (v.audited _ _ _ _).view a b
    rw [view_audited, view_audited]
    -- the ids keep their keys
    cases href with
    | none => exact .none
    | some hab => exact .some hab

theorem finish_parallel (hex : SameExecutor E ex ex') (hU : U ex.runId) (action : Action)
    (status : ExecutionStatus) (result : PyVal) (detail : String) :
    Coupled (Parallel U E) (Parallel U E) (SameAnswerIn (S := S) (T := T))
      (ex.finish action status result none detail) (ex'.finish action status result none detail) :=
  (finish_coupled hex hU action status result detail).mono (fun _ _ h => ⟨h, .none⟩)
    fun _ _ _ _ _ h => h

/-- Both records sit under this key, and have the same content. -/
structure Queued (run key : String) (w : World S σ) (v : World T ρ)
    (a b : ApprovalRecord) : Prop where
  left : w.view.approval run key = some a
  right : v.view.approval run key = some b
  content : a.content = b.content

theorem createPending_coupled (hex : SameExecutor E ex ex') (hU : U ex.runId) (action : Action)
    (paramsJson : JsonText) :
    Coupled (fun (w : World S σ) (v : World T ρ) =>
        Parallel U E w v ∧ w.view.approval ex.runId action.idempotencyKey = none) (Parallel U E)
      (Queued ex.runId action.idempotencyKey)
      (ex.createPending action paramsJson) (ex'.createPending action paramsJson) := by
  rintro w v ⟨hpar, hnone⟩
  have hnone' : v.view.approval ex'.runId action.idempotencyKey = none := by
    have hmap := hpar.agree.approval ex.runId action.idempotencyKey hU
    rw [hnone, hex.runId] at hmap
    exact Option.map_eq_none_iff.mp hmap.symm
  obtain ⟨id, store, _, hcreate, hheld⟩ := view_createPending w.store ex.runId
    action.idempotencyKey action.name action.subjectId action.cost paramsJson
    (ex.now w.env).1 hnone
  obtain ⟨id', store', _, hcreate', hheld'⟩ := view_createPending v.store ex'.runId
    action.idempotencyKey action.name action.subjectId action.cost paramsJson
    (ex'.now v.env).1 hnone'
  simp only [GuardedExecutor.createPending, run_step, hcreate, hcreate']
  rw [← hex.runId] at hheld' ⊢
  refine ⟨⟨?_, ?_⟩, .ok ⟨?_, ?_, rfl⟩⟩
  · show (view store).Agree U (view store')
    rw [hheld, hheld']
    exact hpar.agree.held rfl
  · exact hex.clock _ _ hpar.env
  · show (view store).approval _ _ = _
    rw [hheld]
    exact if_pos ⟨rfl, rfl⟩
  · show (view store').approval _ _ = _
    rw [hheld']
    exact if_pos ⟨rfl, rfl⟩

/-- What the gate answers: the action passes, or the same result. -/
inductive SameVerdict (w : World S σ) (v : World T ρ) :
    Option ExecutionResult → Option ExecutionResult → Prop where
  | pass : SameVerdict w v none none
  | held {r s : ExecutionResult} (h : SameAnswerIn w v r s) : SameVerdict w v (some r) (some s)

/-- The verdict on a queued record. -/
theorem verdict_coupled (hex : SameExecutor E ex ex') (hU : U ex.runId) (action : Action)
    (a b : ApprovalRecord) :
    Coupled (fun w v => Parallel U E w v ∧ Queued ex.runId action.idempotencyKey w v a b)
      (Parallel U E)
      (SameVerdict (S := S) (T := T))
      (if a.state = .approved then pure none
        else do
          let detail := if a.state = .pending then "awaiting human approval"
            else "approval was rejected; not executing"
          let result ← ex.finish action .pendingApproval .none (some a.approvalId) detail
          return some result)
      (if b.state = .approved then pure none
        else do
          let detail := if b.state = .pending then "awaiting human approval"
            else "approval was rejected; not executing"
          let result ← ex'.finish action .pendingApproval .none (some b.approvalId) detail
          return some result) := by
  rintro w v ⟨hpar, hqueued⟩
  have hstate : a.state = b.state := show a.content.state = b.content.state by rw [hqueued.content]
  have href : SameRef w.view v.view (some a.approvalId) (some b.approvalId) :=
    .some ⟨_, ((view_wf w.store).approval_own _ _ _ hqueued.left).2.2,
      ((view_wf v.store).approval_own _ _ _ hqueued.right).2.2⟩
  rw [← hstate]
  split
  · exact ⟨hpar, .ok .pass⟩
  · refine Coupled.bind (finish_coupled hex hU action .pendingApproval .none _) (fun r s => ?_) w v
      ⟨hpar, href⟩
    exact .pure fun w v h => ⟨h.1, .held h.2⟩

theorem approvalGate_coupled (hex : SameExecutor E ex ex') (hU : U ex.runId) (action : Action) :
    Coupled (Parallel U E) (Parallel U E) (SameVerdict (S := S) (T := T))
      (ex.approvalGate action) (ex'.approvalGate action) := by
  unfold GuardedExecutor.approvalGate
  rw [← hex.policy]
  split
  · refine .bind (A := fun w v a b => w.view.approval ex.runId action.idempotencyKey = a ∧
        v.view.approval ex.runId action.idempotencyKey = b) (.read fun w v hpar => ?_)
      fun a b => ?_
    · rw [getApproval_eq, getApproval_eq, ← hex.runId]
      exact ⟨hpar, rfl, rfl⟩
    · rintro w v ⟨hpar, ha, hb⟩
      have hcontent := hpar.agree.approval ex.runId action.idempotencyKey hU
      rw [ha, hb] at hcontent
      cases a with
      | none =>
        cases b with
        | none =>
          -- both queue a new record
          refine Coupled.bind (P := fun (w : World S σ) (v : World T ρ) =>
              Parallel U E w v ∧ w.view.approval ex.runId action.idempotencyKey = none)
            (R := Parallel U E) (A := fun (w : World S σ) _ a b => a = b ∧
              w.view.approval ex.runId action.idempotencyKey = none)
            (fun w v ⟨hpar, hnone⟩ => ?_) (fun paramsJson paramsJson' => ?_) w v ⟨hpar, ha⟩
          · rw [run_orRaise, run_orRaise]
            exact ⟨hpar, (Answers.of_eq rfl).mono fun a b heq => ⟨heq, hnone⟩⟩
          · rintro w v ⟨hpar, rfl, hnone⟩
            exact Coupled.bind (createPending_coupled hex hU action paramsJson)
              (verdict_coupled hex hU action) w v ⟨hpar, hnone⟩
        | some b => cases hcontent
      | some a =>
        cases b with
        | none => cases hcontent
        | some b =>
          injection hcontent with hcontent
          exact verdict_coupled hex hU action a b w v ⟨hpar, ha, hb, hcontent⟩
  · exact .pure fun w v hpar => ⟨hpar, .pass⟩

/-- The key has no result yet. -/
def Unsettled (run key : String) (w : World S σ) : Prop := w.view.result run key = none

/-- The handlers do the same, and do not touch the stores. -/
theorem invoke_coupled {handler : EffectHandler σ} {handler' : EffectHandler ρ}
    (hhandler : SameHandler E handler handler') (action : Action) (run key : String) :
    Coupled (fun w v => Parallel U E w v ∧ Unsettled run key w) (Parallel U E)
      (fun (w : World S σ) (_ : World T ρ) a b => a = b ∧ Unsettled run key w)
      (ex.invoke handler action) (ex'.invoke handler' action) := by
  refine .attempt fun w v ⟨hpar, hnone⟩ => ?_
  obtain ⟨hanswer, henv⟩ := hhandler action _ _ hpar.env
  refine ⟨⟨hpar.agree, henv⟩, (Answers.of_eq hanswer).mono fun a b heq => ⟨heq, hnone⟩⟩

theorem audit_coupled (hex : SameExecutor E ex ex') (hU : U ex.runId) (action : Action)
    (decision detail : String) :
    Coupled (Parallel U E) (Parallel U E) (fun (_ : World S σ) (_ : World T ρ) _ _ => True)
      (ex.audit action decision detail) (ex'.audit action decision detail) := by
  refine .write fun w v hpar => ⟨?_, hpar.env⟩
  show (w.audited _ _ _ _).view.Agree U (v.audited _ _ _ _).view
  rw [view_audited, view_audited, ← hex.runId]
  exact hpar.agree.logged hU _ _ _ _ _ _

/-- The effect, and the two writes that record it. -/
theorem perform_coupled (hex : SameExecutor E ex ex') (hU : U ex.runId) {handler : EffectHandler σ}
    {handler' : EffectHandler ρ} (hhandler : SameHandler E handler handler') (action : Action) :
    Coupled (fun w v => Parallel U E w v ∧ Unsettled ex.runId action.idempotencyKey w)
      (Parallel U E)
      (SameAnswerIn (S := S) (T := T))
      (ex.perform handler action) (ex'.perform handler' action) := by
  unfold GuardedExecutor.perform
  refine Coupled.bind (.tryCatch (invoke_coupled hhandler action _ _) fun exc =>
    .bind (audit_coupled hex hU action _ _) fun _ _ => .throw fun w v h => h.1)
    fun result result' => ?_
  rintro w v ⟨hpar, rfl, hnone⟩
  refine Coupled.bind (P := fun (w : World S σ) (v : World T ρ) =>
      Parallel U E w v ∧ Unsettled ex.runId action.idempotencyKey w) (R := Parallel U E)
    (A := fun (w : World S σ) _ a b =>
      a = b ∧ Unsettled ex.runId action.idempotencyKey w)
    (fun w v ⟨hpar, hnone⟩ => ?_) (fun resultJson resultJson' => ?_) w v ⟨hpar, hnone⟩
  · rw [run_orRaise, run_orRaise]
    exact ⟨hpar, (Answers.of_eq rfl).mono fun a b heq => ⟨heq, hnone⟩⟩
  · rintro w v ⟨hpar, rfl, hnone⟩
    rw [← hex.runId]
    -- charged and stored, from a key without a result
    have hnone' : v.view.result ex.runId action.idempotencyKey = none :=
      (hpar.agree.result _ _ hU) ▸ hnone
    have hcharged := hpar.agree.charged ex.runId action.subjectId action.cost
    have hw := view_recordExecution w.store ex.runId action.subjectId action.cost
    have hv := view_recordExecution v.store ex.runId action.subjectId action.cost
    have hw' := view_putResult (GuardStore.recordExecution w.store ex.runId action.subjectId
      action.cost) ex.runId action.idempotencyKey ExecutionStatus.executed.value resultJson
      (by rw [hw]; exact hnone)
    have hv' := view_putResult (GuardStore.recordExecution v.store ex.runId action.subjectId
      action.cost) ex.runId action.idempotencyKey ExecutionStatus.executed.value resultJson
      (by rw [hv]; exact hnone')
    simp only [run_bind, run_write]
    refine finish_parallel hex hU action .executed result "executed" _ _ ⟨?_, hpar.env⟩
    show (view (GuardStore.putResult _ _ _ _ _)).Agree U (view (GuardStore.putResult _ _ _ _ _))
    rw [hw', hv', hw, hv]
    exact hcharged.stored _

/-- The two limits and the effect. -/
theorem spend_coupled (hex : SameExecutor E ex ex') (hU : U ex.runId) {handler : EffectHandler σ}
    {handler' : EffectHandler ρ} (hhandler : SameHandler E handler handler') (action : Action) :
    Coupled (fun w v => Parallel U E w v ∧ Unsettled ex.runId action.idempotencyKey w)
      (Parallel U E)
      (SameAnswerIn (S := S) (T := T))
      (ex.spend handler action) (ex'.spend handler' action) := by
  rintro w v ⟨hpar, hnone⟩
  unfold GuardedExecutor.spend
  simp only [run_bind, run_read, subjectExecutedCount_eq]
  rw [← hex.policy, ← hex.runId, ← hpar.agree.count _ _ hU]
  split
  · exact finish_parallel hex hU action .rejectedActionBudget .none _ _ _ hpar
  · simp only [run_bind, run_read, accumulatedSpend_eq]
    rw [← hpar.agree.spend _ hU]
    split
    · simp only [run_bind, run_write]
      refine finish_parallel hex hU action .rejectedSpendCap .none _ _ _ ⟨?_, hpar.env⟩
      show (view (GuardStore.tripBreaker _ _)).Agree U (view (GuardStore.tripBreaker _ _))
      rw [view_tripBreaker, view_tripBreaker]
      exact hpar.agree.tripped _
    · exact perform_coupled hex hU hhandler action w v ⟨hpar, hnone⟩

/-- The gate leaves the results alone. -/
theorem approvalGate_unsettled {run key : String} (action : Action) (w : World S σ)
    (h : Unsettled run key w) : Unsettled run key ((ex.approvalGate action).run w).2 := by
  have haudited : ∀ (w : World S σ) decision detail, Unsettled run key w →
      Unsettled run key (w.audited ex.runId action decision detail) := by
    intro w decision detail h
    unfold Unsettled
    rw [view_audited]
    exact h
  unfold GuardedExecutor.approvalGate
  split
  · simp only [run_bind, run_read, getApproval_eq]
    cases hrec : w.view.approval ex.runId action.idempotencyKey with
    | some rec =>
      simp only [run_bind, run_pure]
      split
      · exact h
      · exact haudited _ _ _ h
    | none =>
      cases hdump : jsonDumps action.params with
      | error exc =>
        simp only [run_bind, run_orRaise]
        exact h
      | ok paramsJson =>
        obtain ⟨id, w', _, hpending, hheld⟩ := run_createPending ex action paramsJson hrec
        have hview : w'.view = w.view.held _ := congrArg Snapshot.state hheld
        simp only [run_bind, run_orRaise, hpending, reduceCtorEq, if_false, if_true, run_finish,
          run_pure]
        refine haudited _ _ _ ?_
        unfold Unsettled
        rw [hview]
        exact h
  · exact h

/-- One call to `execute` keeps step with the same call over the other store. -/
theorem execute_coupled (hex : SameExecutor E ex ex') (hU : U ex.runId) (action : Action) :
    Coupled (Parallel U E) (Parallel U E) (SameAnswerIn (S := S) (T := T)) (ex.execute action)
      (ex'.execute action) := by
  intro w v hpar
  unfold GuardedExecutor.execute
  simp only [run_bind, run_step, isBreakerOpen_eq]
  rw [← hex.runId, ← hpar.agree.breaker _ hU]
  -- the journal is no part of the state
  have hcalled : Parallel U E { w with journal := w.journal ++ [.called ex.runId action] }
      { v with journal := v.journal ++ [.called ex.runId action] } := ⟨hpar.agree, hpar.env⟩
  split
  · exact finish_parallel hex hU action .rejectedBreakerOpen .none _ _ _ hcalled
  · simp only [run_bind, run_read, getResult_eq]
    rw [← hpar.agree.result _ _ hU]
    cases hresult : w.view.result ex.runId action.idempotencyKey with
    | some existing =>
      exact Coupled.bind (.orRaise fun _ _ h => h) (fun result result' => by
        rintro w v ⟨hpar, rfl⟩
        exact finish_parallel hex hU action .duplicate result _ w v hpar) _ _ hcalled
    | none =>
      dsimp only
      rcases hex.handlers action.name with
        ⟨hnone, hnone'⟩ | ⟨handler, handler', hsome, hsome', hhandler⟩
      · rw [hnone, hnone']
        exact ⟨hcalled, .error _⟩
      · rw [hsome, hsome']
        refine Coupled.bind (P := fun (w : World S σ) (v : World T ρ) =>
            Parallel U E w v ∧ Unsettled ex.runId action.idempotencyKey w) (R := Parallel U E)
          (A := fun (w : World S σ) (v : World T ρ) a b => SameVerdict w v a b ∧
            Unsettled ex.runId action.idempotencyKey w)
          (fun w v ⟨hpar, hnone⟩ => ?_) (fun a b => ?_) _ _ ⟨hcalled, hresult⟩
        · obtain ⟨hR, hA⟩ := approvalGate_coupled hex hU action w v hpar
          exact ⟨hR, hA.mono fun a b h => ⟨h, approvalGate_unsettled action w hnone⟩⟩
        · rintro w v ⟨hpar, hverdict, hnone⟩
          cases hverdict with
          | pass => exact spend_coupled hex hU hhandler action w v ⟨hpar, hnone⟩
          | held h => exact ⟨hpar, .ok h⟩

/-! ## Decisions -/

/-- Nobody was given this id. -/
def noSuchApproval (id : ApprovalId) : PyExc :=
  ⟨.approvalError, "no such approval: " ++ strRepr id.text⟩

theorem run_requireApproval_unknown {w : World S σ} {id : ApprovalId}
    (h : w.view.approvalKey id = none) :
    (ex.requireApproval id).run w = (.error (noSuchApproval id), w) := by
  have hnone : GuardStore.getApprovalById w.store id = none := by
    rw [getApprovalById_eq]
    unfold GuardState.approvalById
    rw [h]
    rfl
  unfold GuardedExecutor.requireApproval
  simp only [run_bind, run_read, hnone]
  rfl

theorem run_approve_unknown {w : World S σ} {id : ApprovalId}
    (h : w.view.approvalKey id = none) :
    (ex.approve id).run w = (.error (noSuchApproval id), w) := by
  unfold GuardedExecutor.approve
  rw [run_bind, run_requireApproval_unknown h]

theorem run_rejectApproval_unknown {w : World S σ} {id : ApprovalId}
    (h : w.view.approvalKey id = none) :
    (ex.rejectApproval id).run w = (.error (noSuchApproval id), w) := by
  unfold GuardedExecutor.rejectApproval
  rw [run_bind, run_requireApproval_unknown h]

/-- The ids of one approval find records of one content. -/
theorem known_records (hex : SameExecutor E ex ex') {w : World S σ} {v : World T ρ}
    {a b : ApprovalId} (hpar : Parallel U E w v)
    (hown : ∀ rk, w.view.approvalKey a = some rk → U rk.1) (hab : w.view.SameApproval v.view a b) :
    ∃ rec rec', w.view.approvalById a = some rec ∧ v.view.approvalById b = some rec' ∧
      rec.content = rec'.content ∧ (rec.runId = ex.runId ↔ rec'.runId = ex'.runId) := by
  obtain ⟨rk, ha, hb⟩ := hab
  obtain ⟨rec, hrec, _⟩ := (view_wf w.store).approvalKey_held a rk.1 rk.2 ha
  obtain ⟨rec', hrec', hcontent⟩ := hpar.agree.approval_some (hown rk ha) hrec
  refine ⟨rec, rec', ?_, ?_, hcontent, ?_⟩
  · unfold GuardState.approvalById
    rw [ha]
    exact hrec
  · unfold GuardState.approvalById
    rw [hb]
    exact hrec'
  · rw [(runKey_of_content hcontent).1, hex.runId]

/-- An approval of another run is refused. -/
theorem run_requireApproval_foreign {w : World S σ} {id : ApprovalId} {rec : ApprovalRecord}
    (hrec : w.view.approvalById id = some rec) (hrun : rec.runId ≠ ex.runId) :
    (ex.requireApproval id).run w =
      (.error ⟨.approvalError, "approval belongs to a different run"⟩, w) := by
  unfold GuardedExecutor.requireApproval
  simp only [run_bind, run_read, getApprovalById_eq, hrec, if_neg hrun]
  rfl

/-- The two sides decide the same approval. -/
theorem decided_parallel {w : World S σ} {v : World T ρ} {w' : World S σ}
    {v' : World T ρ} {a b : ApprovalId} {st : ApprovalState} (hpar : Parallel U E w v)
    (hab : w.view.SameApproval v.view a b) (hw : w'.snapshot = w.snapshot.decided a st)
    (hv : v'.snapshot = v.snapshot.decided b st) (henv : w'.env = w.env) (henv' : v'.env = v.env) :
    Parallel U E w' v' := by
  refine ⟨?_, henv ▸ henv' ▸ hpar.env⟩
  rw [show w'.view = _ from congrArg Snapshot.state hw,
    show v'.view = _ from congrArg Snapshot.state hv]
  exact hpar.agree.decided hab st

theorem approve_parallel (hex : SameExecutor E ex ex') (hU : U ex.runId) {w : World S σ}
    {v : World T ρ} {a b : ApprovalId} (hpar : Parallel U E w v)
    (hown : ∀ rk, w.view.approvalKey a = some rk → U rk.1) (hab : w.view.SameApproval v.view a b) :
    Parallel U E ((ex.approve a).run w).2 ((ex'.approve b).run v).2 ∧
      Answers (SameAnswerIn ((ex.approve a).run w).2 ((ex'.approve b).run v).2)
        ((ex.approve a).run w).1 ((ex'.approve b).run v).1 := by
  obtain ⟨rec, rec', hrec, hrec', hcontent, hruns⟩ := known_records hex hpar hown hab
  by_cases hrun : rec.runId = ex.runId
  · obtain ⟨w', henv, hw, happrove⟩ := run_approve hrec hrun
    obtain ⟨v', henv', hv, happrove'⟩ := run_approve hrec' (hruns.mp hrun)
    -- the action comes from what the records say
    have haction : actionFromApproval rec = actionFromApproval rec' :=
      show actionFromApproval rec.content = actionFromApproval rec'.content by rw [hcontent]
    rw [happrove, happrove', ← haction]
    refine Coupled.bind (.orRaise fun _ _ h => h) (fun action action' => ?_) w' v'
      (decided_parallel hpar hab hw hv henv henv')
    rintro w v ⟨hpar, rfl⟩
    exact execute_coupled hex hU action w v hpar
  · unfold GuardedExecutor.approve
    rw [run_bind, run_bind, run_requireApproval_foreign hrec hrun,
      run_requireApproval_foreign hrec' (mt hruns.mpr hrun)]
    exact ⟨hpar, .error _⟩

theorem rejectApproval_parallel (hex : SameExecutor E ex ex') {w : World S σ}
    {v : World T ρ} {a b : ApprovalId} (hpar : Parallel U E w v)
    (hown : ∀ rk, w.view.approvalKey a = some rk → U rk.1) (hab : w.view.SameApproval v.view a b) :
    Parallel U E ((ex.rejectApproval a).run w).2 ((ex'.rejectApproval b).run v).2 ∧
      ((ex.rejectApproval a).run w).1 = ((ex'.rejectApproval b).run v).1 := by
  obtain ⟨rec, rec', hrec, hrec', hcontent, hruns⟩ := known_records hex hpar hown hab
  unfold GuardedExecutor.rejectApproval
  rw [run_bind, run_bind]
  by_cases hrun : rec.runId = ex.runId
  · have hrun' := hruns.mp hrun
    obtain ⟨w', hset, henv, hw⟩ := run_setApprovalState hrec .rejected
    obtain ⟨v', hset', henv', hv⟩ := run_setApprovalState hrec' .rejected
    unfold GuardedExecutor.requireApproval
    simp only [run_bind, run_read, getApprovalById_eq, hrec, hrec', if_pos hrun, if_pos hrun',
      run_pure, hset, hset']
    exact ⟨decided_parallel hpar hab hw hv henv henv', trivial⟩
  · rw [run_requireApproval_foreign hrec hrun,
      run_requireApproval_foreign hrec' (mt hruns.mpr hrun)]
    exact ⟨hpar, rfl⟩

end Calls

end Executors

end PaymentRecovery.Guardrails

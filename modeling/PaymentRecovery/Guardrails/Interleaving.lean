import PaymentRecovery.Guardrails.Isolated

/-!
# Runs in one store are isolated

The operations of many executors are interleaved over one store. Those of one run are also
performed alone, over the same store. A simulation ties the two histories together: what
the run can see is the same on both sides after every operation, its own or another's.
-/

namespace PaymentRecovery.Guardrails

open PaymentRecovery.Python PaymentRecovery.Lib LawfulGuardStore

variable {ι S σ κ : Type}

/-! ## The operations of one run -/

namespace GuardOp

/-- The executor the operation is on. -/
def index : GuardOp ι σ → ι
  | .register i _ _ | .execute i _ | .approve i _ | .rejectApproval i _ | .pendingApprovals i => i

/-- The operation among executors of many runs: a handler works on the part of its run. -/
def owned (runId : ι → String) : GuardOp ι σ → GuardOp ι (String → σ)
  | .register i actionName handler => .register i actionName (Guardrails.owned (runId i) handler)
  | .execute i action => .execute i action
  | .approve i id => .approve i id
  | .rejectApproval i id => .rejectApproval i id
  | .pendingApprovals i => .pendingApprovals i

@[simp] theorem owned_index (runId : ι → String) (op : GuardOp ι σ) :
    (op.owned runId).index = op.index := by
  cases op <;> rfl

@[simp] theorem owned_approvalId? (runId : ι → String) (op : GuardOp ι σ) :
    (op.owned runId).approvalId? = op.approvalId? := by
  cases op <;> rfl

@[simp] theorem rename_index (π : ApprovalId → ApprovalId) (op : GuardOp ι σ) :
    (op.rename π).index = op.index := by
  cases op <;> rfl

@[simp] theorem rename_approvalId? (π : ApprovalId → ApprovalId) (op : GuardOp ι σ) :
    (op.rename π).approvalId? = op.approvalId?.map π := by
  cases op <;> rfl

end GuardOp

/-- The operations of all executors, in the order they are performed in. -/
def interleaved (runId : ι → String) (ops : List (GuardOp ι σ)) : List (GuardOp ι (String → σ)) :=
  ops.map (GuardOp.owned runId)

/-- The operations of the executors of one run alone, on renamed approvals. -/
def alone (run : String) (runId : ι → String) (π : ApprovalId → ApprovalId)
    (ops : List (GuardOp ι σ)) : List (GuardOp ι (String → σ)) :=
  (ops.filter fun op => runId op.index = run).map fun op => (op.rename π).owned runId

section Steps

variable [DecidableEq ι] [GuardStore S]

/-- The steps of one run among those of the others. -/
def stepsOf (run : String) (runId : ι → String) (ops : List (GuardOp ι σ))
    (f : Fleet ι S ((String → σ) × κ)) :
    List (Except PyExc GuardAnswer × Fleet ι S ((String → σ) × κ)) :=
  ((ops.zip (trace (interleaved runId ops) f)).filter fun step => runId step.1.index = run).map
    Prod.snd

variable {run : String} {runId : ι → String} {op : GuardOp ι σ} {ops : List (GuardOp ι σ)}
  {f : Fleet ι S ((String → σ) × κ)}

theorem stepsOf_own (h : runId op.index = run) : stepsOf run runId (op :: ops) f =
    (op.owned runId).run f :: stepsOf run runId ops ((op.owned runId).run f).2 := by
  unfold stepsOf interleaved
  rw [List.map_cons, trace_cons, List.zip_cons_cons, List.filter_cons_of_pos (by simpa using h),
    List.map_cons]

theorem stepsOf_other (h : runId op.index ≠ run) : stepsOf run runId (op :: ops) f =
    stepsOf run runId ops ((op.owned runId).run f).2 := by
  unfold stepsOf interleaved
  rw [List.map_cons, trace_cons, List.zip_cons_cons, List.filter_cons_of_neg (by simpa using h)]

omit [DecidableEq ι] in
theorem alone_own {π : ApprovalId → ApprovalId} (h : runId op.index = run) :
    alone run runId π (op :: ops) = (op.rename π).owned runId :: alone run runId π ops := by
  unfold alone
  rw [List.filter_cons_of_pos (by simpa using h), List.map_cons]

omit [DecidableEq ι] in
theorem alone_other {π : ApprovalId → ApprovalId} (h : runId op.index ≠ run) :
    alone run runId π (op :: ops) = alone run runId π ops := by
  unfold alone
  rw [List.filter_cons_of_neg (by simpa using h)]

end Steps

/-! ## What a run sees -/

/-- The answer a run gets among the others and the one it gets alone. They are the same up to
the names of approvals; an approval of another run, refused as such among the others, may be
unknown where the other run never was. -/
inductive SameAnswerAlone (π : ApprovalId → ApprovalId) :
    Except PyExc GuardAnswer → Except PyExc GuardAnswer → Prop where
  | same {x y : Except PyExc GuardAnswer} (h : SameAnswer π x y) : SameAnswerAlone π x y
  | refused (id : ApprovalId) : SameAnswerAlone π
    (.error ⟨.approvalError, "approval belongs to a different run"⟩)
    (.error (noSuchApproval (π id)))

/-- What the store tells about one run is the same, and so is what its handlers were called
with and did. -/
structure SameRun [GuardStore S] [LawfulGuardStore S] (run : String) (π : ApprovalId → ApprovalId)
    (w v : World S ((String → σ) × κ)) : Prop where
  audit : GuardStore.readAudit w.store run = GuardStore.readAudit v.store run
  spend : GuardStore.accumulatedSpend w.store run = GuardStore.accumulatedSpend v.store run
  count : ∀ subject, GuardStore.subjectExecutedCount w.store run subject =
    GuardStore.subjectExecutedCount v.store run subject
  breaker : GuardStore.isBreakerOpen w.store run = GuardStore.isBreakerOpen v.store run
  result : ∀ key, GuardStore.getResult w.store run key = GuardStore.getResult v.store run key
  approval : ∀ key, (GuardStore.getApproval w.store run key).map (ApprovalRecord.renamed π) =
    (GuardStore.getApproval v.store run key).map (ApprovalRecord.renamed id)
  pending : ((GuardStore.listPending w.store run).map (ApprovalRecord.renamed π)).Perm
    ((GuardStore.listPending v.store run).map (ApprovalRecord.renamed id))
  invocations : SameRuns π (w.snapshot.invocationsOf run) (v.snapshot.invocationsOf run)
  effects : w.env.1 run = v.env.1 run

/-- One step of a run among the others, and alone. -/
structure SameStepAlone [GuardStore S] [LawfulGuardStore S] (run : String)
    (π : ApprovalId → ApprovalId)
    (x y : Except PyExc GuardAnswer × Fleet ι S ((String → σ) × κ)) : Prop where
  answer : SameAnswerAlone π x.1 y.1
  state : SameRun run π x.2.world y.2.world

/-! ## The simulation -/

/-- Executors of many runs, beside those of one run alone. -/
structure Beside [GuardStore S] [LawfulGuardStore S] (run : String) (runId : ι → String)
    (f f' : Fleet ι S ((String → σ) × κ)) : Prop where
  runIds : ∀ i, (f.executors i).runId = runId i
  own : ∀ i, runId i = run → SameExecutor (SameOwn run) (f.executors i) (f'.executors i)
  others : ∀ i, runId i ≠ run → Spares run (f.executors i)
  world : Parallel (· = run) (SameOwn run) f.world f'.world
  foreign : ∀ id rk, f'.world.view.approvalKey id = some rk → rk.1 ≠ run →
    f.world.view.approvalKey id = some rk
  invocations : ∀ π, GuardState.Linked π f.world.view f'.world.view →
    SameRuns π (f.world.snapshot.invocationsOf run) (f'.world.snapshot.invocationsOf run)

section Simulation

variable [DecidableEq ι] [GuardStore S] [LawfulGuardStore S] {run : String} {runId : ι → String}
  {f f' : Fleet ι S ((String → σ) × κ)}

namespace Beside

omit [DecidableEq ι] in
/-- What the run alone has queued, it has queued among the others. -/
theorem back (h : Beside run runId f f') (b : ApprovalId) (rk : String × String)
    (hkey : f'.world.view.approvalKey b = some rk) :
    ∃ a, f.world.view.approvalKey a = some rk := by
  by_cases hrun : rk.1 = run
  · exact h.world.agree.symm.approvalKey_some (view_wf _) (view_wf _) hrun hkey
  · exact ⟨b, h.foreign b rk hkey hrun⟩

omit [DecidableEq ι] in
theorem sameRun [FiniteGuardStore S] (h : Beside run runId f f') {π : Equiv.Perm ApprovalId}
    (hπ : GuardState.Linked π f.world.view f'.world.view) :
    SameRun run π f.world f'.world where
  audit := by rw [readAudit_eq, readAudit_eq, h.world.agree.audit run rfl]
  spend := by rw [accumulatedSpend_eq, accumulatedSpend_eq, h.world.agree.spend run rfl]
  count subject := by
    rw [subjectExecutedCount_eq, subjectExecutedCount_eq, h.world.agree.count run subject rfl]
  breaker := by rw [isBreakerOpen_eq, isBreakerOpen_eq, h.world.agree.breaker run rfl]
  result key := by rw [getResult_eq, getResult_eq, h.world.agree.result run key rfl]
  approval key := by
    rw [getApproval_eq, getApproval_eq]
    exact hπ.approval h.world.agree (view_wf _) (view_wf _) rfl key
  pending := (listsPending f.world.store run).perm (listsPending f'.world.store run) hπ
    h.world.agree (view_wf _) (view_wf _) rfl
  invocations := h.invocations π hπ
  effects := h.world.env

/-- An operation of another run changes nothing that this run sees. -/
theorem other (h : Beside run runId f f') {op : GuardOp ι σ} (hop : runId op.index ≠ run) :
    Beside run runId ((op.owned runId).run f).2 f' := by
  have hcalled : ∀ {call : Call ((String → σ) × κ)}, (op.owned runId).call? f = some call →
      call.executor = f.executors op.index → Beside run runId ((op.owned runId).run f).2 f' := by
    intro call hcall hex
    rw [GuardOp.run_call? hcall]
    have hstep := call_step call f.world
    have hown : call.executor.runId ≠ run := by
      rw [hex, h.runIds]
      exact hop
    have hagree := hstep.agree_apart (U := (· = run)) (view_wf f.world.store) hown
    obtain ⟨new, hnew⟩ := hstep.adds_runs
    refine { h with
      world := ⟨hagree.symm.trans h.world.agree, ?_⟩
      foreign := fun id rk hkey hrun => call_keeps_keys call (h.foreign id rk hkey hrun)
      invocations := fun π hπ => ?_ }
    · exact (call_spares call (hex ▸ h.others _ hop) f.world).trans h.world.env
    · have hsame := h.invocations π
        (hπ.mono (fun _ _ => call_keeps_keys call) fun _ _ hkey => hkey)
      dsimp only
      rw [hnew.apart hown.symm]
      exact hsame
  cases op with
  | execute i action => exact hcalled rfl rfl
  | approve i id => exact hcalled rfl rfl
  | rejectApproval i id => exact hcalled rfl rfl
  | pendingApprovals i => exact h
  | register i actionName handler =>
    exact { h with
      runIds := (Function.forall_update_iff f.executors fun j ex => ex.runId = runId j).mpr
        ⟨h.runIds i, fun j _ => h.runIds j⟩
      own := (Function.forall_update_iff f.executors fun j ex => runId j = run →
        SameExecutor (SameOwn run) ex (f'.executors j)).mpr
          ⟨fun hi => absurd hi hop, fun j _ => h.own j⟩
      others := (Function.forall_update_iff f.executors fun j ex => runId j ≠ run →
        Spares run ex).mpr ⟨fun hi => (h.others i hi).register (Ne.symm hi) actionName handler,
          fun j _ => h.others j⟩ }

omit [DecidableEq ι] in
/-- A call of the run itself, made on both sides. -/
theorem own_call (h : Beside run runId f f') {i : ι} (hi : runId i = run)
    (call call' : Call ((String → σ) × κ)) (hex' : call'.executor = f'.executors i)
    (hpar : Parallel (· = run) (SameOwn run) (call.program.run f.world).2
      (call'.program.run f'.world).2)
    (hruns : ∃ new new',
      AddsRuns (f.executors i).runId f.world.snapshot (call.program.run f.world).2.snapshot new ∧
      AddsRuns (f.executors i).runId f'.world.snapshot (call'.program.run f'.world).2.snapshot
        new' ∧
      ∀ π, GuardState.Linked π f.world.view f'.world.view → SameRuns π new new') :
    Beside run runId { f with world := (call.program.run f.world).2 }
      { f' with world := (call'.program.run f'.world).2 } := by
  have hrun : (f.executors i).runId = run := (h.runIds i).trans hi
  have hrun' : call'.executor.runId = run := by
    rw [hex', ← (h.own i hi).runId]
    exact hrun
  refine { h with
    world := hpar
    foreign := fun id rk hkey hforeign => ?_
    invocations := fun π hπ => ?_ }
  · rcases call_new_keys call' hkey with hold | hnew
    · exact call_keeps_keys call (h.foreign id rk hold hforeign)
    · exact absurd (hnew.trans hrun') hforeign
  · -- the renaming of what is queued now also renames what was queued before
    have hold : GuardState.Linked π f.world.view f'.world.view :=
      hπ.mono (fun _ _ => call_keeps_keys call) fun _ _ => call_keeps_keys call'
    obtain ⟨new, new', hnew, hnew', hsame⟩ := hruns
    rw [hrun] at hnew hnew'
    exact hnew.alike hnew' (hsame π hold) (h.invocations π hold)

/-- A handler of the run itself, registered on both sides. -/
theorem registered (h : Beside run runId f f') {i : ι} (hi : runId i = run) (actionName : String)
    (handler : EffectHandler σ) :
    Beside run runId (((GuardOp.register i actionName handler).owned runId).run f).2
      (((GuardOp.register i actionName handler).owned runId).run f').2 := by
  refine { h with
    runIds := (Function.forall_update_iff f.executors fun j ex => ex.runId = runId j).mpr
      ⟨h.runIds i, fun j _ => h.runIds j⟩
    own := fun j hj => ?_
    others := (Function.forall_update_iff f.executors fun j ex => runId j ≠ run → Spares run ex).mpr
      ⟨fun hother => absurd hi hother, fun j _ => h.others j⟩ }
  show SameExecutor (SameOwn run) (Function.update f.executors i _ j)
    (Function.update f'.executors i _ j)
  by_cases hij : j = i
  · subst hij
    rw [Function.update_self, Function.update_self, hj]
    exact (h.own j hj).register actionName (owned_same run handler)
  · rw [Function.update_of_ne hij, Function.update_of_ne hij]
    exact h.own j hj

/-- An operation of the run on an approval of its own does the same on both sides. -/
theorem step_own [FiniteGuardStore S] (h : Beside run runId f f') (op : GuardOp ι σ)
    (hop : runId op.index = run) (ρ : ApprovalId → ApprovalId)
    (hids : ∀ id, op.approvalId? = some id → f.world.view.SameApproval f'.world.view id (ρ id) ∧
      ∀ rk, f.world.view.approvalKey id = some rk → rk.1 = run) :
    Beside run runId ((op.owned runId).run f).2 (((op.rename ρ).owned runId).run f').2 ∧
      ∀ π : Equiv.Perm ApprovalId, GuardState.Linked π ((op.owned runId).run f).2.world.view
          (((op.rename ρ).owned runId).run f').2.world.view →
        SameAnswer π ((op.owned runId).run f).1 (((op.rename ρ).owned runId).run f').1 := by
  have hU : (f.executors op.index).runId = run := (h.runIds _).trans hop
  cases op with
  | register i actionName handler => exact ⟨h.registered hop actionName handler, fun π _ => .registered⟩
  | execute i action =>
    obtain ⟨hpar, hanswers⟩ := execute_coupled (h.own i hop) hU action f.world f'.world h.world
    refine ⟨?_, fun π hπ => ?_⟩
    · have hcall := h.own_call hop (.execute (f.executors i) action)
        (.execute (f'.executors i) action) rfl
      rw [run_execute_program, run_execute_program] at hcall
      have hbeside := hcall hpar (execute_runs_alike (h.own i hop) hU action h.world)
      simp only [GuardOp.rename, GuardOp.owned, GuardOp.run, Fleet.running_map]
      exact hbeside
    · simp only [GuardOp.rename, GuardOp.owned, GuardOp.run, Fleet.running_map] at hπ ⊢
      exact sameAnswer_result hanswers hπ
  | approve i id =>
    obtain ⟨hab, hown⟩ := hids id rfl
    obtain ⟨hpar, hanswers⟩ := approve_parallel (h.own i hop) hU h.world hown hab
    refine ⟨?_, fun π hπ => ?_⟩
    · have hcall := h.own_call hop (.approve (f.executors i) id)
        (.approve (f'.executors i) (ρ id)) rfl
      rw [run_approve_program, run_approve_program] at hcall
      have hbeside := hcall hpar (approve_runs_alike (h.own i hop) hU h.world hown hab)
      simp only [GuardOp.rename, GuardOp.owned, GuardOp.run, Fleet.running_map]
      exact hbeside
    · simp only [GuardOp.rename, GuardOp.owned, GuardOp.run, Fleet.running_map] at hπ ⊢
      exact sameAnswer_result hanswers hπ
  | rejectApproval i id =>
    obtain ⟨hab, hown⟩ := hids id rfl
    obtain ⟨hpar, hanswers⟩ := rejectApproval_parallel (h.own i hop) h.world hown hab
    refine ⟨?_, fun π hπ => ?_⟩
    · have hcall := h.own_call hop (.rejectApproval (f.executors i) id)
        (.rejectApproval (f'.executors i) (ρ id)) rfl
      rw [run_rejectApproval_program, run_rejectApproval_program] at hcall
      have hbeside := hcall hpar ⟨[], [], .none (rejectApproval_runs_nothing _ id f.world),
        .none (rejectApproval_runs_nothing _ (ρ id) f'.world), fun _ _ => rfl⟩
      simp only [GuardOp.rename, GuardOp.owned, GuardOp.run, Fleet.running_map]
      exact hbeside
    · simp only [GuardOp.rename, GuardOp.owned, GuardOp.run, Fleet.running_map]
      rw [← hanswers]
      cases (((f.executors i).rejectApproval id).run f.world).1 with
      | ok u => exact .rejected
      | error exc => exact .raised exc
  | pendingApprovals i =>
    refine ⟨h, fun π hπ => .pending ?_⟩
    have hpending := (h.sameRun hπ).pending
    rw [← (h.own i hop).runId, show (f.executors i).runId = run from hU]
    exact hpending

end Beside

/-! ## Approvals the run does not own -/

theorem run_foreign {op : GuardOp ι (String → σ)} {id : ApprovalId} {rk : String × String}
    (hid : op.approvalId? = some id) (hkey : f.world.view.approvalKey id = some rk)
    (hrun : rk.1 ≠ (f.executors op.index).runId) :
    op.run f = (.error ⟨.approvalError, "approval belongs to a different run"⟩, f) := by
  obtain ⟨rec, hrec, _⟩ := (view_wf f.world.store).approvalKey_held id rk.1 rk.2 hkey
  have hbyId : f.world.view.approvalById id = some rec := by
    unfold GuardState.approvalById
    rw [hkey]
    exact hrec
  have hother : rec.runId ≠ (f.executors op.index).runId := by
    rw [((view_wf f.world.store).approval_own _ _ _ hrec).1]
    exact hrun
  cases op with
  | approve i id' =>
    injection hid with hid
    subst hid
    have hrefused : ((f.executors i).requireApproval id').run f.world = _ :=
      run_requireApproval_foreign hbyId hother
    simp only [GuardOp.run, Fleet.running_map, GuardedExecutor.approve, Program.run_bind, hrefused]
    rfl
  | rejectApproval i id' =>
    injection hid with hid
    subst hid
    have hrefused : ((f.executors i).requireApproval id').run f.world = _ :=
      run_requireApproval_foreign hbyId hother
    simp only [GuardOp.run, Fleet.running_map, GuardedExecutor.rejectApproval, Program.run_bind,
      hrefused]
    rfl
  | register => cases hid
  | execute => cases hid
  | pendingApprovals => cases hid

/-! ## Any interleaving -/

variable [FiniteGuardStore S]

/-- The operations look to the run as its own alone do. -/
structure AlikeTo (run : String) (runId : ι → String) (ops : List (GuardOp ι σ))
    (f f' : Fleet ι S ((String → σ) × κ)) (π : Equiv.Perm ApprovalId) : Prop where
  linked : GuardState.Linked π f.world.view f'.world.view
  steps : List.Forall₂ (SameStepAlone run π) (stepsOf run runId ops f)
    (trace (alone run runId π ops) f')
  final : SameRun run π (Run.exec GuardOp.run (interleaved runId ops) f).world
    (Run.exec GuardOp.run (alone run runId π ops) f').world

namespace AlikeTo

variable {π : Equiv.Perm ApprovalId} {op : GuardOp ι σ} {ops : List (GuardOp ι σ)}

/-- A known approval has its counterpart, and the renaming of the rest finds it. -/
theorem known (h : Beside run runId f f') (hop : runId op.index = run)
    (ρ : ApprovalId → ApprovalId)
    (hids : ∀ id, op.approvalId? = some id → f.world.view.SameApproval f'.world.view id (ρ id) ∧
      ∀ rk, f.world.view.approvalKey id = some rk → rk.1 = run)
    (hrest : AlikeTo run runId ops ((op.owned runId).run f).2
      (((op.rename ρ).owned runId).run f').2 π) :
    AlikeTo run runId (op :: ops) f f' π := by
  obtain ⟨hbeside, hanswer⟩ := h.step_own op hop ρ hids
  obtain ⟨hπ, htrace, hend⟩ := hrest
  have hlinked : GuardState.Linked π f.world.view f'.world.view :=
    hπ.mono (fun _ _ => op_keeps_keys _ f) fun _ _ => op_keeps_keys _ f'
  have hrename : op.rename ρ = op.rename π :=
    GuardOp.rename_congr fun id hid => (hlinked id (ρ id) (hids id hid).1).symm
  rw [hrename] at hbeside hπ hanswer htrace hend
  refine ⟨hlinked, ?_, ?_⟩
  · rw [stepsOf_own hop, alone_own hop, trace_cons]
    exact .cons ⟨.same (hanswer π hπ), hbeside.sameRun hπ⟩ htrace
  · rw [alone_own hop, Run.exec_cons]
    exact hend

/-- A refused operation changes nothing on either side. -/
theorem refused (h : Beside run runId f f') (hop : runId op.index = run)
    {x y : Except PyExc GuardAnswer} (hx : (op.owned runId).run f = (x, f))
    (hy : ((op.rename π).owned runId).run f' = (y, f')) (hxy : SameAnswerAlone π x y)
    (hrest : AlikeTo run runId ops f f' π) : AlikeTo run runId (op :: ops) f f' π := by
  obtain ⟨hπ, htrace, hend⟩ := hrest
  refine ⟨hπ, ?_, ?_⟩
  · rw [stepsOf_own hop, alone_own hop, trace_cons, hx, hy]
    exact .cons ⟨hxy, h.sameRun hπ⟩ htrace
  · rw [alone_own hop, Run.exec_cons, hy]
    show SameRun run π (Run.exec GuardOp.run (interleaved runId ops)
      ((op.owned runId).run f).2).world _
    rw [hx]
    exact hend

omit [FiniteGuardStore S] in
/-- An operation of another run is none of this one's. -/
theorem other (hop : runId op.index ≠ run)
    (hrest : AlikeTo run runId ops ((op.owned runId).run f).2 f' π) :
    AlikeTo run runId (op :: ops) f f' π := by
  refine ⟨hrest.linked.mono (fun _ _ => op_keeps_keys _ f) fun _ _ hkey => hkey, ?_, ?_⟩
  · rw [stepsOf_other hop, alone_other hop]
    exact hrest.steps
  · rw [alone_other hop]
    exact hrest.final

end AlikeTo

/-- By induction on the operations. The renaming is chosen when all approvals have been queued;
an approval the run names is its own, and known on both sides, or it is refused on both. -/
theorem beside_trace (ops : List (GuardOp ι σ)) (h : Beside run runId f f') :
    ∃ π : Equiv.Perm ApprovalId, AlikeTo run runId ops f f' π := by
  induction ops generalizing f f' with
  | nil =>
    obtain ⟨π, hπ⟩ := GuardState.exists_linked (view_wf f.world.store)
      (view_wf f'.world.store) (FiniteGuardStore.finite_approvals f.world.store)
    exact ⟨π, hπ, .nil, h.sameRun hπ⟩
  | cons op ops ih =>
    by_cases hop : runId op.index = run
    · cases hid : op.approvalId? with
      | none =>
        have hids : ∀ id', op.approvalId? = some id' →
            f.world.view.SameApproval f'.world.view id' (id id') ∧
              ∀ rk, f.world.view.approvalKey id' = some rk → rk.1 = run := by
          intro id' hid'
          rw [hid] at hid'
          cases hid'
        obtain ⟨π, hrest⟩ := ih (h.step_own op hop id hids).1
        exact ⟨π, .known h hop id hids hrest⟩
      | some a =>
        have hid' : ∀ π : ApprovalId → ApprovalId,
            ((op.rename π).owned runId).approvalId? = some (π a) := fun π => by simp [hid]
        cases hkey : f.world.view.approvalKey a with
        | none =>
          obtain ⟨π, hrest⟩ := ih h
          exact ⟨π, .refused h hop (run_unknown (by simpa using hid) hkey)
            (run_unknown (hid' π) (hrest.linked.unknown h.back hkey)) (.same (.unknown a)) hrest⟩
        | some rk =>
          by_cases hrun : rk.1 = run
          · obtain ⟨b, hb⟩ := h.world.agree.approvalKey_some (view_wf _) (view_wf _) hrun hkey
            have hids : ∀ id, op.approvalId? = some id →
                f.world.view.SameApproval f'.world.view id b ∧
                  ∀ rk, f.world.view.approvalKey id = some rk → rk.1 = run := by
              intro id hid'
              rw [hid] at hid'
              injection hid' with hid'
              subst hid'
              refine ⟨⟨rk, hkey, hb⟩, fun rk' hkey' => ?_⟩
              rw [hkey] at hkey'
              injection hkey' with hkey'
              exact hkey' ▸ hrun
            obtain ⟨π, hrest⟩ := ih (h.step_own op hop (fun _ => b) hids).1
            exact ⟨π, .known h hop _ hids hrest⟩
          · have hforeign : rk.1 ≠ (f.executors op.index).runId := by
              rw [h.runIds, hop]
              exact hrun
            have hrefused : (op.owned runId).run f = _ :=
              run_foreign (by simpa using hid) hkey (by simpa using hforeign)
            obtain ⟨π, hrest⟩ := ih h
            cases hkey' : f'.world.view.approvalKey (π a) with
            | none =>
              exact ⟨π, .refused h hop hrefused (run_unknown (hid' π) hkey') (.refused a) hrest⟩
            | some rk' =>
              -- known from before, on both sides
              have hsame := hrest.linked.back h.back hkey'
              rw [hkey] at hsame
              injection hsame with hsame
              refine ⟨π, .refused h hop hrefused (run_foreign (hid' π) hkey' ?_)
                (.same (.raised _)) hrest⟩
              rw [GuardOp.owned_index, GuardOp.rename_index, ← (h.own _ hop).runId, ← hsame]
              exact hforeign
    · obtain ⟨π, hrest⟩ := ih (h.other hop)
      exact ⟨π, .other hop hrest⟩

end Simulation

/-! ## Runs are isolated -/

/-- New executors over a store that may have been used before. -/
def Fleet.over [GuardStore S] (runId : ι → String) (policy : ι → GuardPolicy)
    (clock : κ → Time × κ) (effects : σ) (time : κ) (store : S) : Fleet ι S (σ × κ) :=
  ⟨fun i => .new (runId i) (policy i) (ticking clock), ⟨store, (effects, time), []⟩⟩

theorem over_beside [GuardStore S] [LawfulGuardStore S] (run : String) (runId : ι → String)
    (policy : ι → GuardPolicy) (clock : κ → Time × κ) (effects : String → σ) (time : κ)
    (store : S) : Beside run runId (Fleet.over runId policy clock effects time store)
      (Fleet.over runId policy clock effects time store) where
  runIds i := rfl
  own i _ := ⟨rfl, rfl, fun _ _ henv => henv, fun _ => .inl ⟨rfl, rfl⟩⟩
  others i _ := ⟨fun _ => rfl, fun name handler hknown => (by cases hknown)⟩
  world := ⟨.refl _, rfl⟩
  foreign id rk hkey _ := hkey
  invocations π _ := rfl

/-- What one run sees of the operations of all is what it sees of its own alone, up to the
names of approvals. -/
def RunIsolated [DecidableEq ι] [GuardStore S] [LawfulGuardStore S] (run : String)
    (runId : ι → String) (ops : List (GuardOp ι σ)) (f : Fleet ι S ((String → σ) × κ)) : Prop :=
  ∃ π : Equiv.Perm ApprovalId,
    List.Forall₂ (SameStepAlone run π) (stepsOf run runId ops f) (trace (alone run runId π ops) f) ∧
    SameRun run π (Run.exec GuardOp.run (interleaved runId ops) f).world
      (Run.exec GuardOp.run (alone run runId π ops) f).world

/-- **Runs in one store are isolated.** Executors of any runs are interleaved over a store that
may have been used before, in memory or in SQL, and call each other's approvals as they like.
Every operation of one run answers as if the run were alone, and leaves what the run sees of the
store and of its handlers as if it were alone; so do all operations together. -/
theorem runs_isolated [DecidableEq ι] (run : String) (runId : ι → String)
    (policy : ι → GuardPolicy) (clock : κ → Time × κ) (effects : String → σ) (time : κ)
    (ops : List (GuardOp ι σ)) :
    (∀ store : InMemoryGuardStore,
      RunIsolated run runId ops (Fleet.over runId policy clock effects time store)) ∧
    (∀ store : SqlGuardStore,
      RunIsolated run runId ops (Fleet.over runId policy clock effects time store)) := by
  refine ⟨fun store => ?_, fun store => ?_⟩
  · obtain ⟨π, hπ⟩ := beside_trace ops (over_beside run runId policy clock effects time store)
    exact ⟨π, hπ.steps, hπ.final⟩
  · obtain ⟨π, hπ⟩ := beside_trace ops (over_beside run runId policy clock effects time store)
    exact ⟨π, hπ.steps, hπ.final⟩

end PaymentRecovery.Guardrails

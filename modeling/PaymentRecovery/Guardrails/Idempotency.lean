import PaymentRecovery.Guardrails.Approval

/-!
# Idempotent replay

The first handler run under a key that returns is the last one. Its result is
stored once and for all, every later call on the key answers it, and it is
charged once. The handlers' results are assumed to survive their JSON text.
-/

namespace PaymentRecovery.Guardrails

open PaymentRecovery.Python PaymentRecovery.Lib

variable {S σ : Type} [GuardStore S]

/-- Every registered handler raises or returns a value that JSON preserves. -/
def PreservesJson (ex : GuardedExecutor σ) : Prop :=
  ∀ name handler, ex.handlers.get? name = some handler →
    ∀ action env value, (handler action env).1 = .ok value → JsonPreserved value

/-- The handler returned. -/
def Invocation.Returned (inv : Invocation) : Prop := inv.outcome.toOption.isSome

instance (inv : Invocation) : Decidable inv.Returned :=
  inferInstanceAs (Decidable (_ = true))

/-- The handler runs that returned, in any run and under any key. -/
def Snapshot.returned (s : Snapshot) : List Invocation :=
  s.invocations.filter fun inv => inv.Returned

/-- The call presents an action of this run and key: directly, or by approving its
approval. -/
inductive Presents (run key : String) (s : Snapshot) : Call σ → Prop
  | execute (ex : GuardedExecutor σ) (action : Action) (hrun : ex.runId = run)
    (hkey : action.idempotencyKey = key) : Presents run key s (.execute ex action)
  | approve (ex : GuardedExecutor σ) (id : ApprovalId) (rec : ApprovalRecord)
    (hrec : s.state.approvalById id = some rec) (hrun : ex.runId = run)
    (hown : rec.runId = run ∧ rec.idempotencyKey = key) : Presents run key s (.approve ex id)

/-- The call answers the stored value, unless the run is halted, and the journal gains its
entry into `execute` and no handler run. -/
def Replays (run : String) (value : PyVal) (w : World S σ) (call : Call σ) : Prop :=
  ∃ answer, (call.run w).1 = .ok (some answer) ∧
    ((GuardStore.isBreakerOpen w.store run = true ∧ answer.status = .rejectedBreakerOpen) ∨
      (GuardStore.isBreakerOpen w.store run = false ∧ answer.status = .duplicate ∧
        answer.result = value)) ∧
    ∃ action, (call.run w).2.journal = w.journal ++ [.called run action]

/-! ## Stored results stay -/

theorem ExecuteStep.result_kept {ex : GuardedExecutor σ} {action : Action} {s s' : Snapshot}
    {answer : Except PyExc ExecutionResult} (h : ExecuteStep ex action s answer s')
    {r k : String} {rec : IdempotencyRecord} (hrec : s.state.result r k = some rec) :
    s'.state.result r k = some rec := by
  cases h with
  | executed result resultJson hadm hyields hdump =>
    show (if r = ex.runId ∧ k = action.idempotencyKey then some _ else _) = some rec
    rw [if_neg]
    · exact hrec
    · rintro ⟨rfl, rfl⟩
      rw [hadm.fresh] at hrec
      cases hrec
  | _ => exact hrec

theorem CallStep.result_kept {call : Call σ} {s s' : Snapshot}
    {answer : Except PyExc (Option ExecutionResult)} (h : CallStep s call answer s')
    {r k : String} {rec : IdempotencyRecord} (hrec : s.state.result r k = some rec) :
    s'.state.result r k = some rec :=
  h.keeps (P := fun s => s.state.result r k = some rec) (fun _ _ _ hs => hs)
    (fun _ _ _ _ hs hexec => hexec.result_kept hs) hrec

/-- With a result under the key, `execute` halts or answers it. -/
theorem ExecuteStep.replays {ex : GuardedExecutor σ} {action : Action} {s s' : Snapshot}
    {answer : Except PyExc ExecutionResult} (h : ExecuteStep ex action s answer s')
    {rec : IdempotencyRecord} {value : PyVal}
    (hrec : s.state.result ex.runId action.idempotencyKey = some rec)
    (hload : jsonLoads rec.resultJson = .ok value) :
    ∃ res, answer = .ok res ∧
      ((s.state.breaker ex.runId = true ∧ res.status = .rejectedBreakerOpen) ∨
        (s.state.breaker ex.runId = false ∧ res.status = .duplicate ∧ res.result = value)) ∧
      s'.journal = s.journal ++ [.called ex.runId action] := by
  have hnot : ¬ Cleared ex action s.state := fun hclear => by
    rw [hclear.fresh] at hrec
    cases hrec
  cases h with
  | breakerOpen hopen => exact ⟨_, rfl, .inl ⟨hopen, rfl⟩, rfl⟩
  | duplicate rec' result hclosed hrec' hload' =>
    rw [hrec] at hrec'
    rw [← Option.some.inj hrec', hload] at hload'
    injection hload' with hvalue
    exact ⟨_, rfl, .inr ⟨hclosed, rfl, hvalue.symm⟩, rfl⟩
  | corrupt rec' exc hclosed hrec' hload' =>
    rw [hrec] at hrec'
    rw [← Option.some.inj hrec', hload] at hload'
    cases hload'
  | unknownAction hclosed hfresh => exact absurd (hrec.symm.trans hfresh) (by simp)
  | unserialisable exc hclosed hfresh => exact absurd (hrec.symm.trans hfresh) (by simp)
  | enqueued id paramsJson t hclosed hfresh => exact absurd (hrec.symm.trans hfresh) (by simp)
  | undecided rec' detail hclosed hfresh => exact absurd (hrec.symm.trans hfresh) (by simp)
  | overBudget detail hclear => exact absurd hclear hnot
  | overCap hclear => exact absurd hclear hnot
  | raised exc hadm => exact absurd hadm.toCleared hnot
  | unstorable result exc hadm => exact absurd hadm.toCleared hnot
  | executed result resultJson hadm => exact absurd hadm.toCleared hnot

/-! ## Values that survive their text -/

/-- Every value a handler returned can be stored and read back. -/
def AnswersSurvive (s : Snapshot) : Prop :=
  ∀ inv ∈ s.invocations, ∀ value, inv.outcome = .ok value → JsonPreserved value

theorem AnswersSurvive.execute {ex : GuardedExecutor σ} {action : Action} {s s' : Snapshot}
    {answer : Except PyExc ExecutionResult} (h : AnswersSurvive s) (hjson : PreservesJson ex)
    (hstep : ExecuteStep ex action s answer s') : AnswersSurvive s' := by
  intro inv hinv value hvalue
  rcases hstep.quiet_or_ran with ⟨_, hsame⟩ | ⟨outcome, _, ⟨handler, env, hhandler, hout⟩, happ⟩
  · exact h inv (hsame ▸ hinv) value hvalue
  · rw [happ] at hinv
    rcases List.mem_append.mp hinv with hold | hnew
    · exact h inv hold value hvalue
    · rw [List.mem_singleton.mp hnew] at hvalue
      exact hjson _ handler hhandler action env value (hout.trans hvalue)

theorem AnswersSurvive.step {call : Call σ} {s s' : Snapshot}
    {answer : Except PyExc (Option ExecutionResult)} (h : AnswersSurvive s)
    (hjson : PreservesJson call.executor) (hstep : CallStep s call answer s') :
    AnswersSurvive s' :=
  hstep.keeps (P := AnswersSurvive) (fun _ _ _ hs => hs)
    (fun _ _ _ _ hs hexec => hs.execute hjson hexec) h

/-- A value that survives its text is stored as a text it can be read back from. -/
theorem resultJson_of_survives {inv : Invocation} {value : PyVal} (hvalue : inv.outcome = .ok value)
    (hjson : JsonPreserved value) :
    ∃ j, inv.resultJson = some j ∧ jsonLoads j = .ok value := by
  obtain ⟨j, hdump, hload⟩ := hjson
  refine ⟨j, ?_, hload⟩
  unfold Invocation.resultJson
  rw [hvalue]
  simp [hdump, Except.toOption]

/-- Then the handler runs that returned are those whose result was stored. -/
theorem AnswersSurvive.returned_eq {s : Snapshot} (h : AnswersSurvive s) :
    s.returned = s.effects := by
  unfold Snapshot.returned Snapshot.effects
  apply List.filter_congr
  intro inv hinv
  cases hout : inv.outcome with
  | error exc => simp [Invocation.Returned, Invocation.resultJson, hout, Except.toOption]
  | ok value =>
    obtain ⟨j, hj, _⟩ := resultJson_of_survives hout (h inv hinv value hout)
    simp [Invocation.Returned, hout, hj, Except.toOption]

section Replay

variable [LawfulGuardStore S]

theorem answersSurvive_runCalls {calls : List (Call σ)} (env : σ)
    (hjson : ∀ call ∈ calls, PreservesJson call.executor) :
    AnswersSurvive (runCalls calls (World.fresh env : World S σ)).snapshot :=
  Run.exec_inv_along (P := fun w : World S σ => AnswersSurvive w.snapshot)
    (fun w call h hcall => h.step hcall (call_step call w))
    (by
      rw [snapshot_fresh]
      intro inv hinv
      exact absurd hinv List.not_mem_nil)
    (Run.along_of_forall hjson _)

theorem getResult_runCalls {w : World S σ} {run key : String} {rec : IdempotencyRecord}
    (hrec : GuardStore.getResult w.store run key = some rec) (later : List (Call σ)) :
    GuardStore.getResult (runCalls later w).store run key = some rec := by
  rw [LawfulGuardStore.getResult_eq] at hrec ⊢
  exact runCalls_inv (P := fun s => s.state.result run key = some rec)
    (fun _ h hstep => hstep.result_kept h) later hrec

/-- One call on a key with a stored result. -/
theorem replays_of_stored {w : World S σ} {run key : String} {rec : IdempotencyRecord}
    {value : PyVal} (hread : Readable w.snapshot)
    (hrec : GuardStore.getResult w.store run key = some rec)
    (hload : jsonLoads rec.resultJson = .ok value) {call : Call σ}
    (hcall : Presents run key w.snapshot call) : Replays run value w call := by
  rw [LawfulGuardStore.getResult_eq] at hrec
  have hstep := call_step call w
  unfold Replays
  rw [LawfulGuardStore.isBreakerOpen_eq]
  unfold Call.run
  show ∃ answer, _ ∧ _ ∧ ∃ action, (call.program.run w).2.snapshot.journal = _
  generalize (call.program.run w).1 = answer at hstep ⊢
  generalize (call.program.run w).2.snapshot = s' at hstep ⊢
  cases hcall with
  | execute ex action hrun hkey =>
    subst hrun hkey
    cases hstep with
    | execute _ _ answer s' hexec =>
      obtain ⟨res, rfl, hres, hjournal⟩ := hexec.replays hrec hload
      exact ⟨res, rfl, hres, action, hjournal⟩
  | approve ex id rec' hrec' hrun hown =>
    obtain ⟨hr, hk⟩ := hown
    have hby := GuardState.Wf.approvalById_own (LawfulGuardStore.view_wf w.store) hrec'
    obtain ⟨params, hparams⟩ := hread _ _ _ hby.2
    cases hstep with
    -- the record is of this run, and its params were dumped by `create_pending`
    | approveRefused _ _ exc hrefused => exact absurd (hr.trans hrun.symm) (hrefused rec' hrec')
    | unreadable _ _ rec'' exc hrec'' hrun'' hload'' =>
      rw [← Option.some.inj (hrec'.symm.trans hrec''), hparams] at hload''
      cases hload''
    | approve _ _ rec'' params'' answer s' hrec'' hrun'' hload'' hexec =>
      have hsame := Option.some.inj (hrec'.symm.trans hrec'')
      subst hsame hrun hk
      obtain ⟨res, rfl, hres, hjournal⟩ := hexec.replays hrec hload
      exact ⟨res, rfl, hres, _, hjournal⟩

/-- **Idempotent replay.** After any run of calls whose handlers raise or return values
that JSON preserves: at most one handler run under a key has returned; a stored result
stays as it is; from then on every call on the key answers the first value, or that the
run is halted, without running a handler; and the counters charge each key's returned run
exactly once. -/
theorem idempotent_replay (calls : List (Call σ)) (env : σ)
    (hjson : ∀ call ∈ calls, PreservesJson call.executor) :
    let w : World S σ := runCalls calls (.fresh env)
    (w.snapshot.returned.map Invocation.runKey).Nodup ∧
    (∀ run key rec, GuardStore.getResult w.store run key = some rec →
      (∃ inv ∈ w.snapshot.returned, inv.runKey = (run, key)) ∧
      ∀ later, GuardStore.getResult (runCalls later w).store run key = some rec) ∧
    (∀ inv ∈ w.snapshot.returned, ∃ value, inv.outcome = .ok value ∧
      (∃ rec, GuardStore.getResult w.store inv.runId inv.action.idempotencyKey = some rec ∧
        jsonLoads rec.resultJson = .ok value) ∧
      ∀ later call, Presents inv.runId inv.action.idempotencyKey (runCalls later w).snapshot call →
        Replays inv.runId value (runCalls later w) call) ∧
    (∀ run subject, GuardStore.subjectExecutedCount w.store run subject =
      (w.snapshot.returned.filter fun inv =>
        inv.runId = run ∧ inv.action.subjectId = subject).length) ∧
    (∀ run, GuardStore.accumulatedSpend w.store run =
      ((w.snapshot.returned.filter fun inv => inv.runId = run).map (·.action.cost)).sum) := by
  intro w
  have hbooks : Accounts w.snapshot := Accounts.runCalls calls env
  have hsurvive : AnswersSurvive w.snapshot := answersSurvive_runCalls env hjson
  have hreturned := hsurvive.returned_eq
  refine ⟨?_, ?_, ?_, ?_, ?_⟩
  · rw [hreturned]
    exact hbooks.keys
  · -- every stored result is that of a returned run, and stays
    intro run key rec hrec
    refine ⟨?_, fun later => getResult_runCalls hrec later⟩
    rw [LawfulGuardStore.getResult_eq] at hrec
    obtain ⟨inv, hinv, _, _, hkey, _⟩ := (hbooks.result_iff run key rec).mp hrec
    exact ⟨inv, hreturned ▸ hinv, hkey⟩
  · -- every returned run has its result stored, which later calls answer
    intro inv hinv
    rw [hreturned] at hinv
    obtain ⟨hrun, hsome⟩ := List.mem_filter.mp hinv
    obtain ⟨value, hvalue⟩ : ∃ value, inv.outcome = .ok value := by
      cases hout : inv.outcome with
      | error exc => simp [Invocation.resultJson, hout] at hsome
      | ok value => exact ⟨value, rfl⟩
    obtain ⟨j, hj, hload⟩ := resultJson_of_survives hvalue (hsurvive inv hrun value hvalue)
    have hrec : GuardStore.getResult w.store inv.runId inv.action.idempotencyKey =
        some ⟨inv.runId, inv.action.idempotencyKey, ExecutionStatus.executed.value, j⟩ := by
      rw [LawfulGuardStore.getResult_eq]
      exact (hbooks.result_iff _ _ _).mpr ⟨inv, hinv, j, hj, rfl, rfl⟩
    refine ⟨value, hvalue, ⟨_, hrec, hload⟩, fun later call hcall => ?_⟩
    have hread : Readable (runCalls later w).snapshot := by
      have := Readable.runCalls (S := S) (calls ++ later) env
      rwa [runCalls_append] at this
    exact replays_of_stored hread (getResult_runCalls hrec later) hload hcall
  · intro run subject
    rw [LawfulGuardStore.subjectExecutedCount_eq, hreturned]
    exact hbooks.count_eq run subject
  · intro run
    rw [LawfulGuardStore.accumulatedSpend_eq, hreturned]
    exact hbooks.spend_eq run

end Replay

/-- The sample handler answers nothing, which JSON preserves. -/
theorem Sample.preservesJson : PreservesJson Sample.executor := by
  intro name handler hhandler action env value hvalue
  have hget : Sample.executor.handlers.get? name = if name = "pay" then some Sample.handler
      else none := Dict.get?_set .empty "pay" name Sample.handler
  rw [hget] at hhandler
  split at hhandler
  · rw [← Option.some.inj hhandler] at hvalue
    unfold Sample.handler at hvalue
    split at hvalue
    · cases hvalue
    · injection hvalue with hvalue
      exact ⟨.doc .null, by rw [← hvalue]; rfl, by rw [← hvalue]; rfl⟩
  · cases hhandler

/-- The sample payment of 100 presented twice: one run, charged once. -/
theorem idempotent_replay_sample :
    let w := Sample.after [.execute Sample.executor (Sample.pay 100),
      .execute Sample.executor (Sample.pay 100)]
    (w.snapshot.returned.map Invocation.runKey).Nodup ∧
    GuardStore.accumulatedSpend w.store "run" =
      ((w.snapshot.returned.filter fun inv => inv.runId = "run").map (·.action.cost)).sum := by
  have h := idempotent_replay (S := SqlGuardStore) [.execute Sample.executor (Sample.pay 100),
    .execute Sample.executor (Sample.pay 100)] () (by
      intro call hcall
      simp only [List.mem_cons, List.not_mem_nil, or_false, or_self] at hcall
      rw [hcall]
      exact Sample.preservesJson)
  exact ⟨h.1, h.2.2.2.2 "run"⟩

end PaymentRecovery.Guardrails

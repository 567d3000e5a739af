import PaymentRecovery.Agent.Loop
import PaymentRecovery.Guardrails.Parity

/-!
# One loop in two worlds

A loop over two guard stores and two environments. Where the stores agree on its
run and the environments answer it alike, both runs make the same calls to the
executor and come to the same trajectory, or to the same exception.
-/

namespace PaymentRecovery.Agent

open PaymentRecovery.Python PaymentRecovery.Lib PaymentRecovery.Guardrails Program

variable {S T σ α : Type} {U : String → Prop} {E : σ → σ → Prop}

/-! ## What is done to the environment alone -/

section Env

variable [GuardStore S] [LawfulGuardStore S] [GuardStore T] [LawfulGuardStore T]

theorem onEnv_coupled {f : σ → α × σ} (hf : Respects E f) :
    InStep (Parallel (S := S) (T := T) U E) (onEnv f) (onEnv f) :=
  .step fun _ _ h => ⟨⟨h.agree, (hf _ _ h.env).2⟩, (hf _ _ h.env).1⟩

theorem attemptEnv_coupled {f : σ → Except PyExc α × σ} (hf : Respects E f) :
    InStep (Parallel (S := S) (T := T) U E) (attemptEnv f) (attemptEnv f) :=
  .attempt fun _ _ h => ⟨⟨h.agree, (hf _ _ h.env).2⟩, .of_eq (hf _ _ h.env).1⟩

end Env

/-! ## The loop -/

/-- In related environments the LLM, the clocks and the tools do the same, and the executor too. -/
structure SameLoop (E : σ → σ → Prop) (loop : AgentLoop σ) : Prop where
  llm : ∀ messages, Respects E (loop.llm messages)
  clock : Respects E loop.clock
  now : Respects E loop.now
  build : ∀ {name spec build}, loop.registry.get? name = some spec → spec.body = .effect build →
    ∀ args, Respects E (build args)
  handler : ∀ {name spec handler}, loop.registry.get? name = some spec →
    spec.body = .read handler → ∀ args, Respects E (handler args)
  executor : SameExecutor E loop.executor loop.executor

section Loop

variable [GuardStore S] [LawfulGuardStore S] [GuardStore T] [LawfulGuardStore T]
  {loop : AgentLoop σ}

/-- The answer is recorded without the id of its approval. -/
theorem effectTurn_coupled (hex : SameExecutor E loop.executor loop.executor)
    (hU : U loop.executor.runId) {build : Args → σ → Except PyExc Action × σ} {args : Args}
    (hbuild : Respects E (build args)) (progress : Progress) (index : Nat)
    (thought tool : String) (response : LLMResponse) :
    InStep (Parallel (S := S) (T := T) U E)
      (loop.effectTurn build args progress index thought tool response)
      (loop.effectTurn build args progress index thought tool response) := by
  refine InStep.bind (onEnv_coupled hbuild) fun built => ?_
  cases built with
  | error exc => exact InStep.pure _
  | ok action =>
    refine Coupled.bind (execute_coupled hex hU action) fun result result' => ?_
    refine Coupled.pure fun w v ⟨hpar, hsame⟩ => ⟨hpar, ?_⟩
    rw [hsame.status, hsame.result, hsame.detail]

theorem turn_coupled (h : SameLoop E loop) (hU : U loop.executor.runId)
    (decision : Option Decision) (progress : Progress) (index : Nat) (response : LLMResponse) :
    InStep (Parallel (S := S) (T := T) U E) (loop.turn decision progress index response)
      (loop.turn decision progress index response) := by
  unfold AgentLoop.turn
  split
  · exact InStep.pure _
  · exact InStep.pure _
  · split
    · exact InStep.pure _
    · rename_i spec hspec
      split
      · exact InStep.pure _
      · split
        · rename_i build hbody
          exact effectTurn_coupled h.executor hU (h.build hspec hbody _) _ _ _ _ _
        · rename_i handler hbody
          exact InStep.bind (attemptEnv_coupled (h.handler hspec hbody _)) fun _ => InStep.pure _

/-- By induction on the iterations that are left. -/
theorem iterate_coupled (h : SameLoop E loop) (hU : U loop.executor.runId)
    (case : List (String × PyVal)) (start : ℚ) (remaining index : Nat) (progress : Progress) :
    InStep (Parallel (S := S) (T := T) U E) (loop.iterate case start remaining index progress)
      (loop.iterate case start remaining index progress) := by
  induction remaining generalizing index progress with
  | zero => exact InStep.pure _
  | succ remaining ih =>
    refine InStep.bind (onEnv_coupled h.clock) fun t => ?_
    split
    · exact InStep.pure _
    · refine InStep.bind (.orRaise _) fun messages => ?_
      refine InStep.bind (attemptEnv_coupled (h.llm messages)) fun response => ?_
      refine InStep.bind (.orRaise _) fun decision => ?_
      refine InStep.bind (turn_coupled h hU decision progress index response) fun turn => ?_
      cases turn with
      | stop outcome progress => exact InStep.pure _
      | next progress => exact ih (index + 1) progress

/-- Both runs come to the same trajectory. -/
theorem run_coupled (h : SameLoop E loop) (hU : U loop.executor.runId) (subjectId : String)
    (case : List (String × PyVal)) :
    InStep (Parallel (S := S) (T := T) U E) (loop.run subjectId case) (loop.run subjectId case) := by
  refine InStep.bind (onEnv_coupled h.now) fun startedAt =>
    InStep.bind (onEnv_coupled h.clock) fun start => ?_
  refine InStep.bind (iterate_coupled h hU case start _ _ _) fun answer => ?_
  exact InStep.bind (onEnv_coupled h.now) fun endedAt => InStep.pure _

end Loop

end PaymentRecovery.Agent

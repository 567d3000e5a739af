import PaymentRecovery.Agent.Presented
import PaymentRecovery.Agent.Scripted
import PaymentRecovery.Llm.Stub
import PaymentRecovery.Recovery.Built
import PaymentRecovery.Recovery.Effects

/-!
# The stub-driven agent

The loop and the stub talk through the JSON history alone. Whatever the loop makes of a
call, the history names the tool, so no tool is called twice: the reads come first, one
effect follows, and then the stub is done.
-/

namespace PaymentRecovery.Recovery

open PaymentRecovery.Python PaymentRecovery.Guardrails PaymentRecovery.Providers
open PaymentRecovery.Agent PaymentRecovery.Lib PaymentRecovery.Llm Program

variable {S τ : Type}

/-! ## What the stub decides -/

/-- How often the LLM was called. -/
def llmCalls (env : Env τ) : Nat := env.calls.count .llm

theorem llmCalls_ask {α : Type} {call : OuterCall} (h : call ≠ .llm) (f : τ → α × τ)
    (env : Env τ) : llmCalls (env.ask call f).2 = llmCalls env := by
  show (env.calls ++ [call]).count .llm = _
  rw [List.count_append, List.count_singleton, if_neg (by simpa using h)]
  rfl

theorem llmCalls_llm {α : Type} (f : τ → α × τ) (env : Env τ) :
    llmCalls (env.ask .llm f).2 = llmCalls env + 1 := by
  show (env.calls ++ [OuterCall.llm]).count .llm = _
  rw [List.count_append, List.count_singleton_self]
  rfl

section Fetch

variable {α : Type} (provider : PaymentProvider τ) (argName : String)
  {get : String → τ → Except PyExc α × τ} (bounded : α → PyVal)

/-- One more call of the tool is remembered. -/
def Follows (progress : Progress) (tool : String) (progress' : Progress) : Prop :=
  ∃ args observation, progress'.history = progress.history ++
    [.record [("tool", .str tool), ("args", args), ("observation", observation)]] ∧
      IsJson args ∧ IsJson observation

variable {provider argName bounded} [GuardStore S] (loop : AgentLoop (Env τ))

end Fetch

/-! ## The one effect -/

/-- What the stub has the executor do about a case. -/
def stubAction (case : RecoveryCase) : Action :=
  if case.failureReason ∈ sendLinkReasons then linkAction case case.amountInr
  else escalateAction case

section Execute

variable (p : RecoveryPipeline τ) (case : RecoveryCase) (provider : PaymentProvider τ)

variable {case provider} in
theorem llmCalls_effect {α : Type} {key : String} {f : τ → EffectReply α × τ} {env env' : Env τ}
    {reply : Except PyExc α}
    (h : env.effect provider.name case.paymentId key f = (reply, env')) :
    llmCalls env' = llmCalls env := by
  have hasked : llmCalls (env.effect provider.name case.paymentId key f).2 = llmCalls env :=
    llmCalls_ask (show OuterCall.provider provider.name ≠ .llm by simp) f env
  rwa [h] at hasked

/-- No handler calls the LLM. -/
theorem handler_llmCalls {action : Action} {handler : EffectHandler (Env τ)}
    (h : (p.caseExecutor case provider).handlers.get? action.name = some handler) (env : Env τ) :
    llmCalls (handler action env).2 = llmCalls env := by
  rw [RecoveryPipeline.caseExecutor_handler] at h
  split_ifs at h
  · obtain rfl := Option.some.inj h
    rfl
  · obtain rfl := Option.some.inj h
    unfold doRefund
    split
    · split
      · rename_i hasked
        exact llmCalls_effect hasked
      · rename_i hasked
        exact llmCalls_effect hasked
    · rfl
    · rfl
    · rfl
  · obtain rfl := Option.some.inj h
    unfold doLink
    split
    · rfl
    · split
      · rename_i hasked
        exact llmCalls_effect hasked
      · rename_i hasked
        exact llmCalls_effect hasked

variable [GuardStore S] [LawfulGuardStore S]

end Execute

/-! ## One iteration -/

section Iteration

variable [GuardStore S] (stub : StubLLMClient) (p : RecoveryPipeline τ) (case : RecoveryCase)
  (provider : PaymentProvider τ)

/-- The clock shows more than the time allowed since `start`. -/
def Overran {σ : Type} (loop : AgentLoop σ) (start : ℚ) : Prop :=
  ∃ env, loop.timeoutSeconds < (loop.clock env).1 - start

/-- The progress after the executor's answer to a call of this tool. -/
structure Answered (progress : Progress) (tool : String) (action : Action)
    (result : ExecutionResult) (progress' : Progress) : Prop where
  follows : Follows progress tool progress'
  status : progress'.resolutionStatus = some result.status
  action : progress'.resolutionAction = some action.name

variable [LawfulGuardStore S]

end Iteration

/-! ## The store between runs -/

section Store

variable [GuardStore S] [LawfulGuardStore S]

end Store

/-! ## The run -/

/-- The outcome that goes with the executor's status for an action. -/
def agentOutcome (status : ExecutionStatus) (action : String) : AgentOutcome :=
  match status with
  | .pendingApproval => .pendingApproval
  | .rejectedActionBudget | .rejectedSpendCap | .rejectedBreakerOpen => .rejected
  | .executed | .duplicate => if action = "escalate_to_human" then .escalated else .resolved

theorem Answered.outcome {progress progress' : Progress} {tool : String} {case : RecoveryCase}
    {result : ExecutionResult}
    (h : Answered progress tool (stubAction case) result progress') (resolution : Option String) :
    AgentLoop.finalOutcome resolution progress' =
      agentOutcome result.status (stubAction case).name := by
  have hname : (stubAction case).name ≠ "" := by
    unfold stubAction
    split
    · exact (by decide : "send_payment_link" ≠ "")
    · exact (by decide : "escalate_to_human" ≠ "")
  unfold AgentLoop.finalOutcome agentOutcome
  rw [h.status, h.action]
  cases result.status with
  | executed | duplicate => simp [hname]
  | _ => rfl

section Run

variable [GuardStore S] (p : RecoveryPipeline τ) (case : RecoveryCase)
  (provider : PaymentProvider τ)

/-- From the world `w` on the stub's action was presented once, the stub finished after it, and
the executor's answer decided the outcome. -/
structure ActsOnce (w : World S (Env τ)) (outcome : AgentOutcome)
    (resolutionAction : Option String) (steps : List TrajectoryStep) (w' : World S (Env τ)) :
    Prop where
  finished : ∃ last, steps.getLast? = some last ∧ last.decision = "final"
  resolution : resolutionAction = some (stubAction case).name
  presented : presented w' = presented w ++ [stubAction case]
  answered : ∃ env result w₁,
    ((p.caseExecutor case provider).execute (stubAction case)).run { w with env := env } =
      (.ok result, w₁) ∧ w'.store = w₁.store ∧ w'.journal = w₁.journal ∧
    outcome = agentOutcome result.status (stubAction case).name

/-- What at most `n` calls of the LLM from the world `w` on come to. -/
structure Resolves (start : ℚ) (n : Nat) (w : World S (Env τ)) (answer : AgentOutcome × Progress)
    (w' : World S (Env τ)) : Prop where
  calls : llmCalls w'.env ≤ llmCalls w.env + n
  ends : answer.1 = .failedTimeout ∧ Overran (p.caseLoop case provider) start ∨
    ActsOnce p case provider w answer.1 answer.2.resolutionAction answer.2.steps w'

variable {p case provider}

/-- Only the environment changed before. -/
theorem Resolves.later {start : ℚ} {n : Nat} {w w' : World S (Env τ)} {env : Env τ}
    {answer : AgentOutcome × Progress}
    (h : Resolves p case provider start n { w with env := env } answer w')
    (hcalls : llmCalls env = llmCalls w.env + 1) :
    Resolves p case provider start (n + 1) w answer w' := by
  refine ⟨?_, ?_⟩
  · have hle := h.calls
    dsimp only at hle
    omega
  · rcases h.ends with hlate | hacted
    · exact .inl hlate
    · exact .inr ⟨hacted.finished, hacted.resolution, hacted.presented, hacted.answered⟩

variable {stub : StubLLMClient}

variable [LawfulGuardStore S]

end Run

mutual

/-- The characters of a document; its texts have nothing to escape, its floats are whole. -/
def Sample.spell : Json → String
  | .null => "null"
  | .bool b => if b then "true" else "false"
  | .int i => toString i
  | .float x => toString x.num ++ ".0"
  | .str s => "\"" ++ s ++ "\""
  | .arr items => "[" ++ ", ".intercalate (Sample.spellItems items) ++ "]"
  | .obj members => "\x7b" ++ ", ".intercalate (Sample.spellMembers members) ++ "\x7d"

def Sample.spellItems : List Json → List String
  | [] => []
  | item :: rest => Sample.spell item :: Sample.spellItems rest

def Sample.spellMembers : List (String × Json) → List String
  | [] => []
  | (name, value) :: rest => ("\"" ++ name ++ "\": " ++ Sample.spell value) ::
    Sample.spellMembers rest

end

def Sample.stub : StubLLMClient where
  spelling
    | .doc json => Sample.spell json
    | .malformed raw => raw

/-- The provider, whose answers do not get lost. -/
def Sample.lossless : PaymentProvider Sample.Outside :=
  { Sample.provider with
    createPaymentLink _ _ o := (⟨true, .ok ⟨"plink_1", "https://rzp.io/i/1", .created⟩⟩, o) }

/-- The sample application, with the stub for its LLM. -/
def Sample.stubbed : RecoveryPipeline Sample.Outside :=
  { Sample.pipeline with
    registry := dictOf [("razorpay", Sample.lossless)]
    llm := Sample.stub.client }

/-- The stub sent a link for the payment before. -/
def Sample.linked : World SqlGuardStore (Env Sample.Outside) :=
  runOps [.deliver (Sample.failed "evt_1" .cardDeclined), .process Sample.stubbed 1 .lives]
    (World.opened GuardStore.empty ⟨[], false⟩ [])

end PaymentRecovery.Recovery

import PaymentRecovery.Agent.Steps
import PaymentRecovery.Guardrails.InMemoryStore

/-!
# When a run of the loop returns

The loop guards one of its callees alone, the action builder. A run returns its
trajectory exactly when no other callee raised, and the trajectory then holds one
step for every response of the LLM.
-/

namespace PaymentRecovery.Agent

open PaymentRecovery.Python PaymentRecovery.Lib PaymentRecovery.Guardrails Program

variable {S σ : Type} [GuardStore S]

/-- The step records this response. -/
structure StepOf (response : LLMResponse) (step : TrajectoryStep) : Prop where
  promptTokens : step.promptTokens = response.promptTokens
  completionTokens : step.completionTokens = response.completionTokens
  latencyMs : step.latencyMs = response.latencyMs
  cached : step.cached = response.cached

/-- The progress a turn leaves. -/
def Turn.progress : Turn → Progress
  | .stop _ progress => progress
  | .next progress => progress

/-- A turn that ends the loop gives it an outcome. -/
def Turn.Ended : Turn → Prop
  | .stop outcome _ => outcome ≠ .running
  | .next _ => True

section Answers

variable {loop : AgentLoop σ}

theorem finalOutcome_ne_running (resolution : Option String) (progress : Progress) :
    AgentLoop.finalOutcome resolution progress ≠ .running := by
  unfold AgentLoop.finalOutcome
  split
  · decide
  · decide
  · decide
  · decide
  · -- escalated or resolved
    dsimp only
    split_ifs <;> decide

variable (loop) in
/-- A turn records one step and raises nothing but what its calls do. -/
theorem turn_answers (decision : Option Decision) (progress : Progress) (index : Nat)
    (response : LLMResponse) (w : World S σ) :
    (∃ turn w', (loop.turn decision progress index response).run w = (.ok turn, w') ∧ turn.Ended ∧
      (∃ step, turn.progress.steps = progress.steps ++ [step] ∧ StepOf response step) ∧
      ∀ call ∈ loop.turnCalls decision w, call.escaping = none ∧ call.response? = none) ∨
    ∃ exc w', (loop.turn decision progress index response).run w = (.error exc, w') ∧
      (∃ call ∈ loop.turnCalls decision w, call.escaping = some exc) ∧
      ∀ call ∈ loop.turnCalls decision w, call.response? = none := by
  obtain ⟨calls, answer, w', htakes⟩ := loop.takes decision progress index response w
  rw [htakes.turn, htakes.turnCalls]
  cases htakes with
  | malformed =>
    exact .inl ⟨_, _, rfl, fun h => (by cases h), ⟨_, rfl, rfl, rfl, rfl, rfl⟩, by simp⟩
  | final thought resolution finished hfinished =>
    subst hfinished
    exact .inl ⟨_, _, rfl, finalOutcome_ne_running _ _, ⟨_, rfl, rfl, rfl, rfl, rfl⟩, by simp⟩
  | unknownTool | invalidArgs =>
    exact .inl ⟨_, _, rfl, trivial, ⟨_, rfl, rfl, rfl, rfl, rfl⟩, by simp⟩
  | read | unbuilt | executed =>
    exact .inl ⟨_, _, rfl, trivial, ⟨_, rfl, rfl, rfl, rfl, rfl⟩,
      by simp [LoopCall.escaping, LoopCall.response?]⟩
  | unread | raised =>
    exact .inr ⟨_, _, rfl, by simp [LoopCall.escaping], by simp [LoopCall.response?]⟩

/-- The responses among the calls. -/
def responses (calls : List (LoopCall σ)) : List LLMResponse := calls.filterMap LoopCall.response?

/-- What the iterations come to, given the calls they make. -/
def Concludes (progress : Progress) (calls : List (LoopCall σ))
    (out : Except PyExc (AgentOutcome × Progress)) : Prop :=
  (∃ answer new, out = .ok answer ∧ answer.1 ≠ .running ∧
      answer.2.steps = progress.steps ++ new ∧ List.Forall₂ StepOf (responses calls) new ∧
      ∀ call ∈ calls, call.escaping = none) ∨
  ∃ exc, out = .error exc ∧ ∃ call ∈ calls, call.escaping = some exc

theorem Concludes.raised {progress : Progress} {calls : List (LoopCall σ)} {call : LoopCall σ}
    {exc : PyExc} (hcall : call ∈ calls) (h : call.escaping = some exc) :
    Concludes progress calls (.error exc) :=
  .inr ⟨exc, rfl, call, hcall, h⟩

theorem Concludes.finished {progress : Progress} {outcome : AgentOutcome}
    (h : outcome ≠ .running) : Concludes (σ := σ) progress [] (.ok (outcome, progress)) :=
  .inl ⟨_, [], rfl, h, (List.append_nil _).symm, .nil, by simp⟩

end Answers

/-- An LLM that always asks for the payment, and a provider that is down. -/
def Sample.lookup : AgentLoop Unit where
  llm := fun _ env => (.ok ⟨"", .ok (.obj [("thought", .str "look it up"), ("action",
    .obj [("tool", .str "get_payment_details"), ("args", .obj [])])]), 100, 20, 5, false⟩, env)
  registry := Dict.empty.set "get_payment_details" ⟨"get_payment_details", "Look up the payment.", [],
    .read fun _ env => (.error ⟨.providerAPIError, "503 Service Unavailable"⟩, env), List.nodup_nil⟩
  executor := .new "pay_1" ⟨2000, 3, 5000⟩ fun env => (0, env)
  systemPrompt := .malformed "Recover the payment."
  systemPromptId := "recovery_agent/v1"
  maxIterations := 5
  timeoutSeconds := 30
  clock := fun env => (0, env)
  now := fun env => ("2026-01-01T00:00:00+00:00", env)

/-- A new in-memory store. -/
def Sample.start : World InMemoryGuardStore Unit :=
  ⟨⟨.empty, InMemoryTables.empty_wf⟩, (), []⟩

end PaymentRecovery.Agent

import PaymentRecovery.Recovery.Lifecycle

/-!
# The distilled evaluation

A stream of cases, each routed, handled, observed by the distiller and followed
by its step. What the agent resolves a case with and whether the simulated
customer recovers belong to the case.
-/

namespace PaymentRecovery.Evals

open PaymentRecovery.Python PaymentRecovery.Lib PaymentRecovery.Rules PaymentRecovery.Recovery
open PaymentRecovery.Distill Program

/-- One case: what the system can observe of it, and what the harness asks of it. -/
structure SyntheticCase where
  index : Int
  paymentId : String
  amountInr : ℚ
  failureReason : String
  method : String
  customerSuccessfulPayments : Int
  customerFailedPayments : Int
  hoursSinceLastAttempt : ℚ
  attemptNumber : Int
  /-- `is_control(case)` -/
  control : Bool
  /-- `run_recovery(...).resolution_action` -/
  agentAction : Except PyExc (Option String)
  /-- `simulator.recovered(case, action, retry_budget)` -/
  recovered : String → Bool

/-- `_observable_context`. -/
def SyntheticCase.observableContext (case : SyntheticCase) : List (String × PyVal) :=
  [("failure_reason", .str case.failureReason), ("amount_inr", .float case.amountInr),
    ("method", .str case.method),
    ("customer_successful_payments", .int case.customerSuccessfulPayments),
    ("customer_failed_payments", .int case.customerFailedPayments),
    ("hours_since_last_attempt", .float case.hoursSinceLastAttempt),
    ("attempt_number", .int case.attemptNumber)]

inductive RecordPath where
  | control
  | deterministic
  | llm
  deriving DecidableEq

/-- What the stream goes on with of a record. -/
structure Record where
  path : RecordPath
  action : Option String
  recovered : Bool

/-- `action or gt.NO_ACTION`. -/
def orNoAction (action : Option String) : String :=
  match action with
  | some action => if action = "" then "no_action" else action
  | none => "no_action"

/-- `_process`. -/
def process (rows : List RuleRow) (case : SyntheticCase) : Except PyExc Record :=
  if case.control then .ok ⟨.control, none, case.recovered "no_action"⟩
  else do
    let decision ← route rows case.observableContext
    match decision.route with
    | .deterministic =>
      return ⟨.deterministic, decision.action, case.recovered (orNoAction decision.action)⟩
    | .escalateToAgent =>
      let action ← case.agentAction
      return ⟨.llm, action, case.recovered (orNoAction action)⟩

variable {σ : Type} (D : PaymentDistiller σ)

/-- The case is processed and, unless it is a control, observed. -/
def handleCase (case : SyntheticCase) : Program (DistillerWorld σ) PyExc Unit := do
  let record ← attempt fun w => (process w.rows case, w)
  if record.path = .control then pure ()
  else
    D.observe case.observableContext record.action record.recovered (record.path = .llm)
      case.paymentId

/-- Handling a case changes no row. -/
theorem handleCase_keepsRules (case : SyntheticCase) : Moves KeepsRules (handleCase D case) := by
  unfold handleCase
  refine .bind (.attempt fun w => Std.Refl.refl w) fun record => ?_
  split
  · exact .pure ()
  · exact observe_keepsRules _ _ _ _ _

variable {D} in
/-- A control case changes nothing, and any other is observed as it is recorded. -/
theorem handleCase_run {case : SyntheticCase} {w v : DistillerWorld σ}
    (hrun : (handleCase D case).run w = (.ok (), v)) :
    ∃ record, process w.rows case = .ok record ∧ v.rows = w.rows ∧
      ((record.path = .control ∧ v = w) ∨ (record.path ≠ .control ∧
        (D.observe case.observableContext record.action record.recovered (record.path = .llm)
          case.paymentId).run w = (.ok (), v))) := by
  have hrows : v.rows = w.rows := by
    have hsame := handleCase_keepsRules D case w
    rw [hrun] at hsame
    exact hsame
  unfold handleCase at hrun
  obtain ⟨record, w₁, hprocess, hrun⟩ := run_bind_ok hrun
  rw [run_attempt] at hprocess
  injection hprocess with hrecord hw
  subst hw
  refine ⟨record, hrecord, hrows, ?_⟩
  by_cases hcontrol : record.path = .control
  · rw [if_pos hcontrol] at hrun
    injection hrun with _ hv
    exact .inl ⟨hcontrol, hv.symm⟩
  · rw [if_neg hcontrol] at hrun
    exact .inr ⟨hcontrol, hrun⟩

/-- One turn of the stream. -/
def runCase (case : SyntheticCase) : Program (DistillerWorld σ) PyExc Unit := do
  handleCase D case
  D.step (case.index + 1)

/-- The stream of `run_eval_distilled`. -/
def runEvalDistilled : List SyntheticCase → Program (DistillerWorld σ) PyExc Unit
  | [] => pure ()
  | case :: rest => do
    runCase D case
    runEvalDistilled rest

/-- One turn as far as `promote`: is it due? -/
def beforePromote (case : SyntheticCase) : Program (DistillerWorld σ) PyExc Bool := do
  handleCase D case
  D.dueToPromote (case.index + 1)

/-- A turn is that, and then `promote` and `demote` if they are due. -/
theorem runCase_run (case : SyntheticCase) (w : DistillerWorld σ) :
    (runCase D case).run w =
      match (beforePromote D case).run w with
      | (.ok true, before) => (D.promote >>= fun _ => D.demote).run before
      | (.ok false, v) => (.ok (), v)
      | (.error exc, v) => (.error exc, v) := by
  unfold runCase beforePromote PaymentDistiller.step
  rw [run_bind, run_bind]
  cases (handleCase D case).run w with
  | mk answer v =>
    cases answer with
    | error exc => rfl
    | ok _ =>
      dsimp only
      rw [run_bind]
      cases (D.dueToPromote (case.index + 1)).run v with
      | mk due v' =>
        cases due with
        | error exc => rfl
        | ok due => cases due <;> rfl

/-! ## What a stream gathers -/

/-- What every case of a stream adds, seen with the rows it meets. -/
def gathered {α : Type} (see : List RuleRow → SyntheticCase → List α) :
    List SyntheticCase → DistillerWorld σ → List α
  | [], _ => []
  | case :: rest, w => see w.rows case ++ gathered see rest ((runCase D case).run w).2

variable {D} {α : Type}

/-- The last case of a stream is seen in the world the others leave. -/
theorem gathered_snoc (see : List RuleRow → SyntheticCase → List α) {cases : List SyntheticCase}
    {case : SyntheticCase} {w v : DistillerWorld σ}
    (hrun : (runEvalDistilled D cases).run w = (.ok (), v)) :
    gathered D see (cases ++ [case]) w = gathered D see cases w ++ see v.rows case := by
  induction cases generalizing w with
  | nil =>
    injection hrun with _ hv
    subst hv
    simp [gathered]
  | cons first rest ih =>
    obtain ⟨_, w₁, hfirst, hrest⟩ := run_bind_ok hrun
    have hworld : ((runCase D first).run w).2 = w₁ := by rw [hfirst]
    simp only [List.cons_append, gathered, hworld, ih hrest, List.append_assoc]

/-- What every turn keeps about what was gathered so far, the stream keeps. -/
theorem gathered_stream {ι : Type} {P : (ι → List α) → DistillerWorld σ → Prop}
    {C : DistillerWorld σ → SyntheticCase → Prop}
    {see : ι → List RuleRow → SyntheticCase → List α}
    (hturn : ∀ ev w v case, P ev w → C w case → (runCase D case).run w = (.ok (), v) →
      P (fun i => ev i ++ see i w.rows case) v)
    {ev : ι → List α} {cases : List SyntheticCase} {w v : DistillerWorld σ} (h : P ev w)
    (hcases : Run.Along (fun case => (runCase D case).run) C cases w)
    (hrun : (runEvalDistilled D cases).run w = (.ok (), v)) :
    P (fun i => ev i ++ gathered D (see i) cases w) v := by
  induction cases generalizing w ev with
  | nil =>
    injection hrun with _ hv
    subst hv
    simpa [gathered] using h
  | cons case rest ih =>
    obtain ⟨_, w₁, hfirst, hrest⟩ := run_bind_ok hrun
    obtain ⟨hhere, hlater⟩ := hcases
    dsimp only at hlater
    rw [hfirst] at hlater
    have hnext := ih (hturn ev w w₁ case h hhere hfirst) hlater hrest
    have hworld : ((runCase D case).run w).2 = w₁ := by rw [hfirst]
    simpa only [gathered, hworld, List.append_assoc] using hnext

end PaymentRecovery.Evals

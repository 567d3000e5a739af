import PaymentRecovery.Recovery.Asked
import PaymentRecovery.Recovery.Playground

/-!
# A row and its trajectory

The row of an event names the trajectory the agent stored for it, and what the playground shows of
that trajectory has a step for each call of the LLM that was made.
-/

namespace PaymentRecovery.Recovery

open PaymentRecovery.Python PaymentRecovery.Guardrails PaymentRecovery.Providers
open PaymentRecovery.Agent PaymentRecovery.Lib PaymentRecovery.Lib.Table Program
open RecoveryPipeline

variable {S τ : Type}

/-! ## The trajectory, as it is shown -/

/-- What is shown of a trajectory. -/
def viewOf (id : Nat) (t : Trajectory) : TrajectoryView where
  id := id
  outcome := t.outcome.value
  resolutionAction := .ofOption .str t.resolutionAction
  promptId := .str t.systemPromptId
  steps := t.steps.map fun step =>
    ⟨.int step.index, .ofOption .str step.tool, .str step.decision,
      .str (takeChars 240 step.thought)⟩

/-- A text is shortened, the empty one as well. -/
theorem shortThought_str (s : String) : shortThought (.str s) = .ok (.str (takeChars 240 s)) := by
  unfold shortThought
  by_cases hs : s = ""
  · subst hs
    rfl
  · have htruthy : truthy (.str s) = true := by simp [truthy, hs]
    rw [if_pos htruthy]

/-- Every step that was stored can be shown. -/
theorem stepViews_loaded (steps : List TrajectoryStep) :
    (steps.map TrajectoryStep.loaded).mapM stepView = .ok (steps.map fun step =>
      ⟨.int step.index, .ofOption .str step.tool, .str step.decision,
        .str (takeChars 240 step.thought)⟩) := by
  induction steps with
  | nil => rfl
  | cons step rest ih =>
    have hstep : stepView step.loaded = .ok ⟨.int step.index, .ofOption .str step.tool,
        .str step.decision, .str (takeChars 240 step.thought)⟩ := by
      unfold stepView
      show (shortThought (.str step.thought) >>= _) = _
      rw [shortThought_str]
      rfl
    rw [List.map_cons, List.mapM_cons, hstep, ih]
    rfl

/-- A trajectory that is read back is shown. -/
theorem trajectoryView_loaded {id : Nat} {t : Trajectory} {v : World S (Env τ)}
    (hload : (loadTrajectory id).run v = (.ok (some t.loaded), v)) :
    (trajectoryView (some id)).run v = (.ok (some (viewOf id t)), v) := by
  unfold trajectoryView
  dsimp only
  rw [run_bind, hload]
  dsimp only
  rw [run_bind, run_orRaise]
  have hsteps := stepViews_loaded t.steps
  rw [show t.loaded.steps = t.steps.map TrajectoryStep.loaded from rfl, hsteps]
  rfl

/-- How many calls of the LLM a view stands for. -/
def toldCalls : Option TrajectoryView → Nat
  | none => 0
  | some view => view.steps.length

/-- What is read back depends on the row alone. -/
theorem loadTrajectory_run (id : Nat) (v : World S (Env τ)) :
    (loadTrajectory id).run v = (match selectBy TrajectoryRow.id id v.env.db.trajectories with
      | none => .ok none
      | some row => do
        let data ← jsonLoads row.trajectoryJson
        some <$> Trajectory.fromDict data, v) := by
  unfold loadTrajectory readDb
  rw [run_bind, run_read]
  dsimp only
  cases selectBy TrajectoryRow.id id v.env.db.trajectories with
  | none => rfl
  | some row =>
    dsimp only
    rw [run_bind, run_orRaise]
    cases jsonLoads row.trajectoryJson with
    | error exc => rfl
    | ok data =>
      dsimp only
      rw [run_map, run_orRaise]
      rfl

/-- A trajectory is read back as long as none is lost. -/
theorem loadTrajectory_later {id : Nat} {t : LoadedTrajectory} {v u : World S (Env τ)}
    (hkept : v.env.db.trajectories <+: u.env.db.trajectories)
    (h : (loadTrajectory id).run v = (.ok (some t), v)) :
    (loadTrajectory id).run u = (.ok (some t), u) := by
  obtain ⟨more, hmore⟩ := hkept
  rw [loadTrajectory_run] at h ⊢
  injection h with h
  cases hrow : selectBy TrajectoryRow.id id v.env.db.trajectories with
  | none =>
    rw [hrow] at h
    cases h
  | some row =>
    have hlater : selectBy TrajectoryRow.id id u.env.db.trajectories = some row := by
      rw [← hmore]
      unfold selectBy at hrow ⊢
      rw [List.find?_append, hrow]
      rfl
    rw [hrow] at h
    rw [hlater]
    exact congrArg (·, u) h

/-! ## One call, and what its row tells -/

/-- The row tells the calls of the LLM that were made from `w` to `v`, through a trajectory that
can be shown from then on. A failed attempt tells none. -/
structure Recounts (w v : World S (Env τ)) (row : LedgerEntry) (view : Option TrajectoryView) :
    Prop where
  shown : ∀ u : World S (Env τ), v.env.db.trajectories <+: u.env.db.trajectories →
    (trajectoryView row.trajectoryId).run u = (.ok view, u)
  path : view.isSome ↔ row.path = .llm
  calls : row.path ≠ .failed → llmCalls v.env = llmCalls w.env + toldCalls view

section Process

variable [GuardStore S] (p : RecoveryPipeline τ)

omit [GuardStore S] in
/-- A row that names no trajectory shows none. -/
theorem Recounts.silent {w v : World S (Env τ)} {row : LedgerEntry}
    (htrajectory : row.trajectoryId = none) (hpath : row.path ≠ .llm)
    (hcalls : row.path ≠ .failed → llmCalls v.env = llmCalls w.env) : Recounts w v row none where
  shown u _ := by rw [htrajectory]; rfl
  path := by simp [hpath]
  calls := hcalls

/-- The row of an event that was acted on recounts it. -/
theorem RecoveryPipeline.recounts_acted {event : NormalisedEvent} {w v : World S (Env τ)}
    (row : LedgerEntry) (hnumbered : Consecutive w.env.db.trajectories)
    (hpath : row.path = (fieldsOf (p.acted event w).1).path)
    (hid : row.trajectoryId = (fieldsOf (p.acted event w).1).trajectoryId)
    (hcalls : v.env.calls = (p.acted event w).2.env.calls)
    (htrajectories : v.env.db.trajectories = (p.acted event w).2.env.db.trajectories) :
    ∃ view, Recounts w v row view := by
  have hllm : llmCalls v.env = llmCalls (p.acted event w).2.env := by
    unfold llmCalls
    rw [hcalls]
  cases hacted : (p.acted event w).1 with
  | error exc =>
    rw [hacted] at hid hpath
    exact ⟨none, .silent hid (by rw [hpath]; exact LedgerPath.noConfusion) fun h => absurd hpath h⟩
  | ok fields =>
    rw [hacted] at hid hpath
    have hasked := p.acted_asked hacted
    cases hasked with
    | rule _ hrule hnone hsame =>
      refine ⟨none, .silent (hid.trans hnone) ?_ fun _ => hllm.trans hsame⟩
      rw [hpath]
      show fields.path ≠ .llm
      rw [hrule]
      exact LedgerPath.noConfusion
    | agent t stored approvalId hsteps _ _ hloads =>
      refine ⟨some (viewOf stored.id t), ⟨fun u hkept => ?_, ?_, fun _ => ?_⟩⟩
      · rw [hid]
        rw [htrajectories] at hkept
        exact trajectoryView_loaded (loadTrajectory_later hkept (hloads hnumbered))
      · rw [hpath]
        exact ⟨fun _ => rfl, fun _ => rfl⟩
      · rw [hllm, hsteps]
        simp [toldCalls, viewOf]

/-- How a call on a failed payment without a row ends: it has recorded a redelivery and asked
nobody, or it has acted on the event. -/
inductive RecoveryPipeline.Ends (id : Nat) (event : NormalisedEvent) (w v : World S (Env τ)) :
    LedgerEntry → Prop
  | duplicate (earlier : LedgerEntry) (hre : Redelivered w.env.db id event earlier)
    (hcalls : v.env.calls = w.env.calls) (happlied : v.env.applied = w.env.applied) :
    Ends id event w v (w.env.db.ledger.newRow (baseOf id event) (duplicateFields earlier))
  | acted (latency : ℚ) (hdue : Due w.env.db id event)
    (hcalls : v.env.calls = (p.acted event w).2.env.calls)
    (happlied : v.env.applied = (p.acted event w).2.env.applied)
    (htrajectories : v.env.db.trajectories = (p.acted event w).2.env.db.trajectories) :
    Ends id event w v (w.env.db.ledger.newRow (baseOf id event)
      { fieldsOf (p.acted event w).1 with latencyMs := latency })

/-- It answers with the number of the row it has added. -/
theorem process_ends {id : Nat} {event : NormalisedEvent} {w : World S (Env τ)}
    (hun : Unrecorded w.env.db id event) :
    ∃ row v, (p.process id).run w = (.ok (some row.id), v) ∧
      v.env.db.ledger.rows = w.env.db.ledger.rows ++ [row] ∧ row.toLedgerBase = baseOf id event ∧
      p.Ends id event w v row := by
  have hnew : ∀ fields, (w.env.db.ledger.record (baseOf id event) fields).2.rows =
      w.env.db.ledger.rows ++ [w.env.db.ledger.newRow (baseOf id event) fields] :=
    fun fields => (Ledger.record_new _ _ (by exact hun.norow)).2
  rcases p.process_cases id w with ⟨answer, hidle, _⟩ | ⟨event', earlier, hre, hrun, _⟩ |
    ⟨event', hdue, hrun, _⟩
  · exact absurd hun (hidle.not_unrecorded event)
  · have hevent := hun.event_unique hre.toUnrecorded
    subst hevent
    unfold recordDuplicate at hrun
    rw [run_map, record_run _ _ (Eq.refl w.env.db.ledger) (by exact hun.norow)] at hrun
    exact ⟨w.env.db.ledger.newRow (baseOf id event) (duplicateFields earlier), _, hrun, hnew _, rfl,
      .duplicate earlier hre rfl rfl⟩
  · have hevent := hun.event_unique hdue.toUnrecorded
    subst hevent
    obtain ⟨latency, db, hhandle, hledger, _, htrajectories⟩ := p.handle_leaves event hdue.norow
    rw [run_map, hhandle] at hrun
    refine ⟨w.env.db.ledger.newRow (baseOf id event)
      { fieldsOf (p.acted event w).1 with latencyMs := latency }, _, hrun, ?_, rfl,
      .acted latency hdue rfl rfl htrajectories⟩
    show db.ledger.rows = _
    rw [hledger]
    exact hnew _

/-- The row that is added recounts the call. -/
theorem process_recounts {id : Nat} {event : NormalisedEvent} {w v : World S (Env τ)}
    {row : LedgerEntry} (h : p.Ends id event w v row)
    (hnumbered : Consecutive w.env.db.trajectories) : ∃ view, Recounts w v row view := by
  cases h with
  | duplicate earlier hre hcalls =>
    refine ⟨none, .silent rfl LedgerPath.noConfusion fun _ => ?_⟩
    unfold llmCalls
    rw [hcalls]
  | acted latency hdue hcalls happlied htrajectories =>
    exact p.recounts_acted _ hnumbered rfl rfl hcalls htrajectories

end Process

end PaymentRecovery.Recovery

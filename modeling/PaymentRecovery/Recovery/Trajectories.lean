import PaymentRecovery.Agent.Returns
import PaymentRecovery.Agent.RoundTrip
import PaymentRecovery.Recovery.Pipeline

/-!
# Stored trajectories

`TrajectoryStore`: what `save` wrote as JSON text, `load` reads back as the same
trajectory.
-/

namespace PaymentRecovery.Recovery

open PaymentRecovery.Python PaymentRecovery.Guardrails PaymentRecovery.Providers
open PaymentRecovery.Agent PaymentRecovery.Lib PaymentRecovery.Lib.Table PaymentRecovery.Rules Program
open RecoveryPipeline

variable {S S' σ τ : Type}

/-- `TrajectoryStore.load`. -/
def loadTrajectory (rowId : Nat) : Pipe S τ (Option LoadedTrajectory) := do
  let row? ← readDb fun db => selectBy TrajectoryRow.id rowId db.trajectories
  match row? with
  | none => return none
  | some row => do
    let data ← orRaise (jsonLoads row.trajectoryJson)
    some <$> orRaise (Trajectory.fromDict data)

/-- The rows have the numbers from one on, in the order of their insertion. -/
def Consecutive (rows : List TrajectoryRow) : Prop :=
  rows.map TrajectoryRow.id = List.range' 1 rows.length

theorem Consecutive.append {rows : List TrajectoryRow} (h : Consecutive rows) {row : TrajectoryRow}
    (hid : row.id = rows.length + 1) : Consecutive (rows ++ [row]) := by
  unfold Consecutive at *
  rw [List.map_append, h, List.length_append, List.length_singleton, List.range'_concat,
    List.map_singleton, hid, Nat.one_mul, Nat.add_comm]

/-- The next number is not taken. -/
theorem Consecutive.select_next {rows : List TrajectoryRow} (h : Consecutive rows) :
    selectBy TrajectoryRow.id (rows.length + 1) rows = none := by
  refine selectBy_none.mpr fun row hrow hid => ?_
  have hmem : row.id ∈ List.range' 1 rows.length := h ▸ List.mem_map_of_mem hrow
  rw [List.mem_range'_1, hid] at hmem
  omega

/-- `load` after `save`, for a trajectory that is JSON. -/
theorem load_save {t : Trajectory} (hjson : IsJson t.toDict) {v : World S (Env τ)}
    (hnumbered : Consecutive v.env.db.trajectories) :
    ∃ rowId v', (saveTrajectory t).run v = (.ok rowId, v') ∧
      (loadTrajectory rowId).run v' = (.ok (some t.loaded), v') := by
  obtain ⟨text, hdumps, hloads⟩ := isJson_preserved hjson
  have hnext := hnumbered.select_next
  unfold saveTrajectory writeDb loadTrajectory readDb
  rw [run_attempt, hdumps]
  refine ⟨_, _, rfl, ?_⟩
  rw [run_bind, run_read]
  dsimp only
  rw [selectBy_insert rfl hnext, if_pos rfl]
  dsimp only
  rw [run_bind, run_orRaise, hloads]
  dsimp only
  rw [run_map, run_orRaise, Trajectory.fromDict_toDict]
  rfl

/-- **Trajectories survive storage.** Whatever the LLM, the tools and the clocks answer: the
dict of a trajectory that the loop returned is a JSON value with texts as keys, and loading
what was saved yields that trajectory, with its steps, outcome, action and totals. -/
theorem trajectory_survives_storage [GuardStore S] (loop : AgentLoop σ) (subjectId : String)
    (case : List (String × PyVal)) (w w' : World S σ) (t : Trajectory)
    (hrun : (loop.run subjectId case).run w = (.ok t, w')) (v : World S' (Env τ))
    (hnumbered : Consecutive v.env.db.trajectories) :
    IsJson t.toDict ∧ ∃ rowId v' loaded, (saveTrajectory t).run v = (.ok rowId, v') ∧
      (loadTrajectory rowId).run v' = (.ok (some loaded), v') ∧ SameTrajectory t loaded := by
  have hjson : IsJson t.toDict := Trajectory.isJson_toDict (run_json loop subjectId case w t w' hrun)
  obtain ⟨rowId, v', hsave, hload⟩ := load_save hjson hnumbered
  exact ⟨hjson, rowId, v', t.loaded, hsave, hload, t.same_loaded⟩

/-- A tool that answers with a mapping, a tuple and an object that JSON has no text for. -/
def Sample.dump : AgentLoop Unit where
  llm := fun _ env => (.ok ⟨"", .ok (.obj [("thought", .str "look it up"), ("action",
    .obj [("tool", .str "dump"), ("args", .obj [])])]), 100, 20, 5, false⟩, env)
  registry := Dict.empty.set "dump" ⟨"dump", "Dump the payment.", [],
    .read fun _ env => (.ok (.dict [(.scalar "1" "1", .tuple [.object "Decimal" "3.50", .none]),
      (.other "tuple" "(1, 2)", .float (7 / 2))]), env), List.nodup_nil⟩
  executor := .new "pay_1" ⟨2000, 3, 5000⟩ fun env => (0, env)
  systemPrompt := .malformed "Recover the payment."
  systemPromptId := "recovery_agent/v1"
  maxIterations := 1
  timeoutSeconds := 30
  clock := fun env => (0, env)
  now := fun env => ("2026-01-01T00:00:00+00:00", env)

/-- An empty database. -/
def Sample.emptyDatabase : World InMemoryGuardStore (Env Unit) :=
  ⟨⟨.empty, InMemoryTables.empty_wf⟩, ⟨⟨[], .empty, [], []⟩, (), [], []⟩, []⟩

/-- What its one call leaves recorded: the answer has become JSON. -/
def Sample.dumped : Trajectory where
  runId := "pay_1"
  subjectId := "cust_1"
  systemPromptId := "recovery_agent/v1"
  startedAt := "2026-01-01T00:00:00+00:00"
  endedAt := some "2026-01-01T00:00:00+00:00"
  outcome := .maxIterations
  resolutionAction := none
  steps := [⟨1, "look it up", some "dump", some (.dict []), "tool_call",
    .record [("1", .list [.str "3.50", .none]), ("(1, 2)", .float (7 / 2))], 100, 20, 5, false⟩]

theorem trajectory_survives_storage_dump :
    (Sample.dump.run "cust_1" []).run Agent.Sample.start = (.ok Sample.dumped, Agent.Sample.start) ∧
      IsJson Sample.dumped.toDict ∧ ∃ rowId v' loaded,
        (saveTrajectory Sample.dumped).run Sample.emptyDatabase = (.ok rowId, v') ∧
        (loadTrajectory rowId).run v' = (.ok (some loaded), v') ∧
        SameTrajectory Sample.dumped loaded :=
  have hrun : (Sample.dump.run "cust_1" []).run Agent.Sample.start =
      (.ok Sample.dumped, Agent.Sample.start) := by with_unfolding_all rfl
  ⟨hrun, trajectory_survives_storage Sample.dump "cust_1" [] Agent.Sample.start _ _ hrun
    Sample.emptyDatabase rfl⟩

end PaymentRecovery.Recovery

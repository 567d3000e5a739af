import PaymentRecovery.Agent.Bounds
import PaymentRecovery.Agent.Returns
import PaymentRecovery.Agent.Scripted

/-!
# What the LLM is told

Of the observations the loop makes, only those of a tool that ran go through
`bound_observation`. The others quote the LLM or an exception: a response that could not be
parsed, a resolution, the name of an unknown tool, why arguments were refused, why an action
could not be built. A run's observations are bounded exactly when these texts are short.
-/

namespace PaymentRecovery.Agent

open PaymentRecovery.Python PaymentRecovery.Lib PaymentRecovery.Guardrails PaymentRecovery.Rules
open Program

variable {S σ : Type} [GuardStore S]

/-! ## The rounds of a run -/

/-- One answer of the LLM: its response, what was read of it, the world in which it is acted on,
and what that leads to. -/
structure Round (S σ : Type) where
  response : LLMResponse
  decision : Option Decision
  before : World S σ
  ended : Except PyExc Turn

namespace AgentLoop

variable (loop : AgentLoop σ)

/-- The rounds of the iterations from `index` on. -/
def roundsFrom (case : List (String × PyVal)) (start : ℚ) :
    (remaining index : Nat) → Progress → World S σ → List (Round S σ)
  | 0, _, _, _ => []
  | remaining + 1, index, progress, w =>
    let (t, env) := loop.clock w.env
    if loop.timeoutSeconds < t - start then []
    else match loop.messages case progress.history with
    | .error _ => []
    | .ok messages => match loop.llm messages env with
      | (.error _, _) => []
      | (.ok response, env) => match parseDecision response with
        | .error _ => []
        | .ok decision =>
          let (ended, w') := (loop.turn decision progress index response).run (atEnv w env)
          ⟨response, decision, atEnv w env, ended⟩ :: match ended with
            | .ok (.next progress) => roundsFrom case start remaining (index + 1) progress w'
            | _ => []

/-- The rounds of a run. -/
def rounds (case : List (String × PyVal)) (w : World S σ) : List (Round S σ) :=
  let (_, env) := loop.now w.env
  let (start, env) := loop.clock env
  loop.roundsFrom case start loop.maxIterations.toNat 1 .init (atEnv w env)

/-- The rounds from an iteration on, given what it hears. -/
theorem Hears.roundsFrom {loop : AgentLoop σ} {case : List (String × PyVal)} {start : ℚ}
    {progress : Progress} {w : World S σ} {calls : List (LoopCall σ)}
    {answer : Except PyExc (Option (LLMResponse × Option Decision))} {env' : σ}
    (remaining index : Nat) : loop.Hears case start progress w.env calls answer env' →
    loop.roundsFrom case start (remaining + 1) index progress w =
      match answer with
      | .ok (some (response, decision)) =>
        ⟨response, decision, atEnv w env',
          ((loop.turn decision progress index response).run (atEnv w env')).1⟩ ::
        match (loop.turn decision progress index response).run (atEnv w env') with
        | (.ok (.next progress), w') => loop.roundsFrom case start remaining (index + 1) progress w'
        | _ => []
      | _ => [] := by
  intro h
  rw [AgentLoop.roundsFrom]
  cases h with
  | late htime => exact if_pos htime
  | unencoded exc htime hmessages => simp only [if_neg htime, hmessages]
  | down messages exc env' htime hmessages hllm => simp only [if_neg htime, hmessages, hllm]
  | unreadable messages response exc env' htime hmessages hllm hparse =>
    simp only [if_neg htime, hmessages, hllm, hparse]
  | heard messages response decision env' htime hmessages hllm hparse =>
    simp only [if_neg htime, hmessages, hllm, hparse]
    congr 1
    rcases (loop.turn decision progress index response).run (atEnv w env') with
      ⟨_ | _ | _, _⟩ <;> rfl

end AgentLoop

/-- The observation of an entry of the history. -/
def entryObservation : PyVal → Option PyVal
  | .dict items => itemGet? items "observation"
  | _ => none

/-- What has been recorded and remembered so far is bounded. -/
structure Progress.Bounded (progress : Progress) : Prop where
  steps : ∀ step ∈ progress.steps, Python.Bounded observationLimits step.observation
  history : ∀ entry ∈ progress.history, ∃ observation,
    entryObservation entry = some observation ∧ Python.Bounded observationLimits observation

/-- Every observation of the run is bounded: in the steps and in the history after every round,
and in the trajectory if there is one. -/
structure AgentLoop.FeedsBounded (loop : AgentLoop σ) (subjectId : String)
    (case : List (String × PyVal)) (w : World S σ) : Prop where
  rounds : ∀ round ∈ loop.rounds case w, ∀ turn, round.ended = .ok turn → turn.progress.Bounded
  trajectory : ∀ t w', (loop.run subjectId case).run w = (.ok t, w') →
    ∀ step ∈ t.steps, Python.Bounded observationLimits step.observation

/-- The texts that the loop would quote of this answer are short. -/
def Terse (registry : ToolRegistry σ) (env : σ) (response : LLMResponse) : Option Decision → Prop
  | none => response.text.length ≤ 501
  | some (.final _ resolution) => ∀ text, resolution = some text → text.length ≤ 501
  | some (.call _ name raw) =>
    match registry.get? name with
    | none => name.length ≤ 501
    | some tool =>
      match validateArgs tool (.dict raw) with
      | .error exc => exc.message.length ≤ 501
      | .ok args =>
        match tool.body with
        | .read _ => True
        | .effect buildAction => ∀ exc, (buildAction args env).1 = .error exc →
            exc.message.length ≤ 501

/-! ## Observations that quote -/

/-- A mapping of short names to JSON values. -/
theorem bounded_record {items : List (String × PyVal)} (hnames : (items.map Prod.fst).Nodup)
    (hlength : items.length ≤ 50) (hshort : ∀ item ∈ items, item.1.length ≤ 256) :
    Python.Bounded observationLimits (.record items) ↔
      ∀ item ∈ items, IsJson item.2 ∧ WithinFrom observationLimits 1 item.2 := by
  refine ⟨fun h item hitem => ?_, fun h => ⟨isJson_record hnames fun item hitem => (h item hitem).1,
    withinFrom_dict.mpr ⟨by decide, by rw [List.length_map]; exact hlength, fun entry hentry => ?_⟩⟩⟩
  · have hmem : (PyKey.str item.1, item.2) ∈ items.map fun item => (PyKey.str item.1, item.2) :=
      List.mem_map_of_mem hitem
    exact ⟨(isJsonItems_iff.mp h.json.2 _ hmem).2, ((withinFrom_dict.mp h.within).2.2 _ hmem).2⟩
  · obtain ⟨item, hitem, rfl⟩ := List.mem_map.mp hentry
    exact ⟨hshort item hitem, (h item hitem).2⟩

/-- One text under a name is bounded if it is short. -/
theorem bounded_text {name text : String} (hname : name.length ≤ 256) :
    Python.Bounded observationLimits (.record [(name, .str text)]) ↔ text.length ≤ 501 := by
  rw [bounded_record (by simp) (by simp) (by simpa using hname), List.forall_mem_singleton,
    withinFrom_str]
  simp [IsJson, observationLimits]

/-- What went wrong, and a text with it. -/
theorem bounded_error {kind name text : String} (hkind : kind.length ≤ 501)
    (hname : name.length ≤ 256) (hne : "error" ≠ name) :
    Python.Bounded observationLimits (.record [("error", .str kind), (name, .str text)]) ↔
      text.length ≤ 501 := by
  rw [bounded_record (by simpa using hne) (by simp) (by simpa using ⟨by decide, hname⟩)]
  simp [IsJson, observationLimits, withinFrom_str, hkind]

/-! ## One round -/

/-- One step with this observation has been recorded, and it has been remembered if anything
was. -/
structure Appends (observation : PyVal) (progress progress' : Progress) : Prop where
  steps : ∃ step : TrajectoryStep, progress'.steps = progress.steps ++ [step] ∧
    step.observation = observation
  history : progress'.history = progress.history ∨ ∃ entry,
    progress'.history = progress.history ++ [entry] ∧ entryObservation entry = some observation

theorem appends_record (progress : Progress) (index : Nat) (thought : String) (tool : Option String)
    (args : Option PyVal) (decision : String) (observation : PyVal) (response : LLMResponse) :
    Appends observation progress
      (progress.record index thought tool args decision observation response) :=
  ⟨⟨_, rfl, rfl⟩, .inl rfl⟩

theorem entryObservation_record (tool : String) (args observation : PyVal) :
    entryObservation (.record [("tool", .str tool), ("args", args), ("observation", observation)]) =
      some observation := by
  simp [entryObservation, PyVal.record, itemGet?]

/-- Recorded and then remembered. -/
theorem Appends.remember {observation : PyVal} {progress progress' : Progress} (tool : String)
    (args : PyVal) (h : Appends observation progress progress')
    (hsame : progress'.history = progress.history) :
    Appends observation progress (progress'.remember tool args observation) := by
  refine ⟨h.steps, .inr ⟨_, ?_, entryObservation_record tool args observation⟩⟩
  show progress'.history ++ _ = _
  rw [hsame]

/-- What was bounded stays so exactly when the observation is. -/
theorem Appends.bounded_iff {observation : PyVal} {progress progress' : Progress}
    (h : Appends observation progress progress') :
    progress'.Bounded ↔ progress.Bounded ∧ Python.Bounded observationLimits observation := by
  obtain ⟨step, hsteps, hstep⟩ := h.steps
  constructor
  · intro hbounded
    have hobservation : Python.Bounded observationLimits observation :=
      hstep ▸ hbounded.steps step (hsteps ▸ List.mem_append_right _ (List.mem_singleton_self _))
    refine ⟨⟨fun old hold => ?_, fun old hold => ?_⟩, hobservation⟩
    · exact hbounded.steps old (hsteps ▸ List.mem_append_left _ hold)
    · rcases h.history with hsame | ⟨entry, hentry, _⟩
      · exact hbounded.history old (hsame ▸ hold)
      · exact hbounded.history old (hentry ▸ List.mem_append_left _ hold)
  · rintro ⟨hbounded, hobservation⟩
    refine ⟨fun old hold => ?_, fun old hold => ?_⟩
    · rw [hsteps, List.mem_append, List.mem_singleton] at hold
      rcases hold with hold | rfl
      · exact hbounded.steps old hold
      · rw [hstep]
        exact hobservation
    · rcases h.history with hsame | ⟨entry, hentry, hof⟩
      · exact hbounded.history old (hsame ▸ hold)
      · rw [hentry, List.mem_append, List.mem_singleton] at hold
        rcases hold with hold | rfl
        · exact hbounded.history old hold
        · exact ⟨observation, hof, hobservation⟩

/-- A turn that returns appends one observation, which is bounded if what it quotes is short. A
turn that raises was reading or executing, and quotes nothing. -/
theorem turn_quotes (loop : AgentLoop σ) (decision : Option Decision) (progress : Progress)
    (index : Nat) (response : LLMResponse) (w : World S σ) :
    (∃ turn w' observation, (loop.turn decision progress index response).run w = (.ok turn, w') ∧
      Appends observation progress turn.progress ∧
      (Python.Bounded observationLimits observation ↔
        Terse loop.registry w.env response decision)) ∨
    ∃ exc w', (loop.turn decision progress index response).run w = (.error exc, w') ∧
      Terse loop.registry w.env response decision := by
  obtain ⟨calls, answer, w', htakes⟩ := loop.takes decision progress index response w
  rw [htakes.turn]
  unfold Terse
  cases htakes with
  | malformed => exact .inl ⟨_, _, _, rfl, appends_record .., bounded_text (by decide)⟩
  | final thought resolution finished hfinished =>
    subst hfinished
    refine .inl ⟨_, _, _, rfl, appends_record .., ?_⟩
    cases resolution with
    | none =>
      refine iff_of_true ((bounded_record (by simp) (by simp) (by simp; decide)).mpr ?_) (by simp)
      rw [List.forall_mem_singleton]
      exact ⟨trivial, (withinFrom_leaf rfl).mpr ⟨by decide, trivial⟩⟩
    | some text =>
      show Python.Bounded observationLimits (.record [("resolution", .str text)]) ↔ _
      rw [bounded_text (by decide)]
      simp
  | unknownTool thought name raw hspec =>
    dsimp only
    rw [hspec]
    exact .inl ⟨_, _, _, rfl, (appends_record ..).remember _ _ rfl,
      bounded_error (by decide) (by decide) (by decide)⟩
  | invalidArgs thought name raw spec exc hspec hargs =>
    simp only [hspec, hargs]
    exact .inl ⟨_, _, _, rfl, (appends_record ..).remember _ _ rfl,
      bounded_error (by decide) (by decide) (by decide)⟩
  | read thought name raw spec args handler value hspec hargs hbody hread =>
    simp only [hspec, hargs, hbody]
    exact .inl ⟨_, _, _, rfl, (appends_record ..).remember _ _ rfl,
      iff_of_true (boundObservation_bounded _) trivial⟩
  | unread thought name raw spec args handler exc hspec hargs hbody hread =>
    simp only [hspec, hargs, hbody]
    exact .inr ⟨exc, _, rfl, trivial⟩
  | unbuilt thought name raw spec args build exc hspec hargs hbody hbuilt =>
    simp only [hspec, hargs, hbody, hbuilt]
    refine .inl ⟨_, _, _, rfl, (appends_record ..).remember _ _ rfl, ?_⟩
    rw [bounded_error (by decide) (by decide) (by decide)]
    simp
  | executed thought name raw spec args build action result w' hspec hargs hbody hbuilt hexecute =>
    simp only [hspec, hargs, hbody, hbuilt]
    have happends := (appends_record progress index thought (some name) (some (.record args))
      ("effect_" ++ result.status.value) (boundObservation (.record
        [("status", .str result.status.value), ("result", result.result),
          ("detail", .str result.detail)])) response).remember name (.record args) rfl
    exact .inl ⟨_, _, _, rfl, ⟨happends.steps, happends.history⟩,
      iff_of_true (boundObservation_bounded _) (by simp)⟩
  | raised thought name raw spec args build action exc w' hspec hargs hbody hbuilt hexecute =>
    simp only [hspec, hargs, hbody, hbuilt]
    exact .inr ⟨exc, _, rfl, by simp⟩

/-! ## The rounds, one after another -/

/-- The rounds from a bounded progress on leave bounded ones exactly when each is terse. -/
theorem roundsFrom_bounded_iff (loop : AgentLoop σ) (case : List (String × PyVal)) (start : ℚ)
    (remaining index : Nat) {progress : Progress} (hbounded : progress.Bounded) (w : World S σ) :
    (∀ round ∈ loop.roundsFrom case start remaining index progress w,
      ∀ turn, round.ended = .ok turn → turn.progress.Bounded) ↔
    ∀ round ∈ loop.roundsFrom case start remaining index progress w,
      Terse loop.registry round.before.env round.response round.decision := by
  induction remaining generalizing index progress w with
  | zero => simp [AgentLoop.roundsFrom]
  | succ remaining ih =>
    obtain ⟨calls, answer, env', hhears⟩ := loop.hears case start progress w.env
    rw [hhears.roundsFrom remaining index]
    cases hhears with
    | late | unencoded | down | unreadable => simp
    | heard messages response decision env' =>
      dsimp only
      rw [List.forall_mem_cons, List.forall_mem_cons]
      rcases turn_quotes loop decision progress index response (atEnv w env') with
        ⟨turn, w', observation, hturn, happends, hterse⟩ | ⟨exc, w', hturn, hterse⟩
      · rw [hturn]
        have hfirst : (∀ turn', (Except.ok turn : Except PyExc Turn) = .ok turn' →
            turn'.progress.Bounded) ↔
            Terse loop.registry (atEnv w env').env response decision := by
          rw [← hterse, ← and_iff_right (b := Python.Bounded _ _) hbounded,
            ← happends.bounded_iff]
          simp
        rw [hfirst]
        refine and_congr_right fun hnow => ?_
        cases turn with
        | stop outcome progress' => simp
        | next progress' =>
          exact ih (index + 1) (happends.bounded_iff.mpr ⟨hbounded, hterse.mpr hnow⟩) w'
      · rw [hturn]
        simpa using hterse

/-- The iterations end with the progress they started from or with that of one of the rounds. -/
theorem iterate_progress (loop : AgentLoop σ) (case : List (String × PyVal)) (start : ℚ)
    (remaining index : Nat) (progress : Progress) (w : World S σ)
    {answer : AgentOutcome × Progress} {w' : World S σ}
    (hrun : (loop.iterate case start remaining index progress).run w = (.ok answer, w')) :
    answer.2 = progress ∨ ∃ round ∈ loop.roundsFrom case start remaining index progress w,
      ∃ turn, round.ended = .ok turn ∧ turn.progress = answer.2 := by
  induction remaining generalizing index progress w with
  | zero =>
    cases hrun
    exact .inl rfl
  | succ remaining ih =>
    obtain ⟨calls, heard, env', hhears⟩ := loop.hears case start progress w.env
    rw [hhears.iterate remaining index] at hrun
    rw [hhears.roundsFrom remaining index]
    cases hhears with
    | late =>
      cases hrun
      exact .inl rfl
    | unencoded | down | unreadable => cases hrun
    | heard messages response decision env' =>
      obtain ⟨turn, v, hturn, hrun⟩ := run_bind_ok hrun
      dsimp only
      rw [hturn]
      cases turn with
      | stop outcome progress' =>
        cases hrun
        exact .inr ⟨_, List.mem_cons_self, _, rfl, rfl⟩
      | next progress' =>
        rcases ih (index + 1) progress' v hrun with hsame | ⟨round, hround, hended⟩
        · exact .inr ⟨_, List.mem_cons_self, _, rfl, hsame.symm⟩
        · exact .inr ⟨round, List.mem_cons_of_mem _ hround, hended⟩

/-! ## A whole run -/

theorem bounded_init : Progress.init.Bounded := ⟨by simp [Progress.init], by simp [Progress.init]⟩

/-- The trajectory of a run holds the steps of one of its rounds, if it holds any. -/
theorem run_steps (loop : AgentLoop σ) (subjectId : String) (case : List (String × PyVal))
    (w : World S σ) {t : Trajectory} {w' : World S σ}
    (hrun : (loop.run subjectId case).run w = (.ok t, w')) :
    t.steps = [] ∨ ∃ round ∈ loop.rounds case w,
      ∃ turn, round.ended = .ok turn ∧ turn.progress.steps = t.steps := by
  obtain ⟨answer, v, hiterate, hend⟩ := run_returned hrun
  cases hend
  rcases iterate_progress loop case _ _ _ _ _ hiterate with hsame | ⟨round, hround, turn, hended, hlast⟩
  · refine .inl ?_
    show answer.2.steps = []
    rw [hsame]
    rfl
  · exact .inr ⟨round, hround, turn, hended, by rw [hlast]⟩

/-- **What the LLM is told is bounded exactly when what is quoted is short.** For every LLM, tools,
executor and case: every observation of a run is bounded, in the history, the steps and the
trajectory, if and only if in each round the texts that bypass `bound_observation` have at most
501 characters. -/
theorem observations_bounded_iff (loop : AgentLoop σ) (subjectId : String)
    (case : List (String × PyVal)) (w : World S σ) :
    loop.FeedsBounded subjectId case w ↔
    ∀ round ∈ loop.rounds case w,
      Terse loop.registry round.before.env round.response round.decision := by
  have hrounds := roundsFrom_bounded_iff loop case (loop.clock (loop.now w.env).2).1
    loop.maxIterations.toNat 1 bounded_init (atEnv w (loop.clock (loop.now w.env).2).2)
  refine ⟨fun h => hrounds.mp h.rounds, fun h => ⟨hrounds.mpr h, fun t w' hrun step hstep => ?_⟩⟩
  rcases run_steps loop subjectId case w hrun with hnone | ⟨round, hround, turn, hended, hlast⟩
  · rw [hnone] at hstep
    cases hstep
  · exact (hrounds.mpr h round hround turn hended).steps step (hlast ▸ hstep)

/-- An LLM that asks for a tool by this name, where there is none. -/
def Sample.babbling (name : String) : AgentLoop Unit :=
  { Sample.lookup with
    llm := fun _ env => (.ok ⟨"", .ok (.obj [("thought", .str "guess"), ("action",
      .obj [("tool", .str name), ("args", .obj [])])]), 100, 20, 5, false⟩, env)
    registry := .empty }

/-- The name comes back to the LLM at full length. -/
theorem babbling_quotes {name : String}
    (h : (Sample.babbling name).FeedsBounded "pay_1" [] Sample.start) : name.length ≤ 501 := by
  obtain ⟨messages, hmessages⟩ :
      ∃ messages, (Sample.babbling name).messages [] Progress.init.history = .ok messages :=
    messages_ok _ (by simp) (by simp [Progress.init])
  have hheard : (Sample.babbling name).Hears [] 0 .init () _ _ () :=
    .heard messages _ _ () (show ¬ ((30 : ℚ) < 0 - 0) by decide +kernel) hmessages rfl rfl
  have hrounds : (Sample.babbling name).rounds [] Sample.start = _ :=
    AgentLoop.Hears.roundsFrom (w := Sample.start) 4 1 hheard
  dsimp only at hrounds
  have hbounded := h.rounds _ (hrounds ▸ List.mem_cons_self) _ rfl
  have hobservation := hbounded.steps _ List.mem_cons_self
  exact (bounded_error (by decide) (by decide) (by decide)).mp hobservation

/-- A name of 502 characters does. -/
theorem unknown_name_unbounded :
    ¬ (Sample.babbling (String.ofList (List.replicate 502 'a'))).FeedsBounded "pay_1" []
      Sample.start := by
  intro h
  have hshort := babbling_quotes h
  rw [String.length_ofList, List.length_replicate] at hshort
  omega

end PaymentRecovery.Agent

import PaymentRecovery.Agent.Returns

/-!
# The actions a run presents

Only an effect tool whose arguments are in order leads to the executor, and the
action presented is the one the tool just built. The journal of the guard layer
shows exactly the presented actions of the run's calls.
-/

namespace PaymentRecovery.Agent

open PaymentRecovery.Python PaymentRecovery.Lib PaymentRecovery.Guardrails Program

variable {S σ : Type}

/-- The actions the journal shows as presented to an executor. -/
def presented (w : World S σ) : List Action :=
  w.journal.filterMap fun
    | .called _ action => some action
    | .invoked _ => none

/-! ## One call of the executor -/

section Execute

/-- Nothing more is presented. -/
def PresentsNothing (w w' : World S σ) : Prop := presented w' = presented w

instance : Std.Refl (PresentsNothing (S := S) (σ := σ)) := ⟨fun _ => rfl⟩

instance : IsTrans (World S σ) PresentsNothing := ⟨fun _ _ _ h h' => h'.trans h⟩

variable [GuardStore S] {ex : GuardedExecutor σ}

theorem finish_presentsNothing (action : Action) (status : ExecutionStatus) (result : PyVal)
    (approvalId : Option ApprovalId) (detail : String) :
    Moves (PresentsNothing (S := S)) (ex.finish action status result approvalId detail) :=
  .bind (.write fun _ => rfl) fun _ => .pure _

theorem approvalGate_presentsNothing (action : Action) :
    Moves (PresentsNothing (S := S)) (ex.approvalGate action) := by
  unfold GuardedExecutor.approvalGate
  split
  · refine .bind (.read _) fun existing => ?_
    cases existing with
    | some approval =>
      refine .bind (.pure approval) fun approval => ?_
      dsimp only
      split
      · exact .pure _
      · exact .bind (finish_presentsNothing _ _ _ _ _) fun _ => .pure _
    | none =>
      refine .bind (.orRaise _) fun paramsJson => .bind (fun _ => rfl) fun approval => ?_
      dsimp only
      split
      · exact .pure _
      · exact .bind (finish_presentsNothing _ _ _ _ _) fun _ => .pure _
  · exact .pure _

variable (ex) in
theorem invoke_presentsNothing (handler : EffectHandler σ) (action : Action) :
    Moves (PresentsNothing (S := S)) (ex.invoke handler action) := by
  refine .attempt fun w => ?_
  show List.filterMap _ (w.journal ++ [_]) = presented w
  rw [List.filterMap_append]
  exact List.append_nil _

theorem perform_presentsNothing (handler : EffectHandler σ) (action : Action) :
    Moves (PresentsNothing (S := S)) (ex.perform handler action) := by
  unfold GuardedExecutor.perform
  refine .bind ?_ fun result => .bind (.orRaise _) fun _ => .bind (.write fun _ => rfl) fun _ =>
    .bind (.write fun _ => rfl) fun _ => finish_presentsNothing _ _ _ _ _
  intro w
  rw [run_tryCatch]
  have hinvoke := invoke_presentsNothing (S := S) ex handler action w
  split
  · rename_i value w' hrun
    rw [hrun] at hinvoke
    exact hinvoke
  · rename_i exc w' hrun
    rw [hrun] at hinvoke
    have hraised : Moves (PresentsNothing (S := S)) (do
        ex.audit action "error" exc.repr
        throw exc : Program (World S σ) PyExc PyVal) := .bind (.write fun _ => rfl) fun _ => .throw exc
    exact IsTrans.trans _ _ _ hinvoke (hraised w')

theorem spend_presentsNothing (handler : EffectHandler σ) (action : Action) :
    Moves (PresentsNothing (S := S)) (ex.spend handler action) := by
  unfold GuardedExecutor.spend
  refine .bind (.read _) fun used => ?_
  split
  · exact finish_presentsNothing _ _ _ _ _
  · refine .bind (.read _) fun spent => ?_
    split
    · exact .bind (.write fun _ => rfl) fun _ => finish_presentsNothing _ _ _ _ _
    · exact perform_presentsNothing handler action

variable (ex) in
/-- A call of the executor presents its action, once. -/
theorem execute_presented (action : Action) (w : World S σ) :
    presented ((ex.execute action).run w).2 = presented w ++ [action] := by
  unfold GuardedExecutor.execute
  rw [run_bind, run_step]
  dsimp only
  have hcalled : presented { w with journal := w.journal ++ [.called ex.runId action] } =
      presented w ++ [action] := by
    unfold presented
    rw [List.filterMap_append]
    rfl
  rw [← hcalled]
  -- what follows presents nothing more
  split
  · exact finish_presentsNothing _ _ _ _ _ _
  · refine (Moves.bind (R := PresentsNothing) (.read _) fun existing => ?_) _
    cases existing with
    | some existing => exact .bind (.orRaise _) fun _ => finish_presentsNothing _ _ _ _ _
    | none =>
      dsimp only
      split
      · exact .throw _
      · rename_i handler _
        refine .bind (approvalGate_presentsNothing action) fun held => ?_
        cases held with
        | some result => exact .pure _
        | none => exact spend_presentsNothing handler action

end Execute

/-! ## Arguments in order -/

section Arguments

/-- The values a parameter of a type takes. A bool is no number. -/
inductive HasType : ToolParamType → PyVal → Prop where
  | int (i : Int) : HasType .number (.int i)
  | float (x : ℚ) : HasType .number (.float x)
  | string (s : String) : HasType .string (.str s)
  | bool (b : Bool) : HasType .bool (.bool b)

/-- No argument is extra, missing or mistyped. -/
structure Conforms (spec : ToolSpec σ) (raw : List (PyKey × PyVal)) : Prop where
  noExtra : ∀ item ∈ raw, ∃ param ∈ spec.params, item.1 = .str param.1
  noMissing : ∀ param ∈ spec.params, param.2.required = true → itemGet? raw param.1 ≠ none
  typed : ∀ param ∈ spec.params, ∀ value, itemGet? raw param.1 = some value →
    HasType param.2.type value

theorem checkScalar_typed {value checked : PyVal} {paramType : ToolParamType} {name : String}
    (h : checkScalar value paramType name = .ok checked) : HasType paramType value := by
  unfold checkScalar at h
  split at h
  · exact .int _
  · exact .float _
  · cases h
  · exact .string _
  · cases h
  · exact .bool _
  · cases h

theorem checkParams_conforms {items : List (PyKey × PyVal)} {params : List (String × ToolParam)}
    {args : Args} (h : checkParams items params = .ok args) :
    ∀ param ∈ params, (param.2.required = true → itemGet? items param.1 ≠ none) ∧
      ∀ value, itemGet? items param.1 = some value → HasType param.2.type value := by
  induction params generalizing args with
  | nil => simp
  | cons first rest ih =>
    unfold checkParams at h
    cases hget : itemGet? items first.1 with
    | none =>
      rw [hget] at h
      dsimp only at h
      split at h
      · cases h
      · rename_i hrequired
        refine List.forall_mem_cons.mpr ⟨⟨fun h => absurd h hrequired, ?_⟩, ih h⟩
        rw [hget]
        simp
    | some value =>
      rw [hget] at h
      simp only [Bind.bind, Except.bind] at h
      cases hchecked : checkScalar value first.2.type first.1 with
      | error exc =>
        rw [hchecked] at h
        cases h
      | ok checked =>
        rw [hchecked] at h
        dsimp only at h
        cases hrest : checkParams items rest with
        | error exc =>
          rw [hrest] at h
          cases h
        | ok others =>
          refine List.forall_mem_cons.mpr ⟨⟨fun _ => by rw [hget]; simp, ?_⟩, ih hrest⟩
          rw [hget]
          intro value' heq
          injection heq with heq
          exact heq ▸ checkScalar_typed hchecked

/-- Only arguments in order pass the validation. -/
theorem validateArgs_conforms {spec : ToolSpec σ} {raw : List (PyKey × PyVal)} {args : Args}
    (h : validateArgs spec (.dict raw) = .ok args) : Conforms spec raw := by
  unfold validateArgs at h
  dsimp only at h
  split at h
  · rename_i hextra
    have hparams := checkParams_conforms h
    refine ⟨fun item hitem => ?_, fun param hparam => (hparams param hparam).1,
      fun param hparam => (hparams param hparam).2⟩
    have hknown := List.filter_eq_nil_iff.mp hextra item.1 (List.mem_map_of_mem hitem)
    simp only [decide_eq_true_eq, not_not, List.mem_map] at hknown
    obtain ⟨param, hparam, hname⟩ := hknown
    exact ⟨param, hparam, hname.symm⟩
  · cases h

end Arguments

/-! ## The loop -/

section Loop

variable [GuardStore S] {loop : AgentLoop σ}

/-- The actions among the calls. -/
def presentations (calls : List (LoopCall σ)) : List Action := calls.filterMap LoopCall.presented?

variable (loop) in
/-- A turn presents what its calls say. -/
theorem turn_presented (decision : Option Decision) (progress : Progress) (index : Nat)
    (response : LLMResponse) (w : World S σ) :
    presented ((loop.turn decision progress index response).run w).2 =
      presented w ++ presentations (loop.turnCalls decision w) := by
  obtain ⟨calls, answer, w', htakes⟩ := loop.takes decision progress index response w
  rw [htakes.turn, htakes.turnCalls]
  cases htakes with
  | executed thought name raw spec args build action _ _ _ _ _ _ hexecute
  | raised thought name raw spec args build action _ _ _ _ _ _ hexecute =>
    have hpresented := execute_presented loop.executor action (atEnv w (build args w.env).2)
    rw [hexecute] at hpresented
    exact hpresented
  | _ => exact (List.append_nil _).symm

/-- A turn whose call names no tool, or has arguments that are not in order, presents nothing. -/
theorem turn_presents_nothing {thought name : String} {raw : List (PyKey × PyVal)}
    (h : ∀ spec, loop.registry.get? name = some spec → ¬ Conforms spec raw) (progress : Progress)
    (index : Nat) (response : LLMResponse) (w : World S σ) :
    PresentsNothing w
      ((loop.turn (some (.call thought name raw)) progress index response).run w).2 := by
  unfold PresentsNothing
  rw [turn_presented]
  have hnone : loop.turnCalls (some (.call thought name raw)) w = [] := by
    obtain ⟨calls, answer, w', htakes⟩ :=
      loop.takes (some (.call thought name raw)) progress index response w
    rw [htakes.turnCalls]
    cases htakes with
    | unknownTool | invalidArgs => rfl
    | read _ _ _ spec _ _ _ hspec hargs | unread _ _ _ spec _ _ _ hspec hargs
    | unbuilt _ _ _ spec _ _ _ hspec hargs | executed _ _ _ spec _ _ _ _ _ hspec hargs
    | raised _ _ _ spec _ _ _ _ _ hspec hargs =>
      exact absurd (validateArgs_conforms hargs) (h spec hspec)
  rw [hnone]
  exact List.append_nil _

variable (loop) in
/-- The iterations, by induction on how many are left. -/
theorem iterate_presented (case : List (String × PyVal)) (start : ℚ) (remaining index : Nat)
    (progress : Progress) (w : World S σ) :
    presented ((loop.iterate case start remaining index progress).run w).2 =
      presented w ++ presentations (loop.callsFrom case start remaining index progress w) := by
  induction remaining generalizing index progress w with
  | zero => exact (List.append_nil _).symm
  | succ remaining ih =>
    obtain ⟨calls, answer, env', hhears⟩ := loop.hears case start progress w.env
    rw [hhears.iterate remaining index, hhears.callsFrom remaining index]
    cases hhears with
    | late | unencoded | down | unreadable => exact (List.append_nil _).symm
    | heard messages response decision env' =>
      have hturn := turn_presented loop decision progress index response (atEnv w env')
      dsimp only
      rw [run_bind]
      unfold presentations at hturn ⊢
      rw [List.filterMap_append, List.filterMap_append]
      cases hrun : (loop.turn decision progress index response).run (atEnv w env') with
      | mk answer w' =>
        rw [hrun] at hturn
        cases answer with
        | error exc => exact hturn.trans (congrArg (presented w ++ ·) (List.append_nil _).symm)
        | ok turn =>
          cases turn with
          | stop outcome progress' =>
            exact hturn.trans (congrArg (presented w ++ ·) (List.append_nil _).symm)
          | next progress' =>
            refine (ih (index + 1) progress' w').trans ?_
            rw [hturn, List.append_assoc]
            rfl

/-- A run presents the actions of its calls, in their order. -/
theorem run_presented (loop : AgentLoop σ) (subjectId : String) (case : List (String × PyVal))
    (w : World S σ) : presented ((loop.run subjectId case).run w).2 =
      presented w ++ presentations (loop.calls case w) := by
  have hiterate := iterate_presented loop case (loop.startTime w.env) loop.maxIterations.toNat 1
    .init (atEnv w (loop.clock (loop.now w.env).2).2)
  have hcalls : loop.calls case w = loop.callsFrom case (loop.startTime w.env)
      loop.maxIterations.toNat 1 .init (atEnv w (loop.clock (loop.now w.env).2).2) := rfl
  rw [hcalls, run_iterates, run_bind]
  split
  · rename_i answer w' heq
    rw [heq] at hiterate
    exact hiterate
  · rename_i exc w' heq
    rw [heq] at hiterate
    exact hiterate

/-- A presented action was built by an effect tool, from arguments in order, in the environment
noted with it. -/
structure BuiltBy (loop : AgentLoop σ) (name : String) (raw : List (PyKey × PyVal)) (env : σ)
    (action : Action) : Prop where
  built : ∃ spec args build, loop.registry.get? name = some spec ∧
    validateArgs spec (.dict raw) = .ok args ∧ spec.body = .effect build ∧
    (build args env).1 = .ok action

theorem turnCalls_built {decision : Option Decision} {w : World S σ} {env : σ} {action : Action}
    {answer : Except PyExc ExecutionResult}
    (h : .execute env action answer ∈ loop.turnCalls decision w) :
    ∃ thought name raw, decision = some (.call thought name raw) ∧
      BuiltBy loop name raw env action := by
  unfold AgentLoop.turnCalls at h
  rcases decision with _ | ⟨thought, resolution⟩ | ⟨thought, name, raw⟩
  · cases h
  · cases h
  · refine ⟨thought, name, raw, rfl, ?_⟩
    dsimp only at h
    cases hspec : loop.registry.get? name with
    | none =>
      rw [hspec] at h
      cases h
    | some spec =>
      rw [hspec] at h
      dsimp only at h
      cases hargs : validateArgs spec (.dict raw) with
      | error exc =>
        rw [hargs] at h
        cases h
      | ok args =>
        rw [hargs] at h
        dsimp only at h
        cases hbody : spec.body with
        | read handler =>
          rw [hbody] at h
          simp at h
        | effect build =>
          rw [hbody] at h
          dsimp only at h
          cases hbuilt : build args w.env with
          | mk built env' =>
            rw [hbuilt] at h
            cases built with
            | error exc => simp at h
            | ok action' =>
              simp only [List.mem_cons, reduceCtorEq, List.not_mem_nil, or_false, false_or,
                LoopCall.execute.injEq] at h
              obtain ⟨rfl, rfl, _⟩ := h
              exact ⟨spec, args, build, hspec, hargs, hbody, by rw [hbuilt]⟩

/-- And so in every iteration. -/
theorem callsFrom_built {case : List (String × PyVal)} {start : ℚ} {remaining index : Nat}
    {progress : Progress} {w : World S σ} {env : σ} {action : Action}
    {answer : Except PyExc ExecutionResult}
    (h : .execute env action answer ∈ loop.callsFrom case start remaining index progress w) :
    ∃ name raw, BuiltBy loop name raw env action := by
  induction remaining generalizing index progress w with
  | zero => cases h
  | succ remaining ih =>
    obtain ⟨calls, answer, env', hhears⟩ := loop.hears case start progress w.env
    rw [hhears.callsFrom remaining index] at h
    cases hhears with
    | late | unencoded | down | unreadable => simp at h
    | heard messages response decision env' =>
      simp only [List.cons_append, List.nil_append, List.mem_cons, reduceCtorEq, false_or,
        List.mem_append] at h
      rcases h with h | h
      · obtain ⟨thought, name, raw, _, hbuilt⟩ := turnCalls_built h
        exact ⟨name, raw, hbuilt⟩
      · split at h
        · exact ih h
        · cases h

theorem calls_built {case : List (String × PyVal)} {w : World S σ} {env : σ} {action : Action}
    {answer : Except PyExc ExecutionResult}
    (h : .execute env action answer ∈ loop.calls case w) :
    ∃ name raw, BuiltBy loop name raw env action :=
  callsFrom_built h

/-- The action is presented in a run, with the environment it was built in. -/
def AgentLoop.Presents (loop : AgentLoop σ) (case : List (String × PyVal)) (w : World S σ) (env : σ)
    (action : Action) : Prop :=
  ∃ answer, .execute env action answer ∈ loop.calls case w

theorem presents_of_mem {case : List (String × PyVal)} {w : World S σ} {action : Action}
    (h : action ∈ presentations (loop.calls case w)) : ∃ env, loop.Presents case w env action := by
  obtain ⟨call, hcall, heq⟩ := List.mem_filterMap.mp h
  cases call with
  | execute env action' answer =>
    injection heq with heq
    exact ⟨env, answer, heq ▸ hcall⟩
  | _ => cases heq

end Loop

end PaymentRecovery.Agent

import PaymentRecovery.Guardrails.Replay
import PaymentRecovery.Recovery.Aside
import PaymentRecovery.Recovery.StubRuns
import PaymentRecovery.Recovery.Trajectories

/-!
# What an event asks the LLM

The rule path calls no LLM. The agent calls it once for each step of the trajectory it returns,
and that trajectory is stored as it was.
-/

namespace PaymentRecovery.Recovery

open PaymentRecovery.Python PaymentRecovery.Guardrails PaymentRecovery.Providers
open PaymentRecovery.Agent PaymentRecovery.Lib PaymentRecovery.Lib.Table PaymentRecovery.Rules
open Program RecoveryPipeline

variable {S τ : Type}

/-! ## The loop alone calls the LLM -/

/-- Of all calls, those of the LLM. -/
def onlyLlm (call : OuterCall) : Bool := call = .llm

theorem llmCalls_of_same {a b : Env τ} (h : SamePart (fun _ => ()) onlyLlm a b) :
    llmCalls b = llmCalls a := by
  have hcount : ∀ env : Env τ, llmCalls env = (env.calls.filter onlyLlm).length := by
    intro env
    unfold llmCalls
    rw [List.count_eq_length_filter]
    rfl
  rw [hcount, hcount, h.calls]

/-- A provider's calls are none of the LLM's. -/
theorem foreign_llm (provider : PaymentProvider τ) :
    Foreign (fun _ => ()) onlyLlm provider where
  unseen := by simp [onlyLlm]
  getPayment _ _ := rfl
  getOrder _ _ := rfl
  getCustomerHistory _ _ := rfl
  createPaymentLink _ _ _ := rfl
  refundPayment _ _ _ _ := rfl

section Case

variable {p : RecoveryPipeline τ} {case : RecoveryCase} {provider : PaymentProvider τ}

theorem tools_llmCalls {spec : ToolSpec (Env τ)} (hmem : spec ∈ tools case provider) :
    (∀ handler, spec.body = .read handler → ∀ args env,
      llmCalls (handler args env).2 = llmCalls env) ∧
    (∀ build, spec.body = .effect build → ∀ args env,
      llmCalls (build args env).2 = llmCalls env) := by
  obtain ⟨hread, hbuild⟩ := unnoticed_tools (foreign_llm provider) hmem
  have hrefl : ∀ env : Env τ, SamePart (fun _ => ()) onlyLlm env env := fun _ => ⟨rfl, rfl, rfl⟩
  constructor
  · intro handler hbody args env
    exact llmCalls_of_same (hread handler hbody args env env (hrefl env))
  · intro build hbody args env
    exact llmCalls_of_same (hbuild build hbody args env env (hrefl env))

variable [GuardStore S]

theorem executor_llmCalls (n : Nat) (action : Action) :
    Carries (fun _ : World S (Env τ) => True) (fun v => llmCalls v.env = n)
      ((p.caseExecutor case provider).execute action) := by
  have hkept : Carries (fun v : World S (Env τ) => llmCalls v.env = n)
      (fun v => llmCalls v.env = n) ((p.caseExecutor case provider).execute action) :=
    execute_carries_outside (I := fun env _ => llmCalls env = n) (fun _ _ h => h)
      (fun _ _ h => h) fun handler hhandler env _ _ h =>
        (handler_llmCalls p case provider hhandler env).trans h
  exact Triple.cuts hkept fun _ _ => trivial

variable (p case provider) in
/-- The rule path calls no LLM. -/
theorem runRule_llmCalls (n : Nat) (decision : RoutingDecision) :
    Carries (fun _ : World S (Env τ) => True) (fun v => llmCalls v.env = n)
      (p.runRule case provider decision) :=
  RecoveryPipeline.runRule_keeps
    (fun hspec hbody args => Carries.step fun v h =>
      ⟨trivial, ((tools_llmCalls (mem_tools_of_get? hspec)).2 _ hbody args v.env).trans h⟩)
    (fun _ => executor_llmCalls n _) decision

/-! ## The agent, step for step -/

/-- The loop with an LLM that is out of reach: no turn calls it. -/
def withoutLlm (loop : AgentLoop (Env τ)) : AgentLoop (Env τ) :=
  { loop with llm := fun _ env => (.error ⟨.other "ConnectionError", ""⟩, env) }

theorem withoutLlm_keeps (n : Nat) :
    (withoutLlm (p.caseLoop case provider)).Keeps (fun _ : World S (Env τ) => True)
      (fun v => llmCalls v.env = n) where
  clock := Carries.step fun _ h => ⟨trivial, h⟩
  now := Carries.step fun _ h => ⟨trivial, h⟩
  llm _ := Carries.attempt fun _ h => ⟨trivial, h⟩
  build hspec hbody args := Carries.step fun v h =>
    ⟨trivial, ((tools_llmCalls (mem_tools_of_get? hspec)).2 _ hbody args v.env).trans h⟩
  handler hspec hbody args := Carries.attempt fun v h =>
    ⟨trivial, ((tools_llmCalls (mem_tools_of_get? hspec)).1 _ hbody args v.env).trans h⟩
  execute _ := executor_llmCalls n _

/-- A turn adds a step, and calls no LLM. -/
theorem turn_asked (n : Nat) (decision : Option Decision) (progress : Progress) (index : Nat)
    (response : LLMResponse) :
    Triple (fun _ : World S (Env τ) => True) (fun v => llmCalls v.env = n)
      ((p.caseLoop case provider).turn decision progress index response)
      fun answer v => llmCalls v.env = n ∧ ∀ turn, answer = .ok turn →
        turn.progress.steps.length = progress.steps.length + 1 := by
  intro w hw
  have hkept : Carries (fun _ : World S (Env τ) => True) (fun v => llmCalls v.env = n)
      ((p.caseLoop case provider).turn decision progress index response) :=
    turn_carries (withoutLlm_keeps n) decision progress index response
  refine ⟨(hkept w hw).1, (hkept w hw).2, fun turn hturn => ?_⟩
  rcases turn_answers (p.caseLoop case provider) decision progress index response w with
    ⟨turn', w', hrun, _, ⟨step, hstep, _⟩, _⟩ | ⟨exc, w', hrun, _⟩
  · rw [hrun] at hturn
    injection hturn with hturn
    subst hturn
    rw [hstep]
    simp
  · rw [hrun] at hturn
    cases hturn

variable (p case provider) in
/-- The iterations, by induction on how many are left: calls and steps grow together. -/
theorem iterate_asked (view : List (String × PyVal)) (start : ℚ) (n remaining index : Nat)
    (progress : Progress) :
    Triple (fun _ : World S (Env τ) => True)
      (fun v => llmCalls v.env = n + progress.steps.length)
      ((p.caseLoop case provider).iterate view start remaining index progress)
      fun answer v => ∀ ended, answer = .ok ended →
        llmCalls v.env = n + ended.2.steps.length := by
  induction remaining generalizing index progress with
  | zero =>
    refine Triple.pure fun v hv ended hended => ?_
    injection hended with hended
    rw [← hended]
    exact hv
  | succ remaining ih =>
    unfold AgentLoop.iterate
    refine Triple.bind (Q := fun _ v => llmCalls v.env = n + progress.steps.length)
      (Triple.step fun v hv => ⟨trivial, hv⟩) (fun t => ?_) fun e v _ ended h => by cases h
    split
    · -- out of time: the steps so far
      refine Triple.pure fun v hv ended hended => ?_
      injection hended with hended
      rw [← hended]
      exact hv
    · refine Triple.bind (Q := fun _ v => llmCalls v.env = n + progress.steps.length)
        (Triple.orRaise fun v hv => hv) (fun messages => ?_) fun e v _ ended h => by cases h
      refine Triple.bind (Q := fun _ v => llmCalls v.env = n + (progress.steps.length + 1))
        (Triple.attempt fun v hv => ⟨trivial, ?_⟩) (fun response => ?_)
        fun e v _ ended h => by cases h
      · have hcall := llmCalls_llm (p.llm messages) v.env
        show llmCalls (v.env.ask .llm (p.llm messages)).2 = _
        omega
      · refine Triple.bind (Q := fun _ v => llmCalls v.env = n + (progress.steps.length + 1))
          (Triple.orRaise fun v hv => hv) (fun decision => ?_) fun e v _ ended h => by cases h
        refine Triple.bind (turn_asked _ decision progress index response) (fun turn => ?_)
          fun e v _ ended h => by cases h
        cases turn with
        | stop outcome progress' =>
          refine Triple.pure fun v hv ended hended => ?_
          injection hended with hended
          have hlength := hv.2 _ rfl
          rw [← hended]
          rw [← hlength] at hv
          exact hv.1
        | next progress' =>
          refine Triple.pre (ih (index + 1) progress') fun v hv => ?_
          have hlength := hv.2 _ rfl
          rw [← hlength] at hv
          exact hv.1

/-- A run that returns called the LLM once for each step of its trajectory. -/
theorem run_asked {w w' : World S (Env τ)} {t : Trajectory}
    (hrun : (p.runRecovery case provider).run w = (.ok t, w')) :
    llmCalls w'.env = llmCalls w.env + t.steps.length := by
  rw [p.runRecovery_run] at hrun
  obtain ⟨answer, v, hiterate, hconclude⟩ := run_returned hrun
  have hcalls : llmCalls v.env = llmCalls w.env + answer.2.steps.length := by
    have hasked := iterate_asked (S := S) p case provider (RecoveryPipeline.caseView case)
      ((p.caseLoop case provider).startTime w.env) (llmCalls w.env)
      (p.caseLoop case provider).maxIterations.toNat 1 .init
    have hended := (hasked (atEnv w ((p.caseLoop case provider).clock
      ((p.caseLoop case provider).now w.env).2).2) rfl).2 answer
    rw [hiterate] at hended
    exact hended rfl
  injection hconclude with hanswer hworld
  injection hanswer with hanswer
  rw [← hworld, ← hanswer]
  exact hcalls

/-! ## The database -/

variable (p case provider) in
/-- No part of the loop writes the database. -/
theorem loop_db (db : Database) :
    (p.caseLoop case provider).Keeps (fun v : World S (Env τ) => v.env.db = db)
      (fun v => v.env.db = db) := by
  have houtside : KeepsOutside (fun v : World S (Env τ) => v.env.db = db)
      (fun v => v.env.db = db) := ⟨fun w env hdb _ hw => ⟨hdb.trans hw, hdb.trans hw⟩⟩
  refine houtside.loop fun {action} hbuilt => ?_
  have hkept : Carries (fun v : World S (Env τ) => v.env.db = db) (fun v => v.env.db = db)
      ((p.caseExecutor case provider).execute action) :=
    execute_carries_outside (I := fun (env : Env τ) _ => env.db = db) (fun _ _ h => h)
      (fun _ _ h => h)
      fun handler hhandler env _ _ h => (handler_run hbuilt hhandler env).db.trans h
  exact hkept

end Case

/-- A stored trajectory gets the next number, and is read back as it was. -/
theorem saveTrajectory_stores {t : Trajectory} (hjson : IsJson t.toDict) (v : World S (Env τ)) :
    ∃ row : TrajectoryRow, row.id = v.env.db.trajectories.length + 1 ∧
      (saveTrajectory t).run v = (.ok (v.env.db.trajectories.length + 1),
        { v with env := { v.env with db := { v.env.db with
          trajectories := v.env.db.trajectories ++ [row] } } }) := by
  obtain ⟨text, hdumps, _⟩ := isJson_preserved hjson
  unfold saveTrajectory writeDb
  rw [run_attempt, hdumps]
  exact ⟨_, rfl, rfl⟩

/-! ## Acting on an event -/

section Act

variable [GuardStore S]

/-- The row of an event that was acted on, against what was asked: a rule asks nothing; the agent
asks once a step, and its trajectory is stored under the number the row names. -/
inductive Asked (p : RecoveryPipeline τ) (w v : World S (Env τ)) : LedgerFields → Prop
  | rule (fields : LedgerFields) (hpath : fields.path = .deterministic)
    (htrajectory : fields.trajectoryId = none) (hcalls : llmCalls v.env = llmCalls w.env)
    (hdb : v.env.db = w.env.db) : Asked p w v fields
  | agent (t : Trajectory) (row : TrajectoryRow) (approvalId : Option ApprovalId)
    (hcalls : llmCalls v.env = llmCalls w.env + t.steps.length)
    (hdb : v.env.db = { w.env.db with trajectories := w.env.db.trajectories ++ [row] })
    (hrow : row.id = w.env.db.trajectories.length + 1)
    (hloads : Consecutive w.env.db.trajectories →
      (loadTrajectory row.id).run v = (.ok (some t.loaded), v)) :
    Asked p w v (p.agentFields t row.id approvalId)

omit [GuardStore S] in
/-- What was asked from routing on is what was asked in all. -/
theorem Asked.before {p : RecoveryPipeline τ} {w w₁ v : World S (Env τ)} {fields : LedgerFields}
    (h : Asked p w₁ v fields) (hcalls : llmCalls w₁.env = llmCalls w.env)
    (hdb : w₁.env.db = w.env.db) : Asked p w v fields := by
  cases h with
  | rule _ hpath htrajectory hsame hsameDb =>
    exact .rule fields hpath htrajectory (hsame.trans hcalls) (hsameDb.trans hdb)
  | agent t row approvalId hasked hstored hrow hloads =>
    rw [hcalls] at hasked
    rw [hdb] at hstored hrow hloads
    exact .agent t row approvalId hasked hstored hrow hloads

namespace RecoveryPipeline

variable (p : RecoveryPipeline τ) (case : RecoveryCase) (provider : PaymentProvider τ)

/-- A row the rule path returns names no trajectory. -/
theorem runRule_path (decision : RoutingDecision) :
    Yields (p.runRule case provider decision : Pipe S τ LedgerFields)
      fun fields => fields.path = .deterministic ∧ fields.trajectoryId = none := by
  cases htool : ruleActionToTool (decision.action.getD "") with
  | none =>
    unfold runRule
    rw [htool]
    exact .pure ⟨rfl, rfl⟩
  | some toolName =>
    obtain ⟨spec, build, hspec, hbody, _⟩ := rule_tool case provider htool
    rw [runRule_eq htool hspec hbody]
    unfold executeRule
    refine .bind (R := fun _ => True) (fun _ _ _ _ => trivial) fun built _ => ?_
    cases built with
    | error exc => exact .pure ⟨rfl, rfl⟩
    | ok action =>
      exact .bind (R := fun _ => True) (fun _ _ _ _ => trivial) fun _ _ => .pure ⟨rfl, rfl⟩

theorem runAgent_asked {w v : World S (Env τ)} {fields : LedgerFields}
    (hrun : (p.runAgent case provider).run w = (.ok fields, v)) : Asked p w v fields := by
  unfold runAgent at hrun
  obtain ⟨t, w₁, hloop, hrest⟩ := run_bind_ok hrun
  have hcalls := run_asked hloop
  have hdb : w₁.env.db = w.env.db := by
    have hkept := runRecovery_keeps (loop_db (S := S) p case provider w.env.db)
    have hend := hkept.run (w := w) rfl
    rw [hloop] at hend
    exact hend
  have hjson : IsJson t.toDict := by
    rw [p.runRecovery_run] at hloop
    exact Trajectory.isJson_toDict (run_json _ _ _ w t w₁ hloop)
  obtain ⟨row, hrow, hsave⟩ := saveTrajectory_stores hjson w₁
  have hloads := load_save (S := S) (v := w₁) hjson
  rw [hdb] at hrow hsave hloads
  rw [run_bind, hsave] at hrest
  rw [hsave] at hloads
  -- whether or not an approval is waiting, only the fields differ
  have hends : ∃ approvalId, fields = p.agentFields t row.id approvalId ∧
      v = { w₁ with env := { w₁.env with db := { w.env.db with
        trajectories := w.env.db.trajectories ++ [row] } } } := by
    dsimp only at hrest
    split at hrest
    · injection hrest with hfields hv
      injection hfields with hfields
      rw [hrow]
      exact ⟨_, hfields.symm, hv.symm⟩
    · injection hrest with hfields hv
      injection hfields with hfields
      rw [hrow]
      exact ⟨_, hfields.symm, hv.symm⟩
  obtain ⟨approvalId, rfl, rfl⟩ := hends
  refine .agent t row approvalId hcalls rfl hrow fun hnumbered => ?_
  obtain ⟨rowId, v', hstored, hload⟩ := hloads hnumbered
  injection hstored with hid hv'
  injection hid with hid
  rw [hrow, hid, hv']
  exact hload

omit [GuardStore S] in
/-- Up to routing neither the LLM is called nor the database written. -/
theorem prepare_asked (event : NormalisedEvent) (w : World S (Env τ)) :
    llmCalls ((p.prepare event).run w).2.env = llmCalls w.env ∧
    ((p.prepare event).run w).2.env.db = w.env.db := by
  constructor
  · have hnoLlm : ∀ name : String, OuterCall.provider name ≠ .llm := fun name => by simp
    have hkept : Carries (fun _ : World S (Env τ) => True)
        (fun v => llmCalls v.env = llmCalls w.env) (p.prepare event) := by
      refine prepare_carries (fun _ _ => trivial) (fun provider _ => ⟨fun id => ?_, fun id => ?_⟩)
        (Carries.step fun _ h => ⟨trivial, h⟩)
      · exact Carries.attempt fun v h => ⟨trivial, (llmCalls_ask (hnoLlm _) _ v.env).trans h⟩
      · exact Carries.step fun v h => ⟨trivial, (llmCalls_ask (hnoLlm _) _ v.env).trans h⟩
    exact hkept.run rfl
  · have houtside : KeepsOutside (fun v : World S (Env τ) => v.env.db = w.env.db)
        (fun v => v.env.db = w.env.db) := ⟨fun v env hdb _ hv => ⟨hdb.trans hv, hdb.trans hv⟩⟩
    exact (houtside.prepare p event).run rfl

/-- Acting on an event that returned its row. -/
theorem acted_asked {event : NormalisedEvent} {w : World S (Env τ)} {fields : LedgerFields}
    (h : (p.acted event w).1 = .ok fields) : Asked p w (p.acted event w).2 fields := by
  have hprepared := p.prepare_asked event (p.started w)
  cases hacted : p.acted event w with
  | mk answer v =>
    rw [hacted] at h
    dsimp only at h
    subst h
    unfold acted routeAndAct at hacted
    obtain ⟨⟨case, provider, decision⟩, w₁, hprepare, hact⟩ := run_bind_ok hacted
    rw [hprepare] at hprepared
    refine Asked.before ?_ hprepared.1 hprepared.2
    dsimp only at hact ⊢
    unfold act at hact
    split at hact
    · obtain ⟨hpath, htrajectory⟩ := p.runRule_path case provider decision w₁ fields v hact
      have hloop := loop_db (S := S) p case provider w₁.env.db
      have hcalls := (runRule_llmCalls p case provider (llmCalls w₁.env) decision).run
        (w := w₁) rfl
      have hdb := (runRule_keeps hloop.build hloop.execute decision).run (w := w₁) rfl
      rw [hact] at hcalls hdb
      exact .rule fields hpath htrajectory hcalls hdb
    · exact p.runAgent_asked case provider hact

end RecoveryPipeline

end Act

/-! ## What is stored stays -/

/-- The trajectories have their numbers, and those of `rows` are the first. -/
def TrajectoriesFrom (rows : List TrajectoryRow) (v : World S (Env τ)) : Prop :=
  Consecutive v.env.db.trajectories ∧ rows <+: v.env.db.trajectories

/-- The audit of each run begins with its `entries`. -/
def AuditFrom [GuardStore S] (entries : String → List AuditEntry) (v : World S (Env τ)) : Prop :=
  ∀ run, entries run <+: GuardStore.readAudit v.store run

theorem saveTrajectory_carries (rows : List TrajectoryRow) (t : Trajectory) :
    Carries (TrajectoriesFrom rows) (TrajectoriesFrom rows) (saveTrajectory t : Pipe S τ Nat) := by
  refine Carries.attempt fun v hv => ?_
  dsimp only
  split
  · exact ⟨hv, hv⟩
  · have hadded : ∀ row : TrajectoryRow, row.id = v.env.db.trajectories.length + 1 →
        Consecutive (v.env.db.trajectories ++ [row]) ∧ rows <+: v.env.db.trajectories ++ [row] :=
      fun row hid => ⟨hv.1.append hid, hv.2.trans (List.prefix_append _ _)⟩
    exact ⟨hadded _ rfl, hadded _ rfl⟩

section Stays

variable [GuardStore S] (p : RecoveryPipeline τ)

/-- Trajectories are only ever added, under the next number. -/
theorem process_trajectories (rows : List TrajectoryRow) (id : Nat) :
    Carries (TrajectoriesFrom (S := S) rows) (TrajectoriesFrom rows) (p.process id) := by
  have houtside : KeepsOutside (TrajectoriesFrom (S := S) (τ := τ) rows)
      (TrajectoriesFrom rows) := by
    refine ⟨fun v env hdb _ hv => ?_⟩
    unfold TrajectoriesFrom at *
    rw [← hdb] at hv
    exact ⟨hv, hv⟩
  refine process_carries_of p (fun _ h => h) (houtside.onEnv (quiet_tick _)) (fun event => ?_)
    (fun _ _ => Carries.attempt fun _ h => ⟨h, h⟩) (fun _ _ => Carries.attempt fun _ h => ⟨h, h⟩) id
  refine Carries.bind (houtside.prepare p event) fun ⟨case, provider, decision⟩ => ?_
  refine act_keeps (houtside.loop fun {action} hbuilt => ?_) (fun _ h => h)
    (saveTrajectory_carries rows) decision
  exact execute_carries_outside (I := fun (env : Env τ) _ =>
      Consecutive env.db.trajectories ∧ rows <+: env.db.trajectories) (fun _ _ h => h)
    (fun _ _ h => h) fun handler hhandler env _ _ h => by
      rw [(handler_run hbuilt hhandler env).db]
      exact h

omit [GuardStore S] in
/-- Nor is an entry lost on the way through a call of the executor. -/
theorem audit_prefix_of_cut {σ : Type} {ex : GuardedExecutor σ} {action : Action}
    {s s' : Snapshot} (h : ExecuteCut ex action s s') (run : String) :
    s.state.audit run <+: s'.state.audit run := by
  cases h with
  | ended answer s' hstep => exact hstep.audit_prefix run
  | _ => exact List.prefix_rfl

/-- Audit entries are only ever added. -/
theorem process_audit [LawfulGuardStore S] (entries : String → List AuditEntry) (id : Nat) :
    Carries (AuditFrom (S := S) entries) (AuditFrom entries) (p.process id) := by
  have hread : ∀ v : World S (Env τ),
      AuditFrom entries v ↔ ∀ run, entries run <+: v.snapshot.state.audit run := by
    intro v
    unfold AuditFrom
    simp only [LawfulGuardStore.readAudit_eq]
    exact Iff.rfl
  have hkeeps : p.Keeps (AuditFrom (S := S) entries) (AuditFrom entries) := by
    simp only [funext fun v => propext (hread v)]
    exact .of_snapshot p (C := fun s => ∀ run, entries run <+: s.state.audit run)
      (I := fun s => ∀ run, entries run <+: s.state.audit run) (fun _ h => h)
      (fun _ _ h hcut run => (h run).trans (audit_prefix_of_cut hcut run))
      fun _ _ h hstep run => (h run).trans (hstep.audit_prefix run)
  exact process_carries p hkeeps (fun v db hv => ⟨hv, hv⟩) id

end Stays

end PaymentRecovery.Recovery

import Mathlib.Logic.Function.Basic
import PaymentRecovery.Recovery.Drain
import PaymentRecovery.Recovery.Playground
import PaymentRecovery.Recovery.SeedRules
import PaymentRecovery.Recovery.Webhooks

/-!
# The application

What `create_app` puts together, as a machine: a process boots, serves webhooks and playground
runs, works off its background tasks in any order, and may die anywhere. The database, the guard
store and the raw events outlive it; tasks, runs, the limiter and the demo provider do not.

`step_refines` says that every step is a piece of a history, so what holds of all histories holds
of the application.
-/

namespace PaymentRecovery.Recovery

open PaymentRecovery.Python PaymentRecovery.Guardrails PaymentRecovery.Providers
open PaymentRecovery.Agent PaymentRecovery.Lib PaymentRecovery.Rules Program

variable {S σ τ : Type}

/-! ## What a process is built from -/

/-- The arguments of `create_app`. The adapters check and parse webhooks, the pipeline asks the
same providers over the network. -/
structure Deployment (σ : Type) where
  adapters : Dict String Adapter
  pipeline : RecoveryPipeline σ
  seedRulesOnStartup : Bool
  processPendingOnStartup : Bool
  llmModel : String

/-- The pipeline of the process: its registry has the demo provider as well. -/
def Deployment.live (d : Deployment σ) : RecoveryPipeline (FakeProvider × σ) where
  registry := (d.pipeline.registry.map PaymentProvider.outside).set demoProvider
    (FakeProvider.adapter demoProvider)
  settings := d.pipeline.settings
  llm messages := onSecond (d.pipeline.llm messages)
  prompt := d.pipeline.prompt
  monotonic := onSecond d.pipeline.monotonic
  now := onSecond d.pipeline.now
  isoNow := onSecond d.pipeline.isoNow

/-- `any(repo.list_by_status(status) for status in …)`. -/
def anyListed (schema : Schema) (rows : List RuleRow) : List RuleStatus → Except PyExc Bool
  | [] => .ok false
  | status :: rest => do
    let loaded ← listByStatus schema status rows
    if loaded.isEmpty then anyListed schema rows rest else return true

/-- `_rule_store_is_empty`. -/
def ruleStoreIsEmpty (schema : Schema) (rows : List RuleRow) : Except PyExc Bool := do
  return !(← anyListed schema rows [.shadow, .active, .demoted, .disabled])

/-- One entry of `seed`, which is one transaction. -/
def seedOne (now : String → String) (entry : SeedRule) (db : Database) :
    Except PyExc Int × Database :=
  let added := addRule paymentRuleSchema entry.ruleKey entry.definition .active none entry.priority
    none (now entry.ruleKey) db.rules
  (added.1, { db with rules := added.2 })

/-- `seed`, on the database. -/
def seedAll (now : String → String) : List SeedRule → Pipe S τ Unit
  | [] => return ()
  | entry :: rest => do
    let _ ← writeDb (seedOne now entry)
    seedAll now rest

/-- The seed rules are inserted if — and only if — the rule store is empty. -/
def seedIfEmpty (now : String → String) : Pipe S τ Unit := do
  let empty ← attempt fun w => (ruleStoreIsEmpty paymentRuleSchema w.env.db.rules, w)
  if empty then seedAll now seedRules else return ()

/-- The seed rules, if the settings ask for them. -/
def Deployment.seeds (d : Deployment σ) (now : String → String) :
    Pipe S (FakeProvider × σ) Unit :=
  if d.seedRulesOnStartup then seedIfEmpty now else return ()

section Lifespan

variable [GuardStore S]

/-- The drain, if the settings ask for it. -/
def Deployment.drain (d : Deployment σ) : Pipe S (FakeProvider × σ) Unit :=
  if d.processPendingOnStartup then do
    let _ ← d.live.drainAtStartup
    return ()
  else return ()

/-- `lifespan`, up to its `yield`. -/
def Deployment.lifespan (d : Deployment σ) (now : String → String) :
    Pipe S (FakeProvider × σ) Unit := do
  d.seeds now
  d.drain

end Lifespan

/-- A seeded payment is the demo provider's; but for clock readings nothing else is different. -/
theorem seedDemoPayment_live (d : Deployment σ) (scenario : ScenarioIn)
    (w : World S (Env (FakeProvider × σ))) :
    ∃ seeded o, (seedDemoPayment d.live scenario).run w = (.ok (), { w with env := { w.env with
      outer := (w.env.outer.1.addPayment (demoPayment scenario seeded), o) } }) :=
  ⟨_, _, rfl⟩

/-- A persisted event is stored under the next number. -/
theorem persistDemoEvent_live (d : Deployment σ) (scenario : ScenarioIn) (token : String)
    (w : World S (Env (FakeProvider × σ))) :
    ∃ now o, (persistDemoEvent d.live scenario token).run w =
      (.ok (w.env.db.events.length + 1), { w with env := { w.env with
        db := (w.env.db.persistInternal (demoEvent scenario token now)).2
        outer := (w.env.outer.1, o) } }) :=
  ⟨_, _, rfl⟩

/-- What the next part of a run comes to, and the world it leaves. -/
inductive Goes [GuardStore S] (d : Deployment σ) (run : PlayRun)
    (w : World S (Env (FakeProvider × σ))) :
    Except PyExc (PlayRun ⊕ PlayResult) → World S (Env (FakeProvider × σ)) → Prop
  | seeds (seeded : Time) (o : σ) (hphase : run.phase = .admitted) :
    Goes d run w (.ok (.inl { run with phase := .seeded })) { w with env := { w.env with
      outer := (w.env.outer.1.addPayment (demoPayment run.scenario seeded), o) } }
  | persists (now : Time) (o : σ) (hphase : run.phase = .seeded) :
    Goes d run w (.ok (.inl { run with phase := .persisted (w.env.db.events.length + 1) }))
      { w with env := { w.env with
        db := (w.env.db.persistInternal (demoEvent run.scenario run.token now)).2
        outer := (w.env.outer.1, o) } }
  | counts (id : Nat) (hphase : run.phase = .persisted id) :
    Goes d run w (.ok (.inl { run with
      phase := .counted id (GuardStore.readAudit w.store run.scenario.paymentId).length })) w
  | processes (id auditBefore ledgerId : Nat) (hphase : run.phase = .counted id auditBefore)
    (hanswer : ((processDemoEvent d.live id).run w).1 = .ok ledgerId) :
    Goes d run w (.ok (.inl { run with phase := .processed auditBefore ledgerId }))
      ((d.live.process id).run w).2
  | raises (id auditBefore : Nat) (exc : PyExc) (hphase : run.phase = .counted id auditBefore)
    (hanswer : ((processDemoEvent d.live id).run w).1 = .error exc) :
    Goes d run w (.error exc) ((d.live.process id).run w).2
  | answers (auditBefore ledgerId : Nat) (hphase : run.phase = .processed auditBefore ledgerId) :
    Goes d run w (Sum.inr <$> ((readResult run.scenario.paymentId auditBefore ledgerId
      d.llmModel).run w).1) w

theorem next_goes [GuardStore S] (d : Deployment σ) (run : PlayRun)
    (w : World S (Env (FakeProvider × σ))) :
    Goes d run w ((run.next d.live d.llmModel).run w).1
      ((run.next d.live d.llmModel).run w).2 := by
  unfold PlayRun.next
  cases hphase : run.phase with
  | admitted =>
    obtain ⟨seeded, o, hseeded⟩ := seedDemoPayment_live d run.scenario w
    dsimp only
    rw [run_bind, hseeded]
    exact .seeds seeded o hphase
  | seeded =>
    obtain ⟨now, o, hpersisted⟩ := persistDemoEvent_live d run.scenario run.token w
    dsimp only
    rw [run_bind, hpersisted]
    exact .persists now o hphase
  | persisted id => exact .counts id hphase
  | counted id auditBefore =>
    dsimp only
    have hworld := processDemoEvent_world d.live id w
    rw [run_bind]
    cases hrun : (processDemoEvent d.live id).run w with
    | mk answer w' =>
      rw [hrun] at hworld
      cases answer with
      | error exc =>
        dsimp only at hworld ⊢
        rw [hworld]
        exact .raises id auditBefore exc hphase (by rw [hrun])
      | ok ledgerId =>
        dsimp only at hworld ⊢
        rw [run_pure, hworld]
        exact .processes id auditBefore ledgerId hphase (by rw [hrun])
  | processed auditBefore ledgerId =>
    have hworld := readResult_world run.scenario.paymentId auditBefore ledgerId d.llmModel w
    have hanswers := Goes.answers (d := d) (w := w) auditBefore ledgerId hphase
    dsimp only
    rw [run_bind]
    cases hrun : (readResult run.scenario.paymentId auditBefore ledgerId d.llmModel).run w with
    | mk answer w' =>
      rw [hrun] at hworld hanswers
      dsimp only at hworld
      subst hworld
      cases answer <;> exact hanswers

/-! ## The machine -/

/-- What a process holds in memory: its background tasks, and the playground runs of its
threads. -/
structure Process (σ : Type) where
  deployment : Deployment σ
  scheduled : List Nat
  playing : Nat → Option PlayRun
  limiter : RateLimiter

/-- The process with the run of one thread replaced. -/
def Process.onThread (proc : Process σ) (thread : Nat) (run : Option PlayRun) : Process σ :=
  { proc with playing := Function.update proc.playing thread run }

@[simp] theorem Process.onThread_self (proc : Process σ) (thread : Nat) (run : Option PlayRun) :
    (proc.onThread thread run).playing thread = run := by
  simp [Process.onThread]

theorem Process.onThread_of_ne (proc : Process σ) {thread other : Nat} (h : other ≠ thread)
    (run : Option PlayRun) : (proc.onThread thread run).playing other = proc.playing other := by
  simp [Process.onThread, h]

theorem Process.onThread_onThread (proc : Process σ) (thread : Nat) (run run' : Option PlayRun) :
    (proc.onThread thread run).onThread thread run' = proc.onThread thread run' := by
  simp [Process.onThread]

/-- The durable state, and the process if one is up. -/
structure App (S σ : Type) where
  world : World S (Env (FakeProvider × σ))
  raw : List RawWebhookEvent
  process : Option (Process σ)

/-- Nothing stored yet, and nothing running. -/
def App.fresh (store : S) (outer : σ) (rules : List RuleRow) : App S σ :=
  ⟨World.opened store (FakeProvider.new, outer) rules, [], none⟩

/-- What the application can do next. -/
inductive Step (σ : Type) where
  | boot (d : Deployment σ) (now : String → String) (fate : Fate)
  | crash
  | webhook (rt : Runtime) (answers : InsertAnswers) (providerName : String)
    (request : WebhookRequest) (cut : Bool)
  | task (id : Nat) (fate : Fate)
  | play (thread : Nat) (scenario : ScenarioIn) (now : ℚ) (token : String)
  | advance (thread : Nat) (fate : Fate)
  | changeRules (rows : List RuleRow)
  | outside (f : σ → σ)

def Step.isBoot : Step σ → Bool
  | .boot .. => true
  | _ => false

def Step.changesRules : Step σ → Bool
  | .changeRules _ => true
  | _ => false

/-- What a client is answered. -/
inductive Answer where
  | none
  | webhook (answer : Except PyExc WebhookResponse)
  | play (answer : Except PyExc PlayResult)

/-- The process after a call: there, unless it died in it. -/
def Fate.spares (fate : Fate) (proc : Process σ) : Option (Process σ) :=
  match fate with
  | .lives => some proc
  | .dies _ => none

namespace App

/-- A webhook is received. A process that dies after the raw event has written nothing else. -/
def receive (app : App S σ) (proc : Process σ) (rt : Runtime) (answers : InsertAnswers)
    (providerName : String) (request : WebhookRequest) (cut : Bool) : Answer × App S σ :=
  let received := receiveWebhook rt answers proc.deployment.adapters true providerName request
    ⟨app.raw, app.world.env.db, proc.scheduled⟩
  if cut then (.none, { app with raw := received.2.raw, process := none })
  else (.webhook received.1,
    { world := { app.world with env := { app.world.env with db := received.2.db } }
      raw := received.2.raw
      process := some { proc with scheduled := received.2.scheduled } })

/-- A visitor posts a scenario, and a free thread takes it, if the limit lets it through. -/
def play (app : App S σ) (proc : Process σ) (thread : Nat) (scenario : ScenarioIn) (now : ℚ)
    (token : String) : Answer × App S σ :=
  match proc.playing thread with
  | some _ => (.none, app)
  | none =>
    match proc.limiter.allow now with
    | (false, limiter) =>
      (.play (.error (httpException 429 "playground rate limit; retry shortly")),
        { app with process := some { proc with limiter := limiter } })
    | (true, limiter) =>
      let run : PlayRun := ⟨scenario, token, .admitted⟩
      (.none, { app with
        process := some ({ proc with limiter := limiter }.onThread thread (some run)) })

variable [GuardStore S]

/-- A new process: the limiter and the demo provider are new, and requests are served once the
lifespan handler is through. -/
def boot (app : App S σ) (d : Deployment σ) (now : String → String) (fate : Fate) : App S σ :=
  let opened := { app.world with env := { app.world.env with
    outer := (FakeProvider.new, app.world.env.outer.2) } }
  { app with
    world := fate.leaves (d.lifespan now) opened
    process := match ((d.lifespan now).run opened).1 with
      | .ok () => fate.spares ⟨d, [], fun _ => none, .new 20 60⟩
      | .error _ => none }

/-- A background task runs. -/
def task (app : App S σ) (proc : Process σ) (id : Nat) (fate : Fate) : App S σ :=
  if id ∈ proc.scheduled then
    { app with
      world := fate.leaves (proc.deployment.live.process id) app.world
      process := fate.spares { proc with scheduled := proc.scheduled.erase id } }
  else app

/-- A playground run goes on: its thread keeps it until it is answered. -/
def advance (app : App S σ) (proc : Process σ) (thread : Nat) (fate : Fate) : Answer × App S σ :=
  match proc.playing thread with
  | none => (.none, app)
  | some run =>
    let part := run.next proc.deployment.live proc.deployment.llmModel
    let came : Answer × Option PlayRun := match (part.run app.world).1 with
      | .ok (.inl run) => (.none, some run)
      | .ok (.inr result) => (.play (.ok result), none)
      | .error exc => (.play (.error exc), none)
    (match fate with
      | .lives => came.1
      | .dies _ => .none,
      { app with
        world := fate.leaves part app.world
        process := fate.spares (proc.onThread thread came.2) })

end App

/-- Without a process no request is served. -/
def App.serve (app : App S σ) (f : Process σ → Answer × App S σ) : Answer × App S σ :=
  match app.process with
  | none => (.none, app)
  | some proc => f proc

theorem App.serve_up {app : App S σ} {proc : Process σ} (h : app.process = some proc)
    (f : Process σ → Answer × App S σ) : app.serve f = f proc := by
  unfold serve
  rw [h]

theorem App.serve_elim {P : App S σ → Prop} {app : App S σ} {f : Process σ → Answer × App S σ}
    (h : P app) (hf : ∀ proc, app.process = some proc → P (f proc).2) : P (app.serve f).2 := by
  unfold serve
  cases hproc : app.process with
  | none => exact h
  | some proc => exact hf proc hproc

/-- The state after a step, and what is answered. -/
def Step.run [GuardStore S] (step : Step σ) (app : App S σ) : Answer × App S σ :=
  match step with
  | .boot d now fate => (.none, app.boot d now fate)
  | .crash => (.none, { app with process := none })
  | .webhook rt answers name request cut =>
    app.serve fun proc => app.receive proc rt answers name request cut
  | .task id fate => app.serve fun proc => (.none, app.task proc id fate)
  | .play thread scenario now token =>
    app.serve fun proc => app.play proc thread scenario now token
  | .advance thread fate => app.serve fun proc => app.advance proc thread fate
  | .changeRules rows => (.none, { app with world := ((Op.changeRules rows).run app.world).2 })
  | .outside f =>
    (.none, { app with world := ((Op.outside fun o => (o.1, f o.2)).run app.world).2 })

/-- Only a boot starts a process. -/
theorem Step.run_down [GuardStore S] {step : Step σ} (hstep : step.isBoot = false) {app : App S σ}
    (h : app.process = none) : (step.run app).2.process = none := by
  have hserve : ∀ f, (app.serve f).2.process = none := fun f =>
    App.serve_elim (P := fun a => a.process = none) h fun proc hproc => by
      rw [h] at hproc
      cases hproc
  cases step with
  | boot d now fate => cases hstep
  | crash => rfl
  | changeRules rows => exact h
  | outside f => exact h
  | webhook rt answers name request cut => exact hserve _
  | task id fate => exact hserve _
  | play thread scenario now token => exact hserve _
  | advance thread fate => exact hserve _

/-- The application after a number of steps. -/
def runApp [GuardStore S] (steps : List (Step σ)) (app : App S σ) : App S σ :=
  Run.exec Step.run steps app

/-! ## Its steps are pieces of a history -/

/-- A history leads from one world to the other. -/
def LeadsTo [GuardStore S] (w v : World S (Env τ)) : Prop := ∃ ops, runOps ops w = v

section LeadsTo

variable [GuardStore S] {w v u : World S (Env τ)}

theorem LeadsTo.refl (w : World S (Env τ)) : LeadsTo w w := ⟨[], rfl⟩

theorem LeadsTo.trans (h : LeadsTo w v) (h' : LeadsTo v u) : LeadsTo w u := by
  obtain ⟨ops, rfl⟩ := h
  obtain ⟨ops', rfl⟩ := h'
  exact ⟨ops ++ ops', Run.exec_append Op.run ops ops' w⟩

theorem LeadsTo.step (op : Op τ) (h : LeadsTo w v) : LeadsTo w (op.run v).2 :=
  h.trans ⟨[op], rfl⟩

/-- A program whose every transaction is a piece of a history, is one, wherever it dies. -/
abbrev Historic (w : World S (Env τ)) {α : Type} (program : Pipe S τ α) : Prop :=
  Carries (LeadsTo w) (LeadsTo w) program

/-- What a call may leave is a history, if it is one for every fate. -/
theorem historic_of_fates {α : Type} {program : Pipe S τ α}
    (h : ∀ (fate : Fate) v, ∃ op : Op τ, (op.run v).2 = fate.leaves program v) :
    Historic w program := by
  intro v hv
  refine ⟨fun c hc => ?_, ?_⟩
  · obtain ⟨n, hn⟩ := after_of_mem_cuts hc
    obtain ⟨op, hop⟩ := h (.dies n) v
    have hstep := hv.step op
    rw [hop] at hstep
    exact hn ▸ hstep
  · obtain ⟨op, hop⟩ := h .lives v
    have hstep := hv.step op
    rw [hop] at hstep
    exact hstep

theorem historic_tick {α : Type} (f : τ → α × τ) :
    Historic w (onEnv fun env => env.tick f : Pipe S τ α) :=
  Carries.step fun _ hv =>
    have hticked := hv.step (.outside fun o => (f o).2)
    ⟨hticked, hticked⟩

theorem historic_process (p : RecoveryPipeline τ) (id : Nat) : Historic w (p.process id) :=
  historic_of_fates fun fate _ => ⟨.process p id fate, rfl⟩

theorem historic_seedAll (now : String → String) (entries : List SeedRule) :
    Historic w (seedAll now entries : Pipe S τ Unit) := by
  induction entries with
  | nil => exact .pure _
  | cons entry rest ih =>
    refine Carries.bind (Carries.attempt fun v hv => ?_) fun _ => ih
    have hchanged := hv.step (.changeRules (seedOne now entry v.env.db).2.rules)
    exact ⟨hchanged, hchanged⟩

theorem historic_seedIfEmpty (now : String → String) :
    Historic w (seedIfEmpty now : Pipe S τ Unit) := by
  refine Carries.bind (Carries.attempt fun v hv => ⟨hv, hv⟩) fun empty => ?_
  split
  · exact historic_seedAll now seedRules
  · exact .pure _

end LeadsTo

section Steps

variable [GuardStore S]

theorem historic_lifespan (d : Deployment σ) (now : String → String)
    (w : World S (Env (FakeProvider × σ))) : Historic w (d.lifespan now) := by
  refine Carries.bind ?_ fun _ => ?_
  · unfold Deployment.seeds
    split
    · exact historic_seedIfEmpty now
    · exact .pure _
  · unfold Deployment.drain
    split
    · refine Carries.bind ?_ fun _ => .pure _
      exact historic_of_fates fun fate _ => ⟨.drain d.live startupLimit fate, rfl⟩
    · exact .pure _

theorem historic_next (p : RecoveryPipeline (FakeProvider × σ)) (llmModel : String)
    (run : PlayRun) (w : World S (Env (FakeProvider × σ))) : Historic w (run.next p llmModel) := by
  refine PlayRun.next_carries (fun _ h => h) ?_ ?_ (historic_process p) llmModel
  · exact Carries.bind (historic_tick _) fun now => historic_tick _
  · refine Carries.bind (historic_tick _) fun now => Carries.attempt fun v hv => ?_
    have hdelivered := hv.step (.deliver (demoEvent run.scenario run.token now))
    exact ⟨hdelivered, hdelivered⟩

end Steps

/-- What a request to a running process leaves: nothing but a raw event at most, or one event
more, whose task is scheduled if it is a failed payment. -/
inductive Took (before after : Inbox) : Prop
  | nothing (hdb : after.db = before.db) (hscheduled : after.scheduled = before.scheduled)
  | event (event : NormalisedEvent) (hdb : after.db = (before.db.persistInternal event).2)
    (hfailed : event.eventType = .paymentFailed →
      after.scheduled = before.scheduled ++ [before.db.events.length + 1])
    (hother : event.eventType ≠ .paymentFailed → after.scheduled = before.scheduled)

/-- An insert that succeeds is that of a normalised event. -/
theorem persistInternal_event {answers : InsertAnswers} {event : ParsedEvent} {db : Database}
    {id : Nat} (h : (persistInternal answers event db).1 = .ok id) :
    ∃ row : NormalisedEvent, row.eventType = event.eventType ∧ row.provider = event.provider ∧
      id = db.events.length + 1 ∧
      (persistInternal answers event db).2 = (db.persistInternal row).2 := by
  unfold persistInternal at h ⊢
  dsimp only at h ⊢
  cases heventId : answers.bindText event.eventId with
  | error exc =>
    rw [heventId] at h
    cases h
  | ok eventId =>
    cases hpaymentId : answers.bindText event.paymentId with
    | error exc =>
      rw [heventId, hpaymentId] at h
      cases h
    | ok paymentId =>
      cases hcommit : answers.commit with
      | error exc =>
        rw [heventId, hpaymentId, hcommit] at h
        cases h
      | ok _ =>
        rw [heventId, hpaymentId, hcommit] at h
        injection h with h
        exact ⟨_, rfl, rfl, h.symm, rfl⟩

theorem receiveWebhook_took (rt : Runtime) (answers : InsertAnswers)
    (registry : Dict String Adapter) (providerName : String) (request : WebhookRequest)
    (inbox : Inbox) :
    Took inbox (receiveWebhook rt answers registry true providerName request inbox).2 := by
  unfold receiveWebhook
  split
  · exact .nothing rfl rfl
  · split
    · exact .nothing rfl rfl
    · exact .nothing rfl rfl
    · rename_i adapter _ _
      dsimp only
      unfold normaliseAndSchedule
      split
      · exact .nothing rfl rfl
      · rename_i event _
        generalize hinbox : persistRaw providerName request.body _ "" inbox = stored
        have hdb : stored.db = inbox.db := by rw [← hinbox]; rfl
        have hscheduled : stored.scheduled = inbox.scheduled := by rw [← hinbox]; rfl
        cases hinsert : persistInternal answers event stored.db with
        | mk answer db =>
          have hanswer : (persistInternal answers event stored.db).1 = answer := by rw [hinsert]
          cases answer with
          | error exc =>
            have hsame := persistInternal_error hanswer
            rw [hinsert] at hsame
            exact .nothing (hsame.trans hdb) hscheduled
          | ok id =>
            obtain ⟨row, htype, _, hid, hrow⟩ := persistInternal_event hanswer
            rw [hinsert] at hrow
            dsimp only at hrow ⊢
            rw [hdb] at hrow hid
            by_cases hfailed : event.eventType = .paymentFailed
            · rw [if_pos ⟨rfl, hfailed⟩]
              refine .event row hrow (fun _ => ?_) fun hne => absurd (htype.trans hfailed) hne
              show stored.scheduled ++ [id] = _
              rw [hscheduled, hid]
            · rw [if_neg fun hboth => hfailed hboth.2]
              exact .event row hrow (fun heq => absurd (htype.symm.trans heq) hfailed)
                fun _ => hscheduled

section Refines

variable [GuardStore S]

/-- **One step refines a piece of a history.** -/
theorem step_refines (step : Step σ) (app : App S σ) :
    LeadsTo app.world (step.run app).2.world := by
  have hrefl := LeadsTo.refl app.world
  cases step with
  | boot d now fate =>
    have hopened := hrefl.step (.outside fun o => (FakeProvider.new, o.2))
    exact fate.leaves_of_carries (historic_lifespan d now app.world) hopened
  | crash => exact hrefl
  | changeRules rows => exact hrefl.step (.changeRules rows)
  | outside f => exact hrefl.step (.outside fun o => (o.1, f o.2))
  | webhook rt answers name request cut =>
    refine App.serve_elim (P := fun a => LeadsTo app.world a.world) hrefl fun proc _ => ?_
    have htook := receiveWebhook_took rt answers proc.deployment.adapters name request
      ⟨app.raw, app.world.env.db, proc.scheduled⟩
    unfold App.receive
    cases cut with
    | true => exact hrefl
    | false =>
      cases htook with
      | nothing hdb => exact ⟨[], by simp [runOps, hdb]⟩
      | event event hdb => exact ⟨[.deliver event], by simp [runOps, Op.run, hdb]⟩
  | task id fate =>
    refine App.serve_elim (P := fun a => LeadsTo app.world a.world) hrefl fun proc _ => ?_
    dsimp only
    unfold App.task
    split
    · exact fate.leaves_of_carries (historic_process _ id) hrefl
    · exact hrefl
  | play thread scenario now token =>
    refine App.serve_elim (P := fun a => LeadsTo app.world a.world) hrefl fun proc _ => ?_
    unfold App.play
    split
    · exact hrefl
    · split <;> exact hrefl
  | advance thread fate =>
    refine App.serve_elim (P := fun a => LeadsTo app.world a.world) hrefl fun proc _ => ?_
    unfold App.advance
    split
    · exact hrefl
    · exact fate.leaves_of_carries (historic_next _ _ _ _) hrefl

/-- The application is a history of its world. -/
theorem run_refines (steps : List (Step σ)) (app : App S σ) :
    LeadsTo app.world (runApp steps app).world :=
  Run.exec_inv (P := fun reached : App S σ => LeadsTo app.world reached.world)
    (fun reached step h => h.trans (step_refines step reached)) (LeadsTo.refl app.world)

end Refines

/-! ## A sample deployment -/

namespace Sample

/-- The fake provider's webhooks, and a pipeline whose LLM follows a script. -/
def deployed : Deployment Outside where
  adapters := fakeOnly
  pipeline := pipeline
  seedRulesOnStartup := true
  processPendingOnStartup := true
  llmModel := "scripted"

/-- A card that has expired. -/
def scenario : ScenarioIn where
  paymentId := "pay_demo_7"
  amountInr := 499
  failureReason := .expiredCard
  customerId := none
  payment_demo := by decide
  amount_bounded := by decide
  customer_demo := noCustomer_demo

/-- Nothing is stored yet. -/
def installed (script : List Json) : App SqlGuardStore Outside :=
  App.fresh GuardStore.empty ⟨script, false⟩ []

end Sample

end PaymentRecovery.Recovery

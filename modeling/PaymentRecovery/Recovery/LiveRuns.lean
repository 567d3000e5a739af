import PaymentRecovery.Recovery.Application

/-!
# No failed payment is lost

Between a boot and the next one, every failed payment that is stored and has no ledger row is
accounted for: its task is scheduled, its playground run goes on, or the drain at the boot left it
over its limit. A task that is worked off, and a run that ends, gives its event its row.
-/

namespace PaymentRecovery.Recovery

open PaymentRecovery.Python PaymentRecovery.Guardrails PaymentRecovery.Providers
open PaymentRecovery.Agent PaymentRecovery.Lib PaymentRecovery.Lib.Table Program

variable {S σ τ : Type} [GuardStore S]

/-! ## What a history keeps -/

/-- The events of `w` are still there, but for their marks. -/
def EventsKept (w v : World S (Env τ)) : Prop :=
  w.env.db.events.map InternalEvent.unmarked <+: v.env.db.events.map InternalEvent.unmarked

theorem Op.run_eventsKept (op : Op τ) {w v : World S (Env τ)} (h : EventsKept w v) :
    EventsKept w (op.run v).2 := by
  refine op.run_keeps_all (I := EventsKept w) (fun p id u c hu hwrites => ?_) (fun event u hu => ?_)
    (fun _ _ hu => hu) (fun _ _ hu => hu) h
  · cases hwrites with
    | nothing hsame =>
      show w.env.db.events.map _ <+: c.env.db.events.map _
      rw [hsame.2]
      exact hu
    | duplicate _ _ _ hrec =>
      show w.env.db.events.map _ <+: c.env.db.events.map _
      rw [hrec.events]
      exact hu
    | acted _ _ _ hrec =>
      show w.env.db.events.map _ <+: c.env.db.events.map _
      rw [hrec.events]
      exact hu
  · show w.env.db.events.map _ <+: (u.env.db.events ++ [_]).map _
    rw [List.map_append]
    exact hu.trans (List.prefix_append _ _)

namespace LeadsTo

variable {w v : World S (Env τ)}

theorem numbered (h : LeadsTo w v) (hw : Numbered w) : Numbered v := by
  obtain ⟨ops, rfl⟩ := h
  exact hw.runOps ops

theorem grown (h : LeadsTo w v) {rows : List LedgerEntry} (hw : Grown rows w) : Grown rows v := by
  obtain ⟨ops, rfl⟩ := h
  exact runOps_grown rows ops hw

theorem eventsKept (h : LeadsTo w v) : EventsKept w v := by
  obtain ⟨ops, rfl⟩ := h
  exact Run.exec_inv (P := EventsKept w) (fun _ op hu => op.run_eventsKept hu) List.prefix_rfl

end LeadsTo

/-! ## The backlog -/

/-- An event that is no failed payment does not wait. -/
theorem backlog_other {db : Database} {event : NormalisedEvent}
    (hother : event.eventType ≠ .paymentFailed) :
    backlog (db.persistInternal event).2 = backlog db := by
  have htype : event.eventType.value ≠ EventType.paymentFailed.value := by
    intro hsame
    have hof := EventType.ofValue_value event.eventType
    rw [hsame, EventType.ofValue_value] at hof
    injection hof with hof
    exact hother hof.symm
  show ((db.events ++ [InternalEvent.ofNormalised _ event]).filter _).map _ = _
  rw [List.filter_append, List.filter_cons_of_neg, List.filter_nil, List.append_nil]
  · rfl
  · intro h
    exact htype (of_decide_eq_true h).2

/-- A call leaves an event of the backlog there unless it is its own. -/
theorem backlog_process (p : RecoveryPipeline τ) (id : Nat) {w : World S (Env τ)}
    (hnumbered : Numbered w) (horderly : Orderly w.env.db) :
    ∀ other ∈ backlog ((p.process id).run w).2.env.db, other ∈ backlog w.env.db ∧ other ≠ id := by
  intro other hother
  by_cases hid : id ∈ backlog w.env.db
  · obtain ⟨hafter, _⟩ :=
      calling_backlog p hnumbered.keyed hid (process_completes p id horderly).1
    unfold RecoveryPipeline.calling at hafter
    rw [hafter] at hother
    obtain ⟨hmem, hne⟩ := List.mem_filter.mp hother
    exact ⟨hmem, by simpa using hne⟩
  · have hwaits : ∀ event, ¬ Unrecorded w.env.db id event := by
      intro event hun
      obtain ⟨row, hrow, hread⟩ := hun.row
      obtain ⟨hmem, hrowid⟩ := selectBy_some hrow
      refine hid (mem_backlog.mpr ⟨hun.norow, row, hmem, hrowid, ?_⟩)
      have htype := (InternalEvent.normalised_ok hread).2.2.2
      -- a row of this type spells a failed payment
      rw [hun.failed] at htype
      exact EventType.value_of_ofValue htype
    cases (p.process_writes id w).2 with
    | nothing hsame =>
      unfold backlog at hother
      rw [hsame.1, hsame.2] at hother
      exact ⟨hother, fun he => hid (he ▸ hother)⟩
    | duplicate event _ hre => exact absurd hre.toUnrecorded (hwaits event)
    | acted event _ hdue => exact absurd hdue.toUnrecorded (hwaits event)

/-! ## Accounted for -/

/-- A playground run of the process still has the event to do. -/
def Process.Plays (proc : Process σ) (id : Nat) : Prop :=
  ∃ thread run, proc.playing thread = some run ∧ run.owes = some id

/-- The process still has the event to do, or the event was left to the next boot. -/
def Process.Accounts (proc : Process σ) (left : List Nat) (id : Nat) : Prop :=
  id ∈ proc.scheduled ∨ proc.Plays id ∨ id ∈ left

/-- A thread that goes on leaves the other threads their runs. -/
theorem Process.Plays.onThread {proc : Process σ} {thread id : Nat} (h : proc.Plays id)
    {run run' : Option PlayRun} (hrun : proc.playing thread = run)
    (howes : ∀ r, run = some r → r.owes = some id → ∃ r', run' = some r' ∧ r'.owes = some id) :
    (proc.onThread thread run').Plays id := by
  obtain ⟨other, r, hother, hid⟩ := h
  by_cases hsame : other = thread
  · subst hsame
    obtain ⟨r', hr', hid'⟩ := howes r (hrun.symm.trans hother) hid
    exact ⟨other, r', (proc.onThread_self other run').trans hr', hid'⟩
  · exact ⟨other, r, (proc.onThread_of_ne hsame run').trans hother, hid⟩

/-- A process that is up accounts for all that waits. -/
def Waits (left : List Nat) (app : App S σ) : Prop :=
  ∀ proc, app.process = some proc → ∀ id ∈ backlog app.world.env.db, proc.Accounts left id

omit [GuardStore S] in
theorem waits_down {left : List Nat} {app : App S σ} (h : app.process = none) : Waits left app := by
  intro proc hproc
  rw [h] at hproc
  cases hproc

/-- The tables are in order, and nothing waits unaccounted for. -/
structure Accounted (left : List Nat) (app : App S σ) : Prop where
  numbered : Numbered app.world
  orderly : Orderly app.world.env.db
  waits : Waits left app

theorem Fate.spares_some {fate : Fate} {proc proc' : Process σ}
    (h : fate.spares proc = some proc') :
    fate = .lives ∧ proc' = proc := by
  cases fate with
  | lives =>
    injection h with h
    exact ⟨rfl, h.symm⟩
  | dies n => cases h

namespace Accounted

variable {left : List Nat} {app : App S σ} {proc : Process σ}

/-- A failed payment that arrives joins what waits. -/
theorem delivered (h : Accounted left app) (hproc : app.process = some proc)
    {event : NormalisedEvent} (hfailed : event.eventType = .paymentFailed) :
    ∀ id ∈ backlog (app.world.env.db.persistInternal event).2,
      proc.Accounts left id ∨ id = app.world.env.db.events.length + 1 := by
  intro id hid
  have hgrown : backlog (app.world.env.db.persistInternal event).2 = _ :=
    backlog_delivered h.numbered hfailed
  rw [hgrown] at hid
  rcases List.mem_append.mp hid with hold | hnew
  · exact .inl (h.waits proc hproc id hold)
  · exact .inr (List.mem_singleton.mp hnew)

/-- What waits after a webhook waited before, or its task is scheduled. -/
theorem receive (h : Accounted left app) (hproc : app.process = some proc) (rt : Runtime)
    (answers : InsertAnswers) (name : String) (request : WebhookRequest) (cut : Bool) :
    Waits left (app.receive proc rt answers name request cut).2 := by
  have htook := receiveWebhook_took rt answers proc.deployment.adapters name request
    ⟨app.raw, app.world.env.db, proc.scheduled⟩
  unfold App.receive
  cases cut with
  | true => exact waits_down rfl
  | false =>
    intro proc' hproc' id hid
    injection hproc' with hproc'
    subst hproc'
    rw [if_neg Bool.false_ne_true] at hid
    unfold Process.Accounts
    dsimp only at hid ⊢
    cases htook with
    | nothing hdb hscheduled =>
      rw [hdb] at hid
      rw [hscheduled]
      exact h.waits proc hproc id hid
    | event event hdb hfailed hother =>
      rw [hdb] at hid
      by_cases htype : event.eventType = .paymentFailed
      · rw [hfailed htype]
        rcases h.delivered hproc htype id hid with (hin | hin) | hnew
        · exact .inl (List.mem_append_left _ hin)
        · exact .inr hin
        · exact .inl (List.mem_append_right _ (List.mem_singleton.mpr hnew))
      · rw [backlog_other htype] at hid
        rw [hother htype]
        exact h.waits proc hproc id hid

/-- What waits after a call on an event waited before, and is another event. -/
theorem called (h : Accounted left app) (hproc : app.process = some proc)
    (p : RecoveryPipeline (FakeProvider × σ)) (id : Nat) :
    ∀ other ∈ backlog ((p.process id).run app.world).2.env.db,
      other ≠ id ∧ proc.Accounts left other := by
  intro other hother
  obtain ⟨hbefore, hne⟩ := backlog_process p id h.numbered h.orderly other hother
  exact ⟨hne, h.waits proc hproc other hbefore⟩

theorem task (h : Accounted left app) (hproc : app.process = some proc) (id : Nat) (fate : Fate) :
    Waits left (app.task proc id fate) := by
  unfold App.task
  split
  · intro proc' hproc' other hother
    obtain ⟨rfl, rfl⟩ := Fate.spares_some hproc'
    obtain ⟨hne, haccounts⟩ := h.called hproc proc.deployment.live id other hother
    rcases haccounts with hin | hin
    · exact .inl ((List.mem_erase_of_ne hne).mpr hin)
    · exact .inr hin
  · exact h.waits

omit [GuardStore S] in
theorem play (h : Accounted left app) (hproc : app.process = some proc) (thread : Nat)
    (scenario : ScenarioIn) (now : ℚ) (token : String) :
    Waits left (app.play proc thread scenario now token).2 := by
  unfold App.play
  split
  · exact h.waits
  · rename_i hfree
    split
    · -- refused: only the limiter is another
      intro proc' hproc' id hid
      injection hproc' with hproc'
      subst hproc'
      exact h.waits proc hproc id hid
    · intro proc' hproc' id hid
      injection hproc' with hproc'
      subst hproc'
      rcases h.waits proc hproc id hid with hin | hin | hin
      · exact .inl hin
      · exact .inr (.inl (hin.onThread hfree fun r hr => by cases hr))
      · exact .inr (.inr hin)

/-- A run that goes on keeps the event it owes, until it is processed. -/
theorem advance (h : Accounted left app) (hproc : app.process = some proc) (thread : Nat)
    (fate : Fate) : Waits left (app.advance proc thread fate).2 := by
  unfold App.advance
  split
  · exact h.waits
  · rename_i run hrun
    intro proc' hproc' other hother
    obtain ⟨rfl, rfl⟩ := Fate.spares_some hproc'
    replace hother : other ∈ backlog ((run.next proc.deployment.live
      proc.deployment.llmModel).run app.world).2.env.db := hother
    have hgoes := next_goes proc.deployment run app.world
    revert hother hgoes
    generalize ((run.next proc.deployment.live proc.deployment.llmModel).run app.world).1 = answer
    generalize ((run.next proc.deployment.live proc.deployment.llmModel).run app.world).2 = w'
    intro hother hgoes
    -- what the run owes is found in its thread, what another one owes in the other
    have hkept : ∀ {run' : Option PlayRun}, proc.Accounts left other →
        (run.owes = some other → ∃ r', run' = some r' ∧ r'.owes = some other) →
        (proc.onThread thread run').Accounts left other := by
      rintro run' (hin | hin | hin) howes
      · exact .inl hin
      · exact .inr (.inl (hin.onThread hrun fun r hr => Option.some.inj hr ▸ howes))
      · exact .inr (.inr hin)
    cases hgoes with
    | seeds seeded o hphase =>
      refine hkept (h.waits proc hproc other hother) fun howes => ?_
      simp [PlayRun.owes, hphase] at howes
    | persists now o hphase =>
      have hfailed : (demoEvent run.scenario run.token now).eventType = .paymentFailed := rfl
      rcases h.delivered hproc hfailed other hother with hin | hnew
      · refine hkept hin fun howes => ?_
        simp [PlayRun.owes, hphase] at howes
      · exact .inr (.inl ⟨thread, _, proc.onThread_self thread _, congrArg some hnew.symm⟩)
    | counts id hphase =>
      refine hkept (h.waits proc hproc other hother) fun howes => ⟨_, rfl, ?_⟩
      simpa [PlayRun.owes, hphase] using howes
    | processes id auditBefore ledgerId hphase | raises id auditBefore exc hphase =>
      obtain ⟨hne, haccounts⟩ := h.called hproc proc.deployment.live id other hother
      refine hkept haccounts fun howes => ?_
      simp only [PlayRun.owes, hphase, Option.some.injEq] at howes
      exact absurd howes.symm hne
    | answers auditBefore ledgerId hphase =>
      refine hkept (h.waits proc hproc other hother) fun howes => ?_
      simp [PlayRun.owes, hphase] at howes

/-- Every step keeps the account, but a boot, which starts a new one. -/
theorem step (h : Accounted left app) (step : Step σ) (hstep : step.isBoot = false) :
    Accounted left (step.run app).2 := by
  have hleads := step_refines step app
  have hgrown : Grown [] app.world := ⟨h.orderly, List.nil_prefix⟩
  refine ⟨hleads.numbered h.numbered, (hleads.grown hgrown).1, ?_⟩
  cases step with
  | boot d now fate => cases hstep
  | crash => exact waits_down rfl
  | changeRules rows => exact h.waits
  | outside f => exact h.waits
  | webhook rt answers name request cut =>
    exact App.serve_elim h.waits fun proc hproc => h.receive hproc rt answers name request cut
  | task id fate => exact App.serve_elim h.waits fun proc hproc => h.task hproc id fate
  | play thread scenario now token =>
    exact App.serve_elim h.waits fun proc hproc => h.play hproc thread scenario now token
  | advance thread fate =>
    exact App.serve_elim h.waits fun proc hproc => h.advance hproc thread fate

end Accounted

/-! ## From boot to boot -/

omit [GuardStore S] in
/-- Seeding touches neither the events nor the ledger. -/
theorem seeds_tables (d : Deployment σ) (now : String → String)
    (w : World S (Env (FakeProvider × σ))) :
    RecoveryPipeline.SameTables w ((d.seeds now).run w).2 := by
  have hall : ∀ entries, Carries (RecoveryPipeline.SameTables w) (RecoveryPipeline.SameTables w)
      (seedAll now entries : Pipe S (FakeProvider × σ) Unit) := by
    intro entries
    induction entries with
    | nil => exact .pure _
    | cons entry rest ih =>
      exact Carries.bind (Carries.attempt fun v hv => ⟨hv, hv⟩) fun _ => ih
  have hseeds : Carries (RecoveryPipeline.SameTables w) (RecoveryPipeline.SameTables w)
      (d.seeds now : Pipe S (FakeProvider × σ) Unit) := by
    unfold Deployment.seeds
    split
    · refine Carries.bind (Carries.attempt fun v hv => ⟨hv, hv⟩) fun empty => ?_
      split
      · exact hall seedRules
      · exact .pure _
    · exact .pure _
  exact hseeds.run ⟨rfl, rfl⟩

/-- A boot that comes up has nothing to do yet, and left the backlog past the limit of its drain. -/
theorem boot_backlog {app : App S σ} (hnumbered : Numbered app.world) (d : Deployment σ)
    (now : String → String) (fate : Fate) {proc : Process σ}
    (hproc : (app.boot d now fate).process = some proc) :
    backlog (app.boot d now fate).world.env.db =
      if d.processPendingOnStartup then (backlog app.world.env.db).drop startupLimit
      else backlog app.world.env.db := by
  unfold App.boot at hproc ⊢
  dsimp only at hproc ⊢
  generalize hopened : ({ app.world with env := { app.world.env with
    outer := (FakeProvider.new, app.world.env.outer.2) } } : World S (Env (FakeProvider × σ))) =
      opened at hproc ⊢
  cases hrun : (d.lifespan now).run opened with
  | mk answer w' =>
    rw [hrun] at hproc
    cases answer with
    | error exc => cases hproc
    | ok _ =>
      obtain ⟨rfl, _⟩ := Fate.spares_some hproc
      show backlog ((d.lifespan now).run opened).2.env.db = _
      obtain ⟨_, v, hseeds, hdrain⟩ := run_bind_ok hrun
      -- the seeds are rules, and no rule waits
      have htables := seeds_tables d now opened
      rw [hseeds] at htables
      have hback : backlog v.env.db = backlog app.world.env.db := by
        unfold backlog
        rw [htables.1, htables.2, ← hopened]
      have hkeyed : Keyed v.env.db := by
        unfold Keyed
        rw [htables.2, ← hopened]
        exact hnumbered.keyed
      rw [hrun]
      unfold Deployment.drain at hdrain
      split at hdrain
      · rename_i hdue
        obtain ⟨n, u, hreturned, hend⟩ := run_bind_ok hdrain
        injection hend with _ hend
        rw [if_pos hdue, ← hend, (processPending_leaves d.live hkeyed hreturned).1, hback]
      · rename_i hdue
        injection hdrain with _ hend
        rw [if_neg hdue, ← hend, hback]

/-- At a boot the account is what its drain left. -/
theorem accounted_boot {app : App S σ} (hnumbered : Numbered app.world)
    (hgrown : Grown [] app.world) (d : Deployment σ) (now : String → String) (fate : Fate) :
    Accounted (backlog (app.boot d now fate).world.env.db) (app.boot d now fate) := by
  have hleads := step_refines (.boot d now fate) app
  exact ⟨hleads.numbered hnumbered, (hleads.grown hgrown).1, fun proc _ id hid => .inr (.inr hid)⟩

/-- Between any two moments of any steps. -/
theorem runApp_eventsKept (steps more : List (Step σ)) (app : App S σ) :
    EventsKept (runApp steps app).world (runApp (steps ++ more) app).world := by
  unfold runApp
  rw [Run.exec_append]
  exact (run_refines more (runApp steps app)).eventsKept

/-- **No failed payment is lost.** From a database without events, through any steps, a boot and
any steps up to the next boot: what was stored at any moment of them is there at every later one,
no provider event with an id was acted on twice, and if the process is up, every failed payment has
exactly one row, or it has none and its task is scheduled, its playground run goes on, or the drain
at the boot left it. That drain left what was over its limit. -/
theorem failed_payments_accounted (store : S) (outer : σ) (rules : List RuleRow)
    (before : List (Step σ)) (d : Deployment σ) (now : String → String) (fate : Fate)
    (after : List (Step σ)) (hafter : ∀ step ∈ after, step.isBoot = false) :
    let earlier := runApp before (App.fresh store outer rules)
    let booted := earlier.boot d now fate
    let app := runApp after booted
    (∀ steps more rest, before ++ .boot d now fate :: after = steps ++ (more ++ rest) →
      EventsKept (runApp steps (App.fresh store outer rules)).world
        (runApp (steps ++ more) (App.fresh store outer rules)).world) ∧
    (∀ provider eventId, eventId ≠ "" →
      (app.world.env.db.ledger.actedOn provider eventId).length ≤ 1) ∧
    ∀ proc, app.process = some proc →
      (∀ row ∈ app.world.env.db.events, row.eventType = EventType.paymentFailed.value →
        (∃ entry, (app.world.env.db.ledger.rows.filter fun r => r.internalEventId = row.id) =
          [entry]) ∨
        (app.world.env.db.ledger.rows.filter fun r => r.internalEventId = row.id) = [] ∧
          (row.id ∈ proc.scheduled ∨ proc.Plays row.id ∨
            row.id ∈ backlog booted.world.env.db)) ∧
      backlog booted.world.env.db =
        if d.processPendingOnStartup then (backlog earlier.world.env.db).drop startupLimit
        else backlog earlier.world.env.db := by
  intro earlier booted app
  have hearlier : LeadsTo (World.opened store (FakeProvider.new, outer) rules) earlier.world :=
    run_refines before (App.fresh store outer rules)
  have hnumbered : Numbered earlier.world := hearlier.numbered (.opened _ _ _)
  have hgrown : Grown [] earlier.world := hearlier.grown (grown_opened _ _ _)
  have haccounted : Accounted (backlog booted.world.env.db) app :=
    Run.exec_inv_along (C := fun _ step => step.isBoot = false)
      (fun _ step h hstep => h.step step hstep) (accounted_boot hnumbered hgrown d now fate)
      (Run.along_of_forall hafter booted)
  refine ⟨fun steps more _ _ => runApp_eventsKept steps more _, haccounted.orderly.once,
    fun proc hproc => ⟨fun row hrow htype => ?_, ?_⟩⟩
  · cases hentry : app.world.env.db.ledger.forEvent row.id with
    | some entry =>
      obtain ⟨hmem, hid⟩ := Ledger.forEvent_some hentry
      refine .inl ⟨entry, ?_⟩
      rw [← hid]
      exact filter_of_mem app.world.env.db.ledger.unique hmem
    | none =>
      have hnone :
          (app.world.env.db.ledger.rows.filter fun r => r.internalEventId = row.id) = [] := by
        rw [List.filter_eq_nil_iff]
        intro r hr
        simpa using Ledger.forEvent_none.mp hentry r hr
      exact .inr ⟨hnone,
        haccounted.waits proc hproc row.id (mem_backlog.mpr ⟨hentry, row, hrow, rfl, htype⟩)⟩
  · -- the process that is up is the one that was booted
    cases hbooted : booted.process with
    | some proc' => exact boot_backlog hnumbered d now fate hbooted
    | none =>
      have hdown : app.process = none :=
        Run.exec_inv_along (P := fun a : App S σ => a.process = none)
          (C := fun _ step => step.isBoot = false) (fun _ _ h hstep => Step.run_down hstep h)
          hbooted (Run.along_of_forall hafter booted)
      rw [hdown] at hproc
      cases hproc

/-- The first life: a visitor's payment is stored, and the process dies. -/
def Sample.firstLife : List (Step Sample.Outside) :=
  [.boot Sample.deployed id .lives, .play 0 Sample.scenario 0 "a1", .advance 0 .lives,
    .advance 0 .lives, .crash]

/-- The application at its second boot. -/
def Sample.booted : App SqlGuardStore Sample.Outside :=
  (runApp Sample.firstLife (Sample.installed [])).boot Sample.deployed id .lives

/-- Another visitor's run has begun. -/
def Sample.visiting : List (Step Sample.Outside) :=
  [.play 0 Sample.scenario 0 "a2", .advance 0 .lives, .advance 0 .lives]

def Sample.visited : App SqlGuardStore Sample.Outside :=
  runApp Sample.visiting Sample.booted

/-- The first payment got its row at the boot, and the second is under way. -/
theorem visit_accounted :
    Sample.visited.world.env.db.events.map (·.id) = [1, 2] ∧
    Sample.visited.world.env.db.ledger.rows.map (·.internalEventId) = [1] ∧
    EventsKept (runApp Sample.firstLife (Sample.installed [])).world
      (runApp (Sample.firstLife ++ .boot Sample.deployed id .lives :: Sample.visiting)
        (Sample.installed [])).world ∧
    ∃ proc, Sample.visited.process = some proc ∧
      ∀ row ∈ Sample.visited.world.env.db.events,
        row.eventType = EventType.paymentFailed.value →
        (∃ entry, (Sample.visited.world.env.db.ledger.rows.filter fun r =>
          r.internalEventId = row.id) = [entry]) ∨
        (Sample.visited.world.env.db.ledger.rows.filter fun r => r.internalEventId = row.id) = [] ∧
          (row.id ∈ proc.scheduled ∨ proc.Plays row.id ∨
            row.id ∈ backlog Sample.booted.world.env.db) := by
  have hup : Sample.visited.process.isSome = true := by decide +kernel
  obtain ⟨proc, hproc⟩ := Option.isSome_iff_exists.mp hup
  obtain ⟨hkept, _, hlive⟩ := failed_payments_accounted (S := SqlGuardStore) GuardStore.empty
    (⟨[], false⟩ : Sample.Outside) [] Sample.firstLife Sample.deployed id .lives Sample.visiting
    (by simp [Sample.visiting, Step.isBoot])
  obtain ⟨hrows, _⟩ := hlive proc hproc
  refine ⟨by decide +kernel, by decide +kernel, ?_, proc, hproc, hrows⟩
  exact hkept Sample.firstLife (.boot Sample.deployed id .lives :: Sample.visiting) []
    (by rw [List.append_nil])

end PaymentRecovery.Recovery

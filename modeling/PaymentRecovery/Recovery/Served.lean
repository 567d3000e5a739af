import PaymentRecovery.Recovery.Asked
import PaymentRecovery.Recovery.LiveRuns

/-!
# What a process serves

The tables are in order after any steps of the application. So is the process: its tasks are about
events that are stored, no two of its runs owe the same event, and what a run has persisted and
counted is still there.
-/

namespace PaymentRecovery.Recovery

open PaymentRecovery.Python PaymentRecovery.Guardrails PaymentRecovery.Providers
open PaymentRecovery.Agent PaymentRecovery.Lib PaymentRecovery.Lib.Table Program
open RecoveryPipeline

variable {S σ τ : Type}

/-! ## What a history leaves -/

section Histories

variable [GuardStore S]

/-- Ledger rows have the numbers from one on. -/
def RowsNumbered (w : World S (Env τ)) : Prop :=
  w.env.db.ledger.rows.map LedgerEntry.id = List.range' 1 w.env.db.ledger.rows.length

/-- A call adds at most the row of its event. -/
theorem process_rows (p : RecoveryPipeline τ) {id : Nat} {w c : World S (Env τ)}
    (h : p.Writes id w c) :
    c.env.db.ledger.rows = w.env.db.ledger.rows ∨ ∃ row : LedgerEntry,
      c.env.db.ledger.rows = w.env.db.ledger.rows ++ [row] ∧ row.internalEventId = id ∧
      row.id = w.env.db.ledger.rows.length + 1 := by
  cases h with
  | nothing hsame => exact .inl (congrArg Ledger.rows hsame.1)
  | duplicate event earlier hre hrec =>
    refine .inr ⟨w.env.db.ledger.newRow (baseOf id event) (duplicateFields earlier), ?_, rfl, rfl⟩
    rw [hrec.ledger]
    exact (Ledger.record_new _ _ (by exact hre.norow)).2
  | acted event latency hdue hrec =>
    refine .inr ⟨w.env.db.ledger.newRow (baseOf id event)
      { fieldsOf (p.acted event w).1 with latencyMs := latency }, ?_, rfl, rfl⟩
    rw [hrec.ledger]
    exact (Ledger.record_new _ _ (by exact hdue.norow)).2

/-- A call leaves another event without a row. -/
theorem process_norow (p : RecoveryPipeline τ) {id other : Nat} (hne : other ≠ id)
    {w : World S (Env τ)} (h : w.env.db.ledger.forEvent other = none) :
    ((p.process id).run w).2.env.db.ledger.forEvent other = none := by
  rw [Ledger.forEvent_none] at h ⊢
  intro row hrow
  rcases process_rows p (p.process_writes id w).2 with hsame | ⟨new, hnew, hid, _⟩
  · rw [hsame] at hrow
    exact h row hrow
  · rw [hnew] at hrow
    rcases List.mem_append.mp hrow with hold | hlast
    · exact h row hold
    · rw [List.mem_singleton.mp hlast, hid]
      exact hne.symm

namespace LeadsTo

variable {w v : World S (Env τ)}

theorem rowsNumbered (h : LeadsTo w v) (hw : RowsNumbered w) : RowsNumbered v := by
  obtain ⟨ops, rfl⟩ := h
  refine Run.exec_inv (P := RowsNumbered) (fun u op hu => ?_) hw
  refine op.run_keeps_all (I := RowsNumbered) (fun p id a c ha hwrites => ?_) (fun _ _ h => h)
    (fun _ _ h => h) (fun _ _ h => h) hu
  unfold RowsNumbered at *
  rcases process_rows p hwrites with hsame | ⟨row, hnew, _, hid⟩
  · rw [hsame]
    exact ha
  · rw [hnew, List.map_append, ha, List.length_append, List.length_singleton, List.range'_concat,
      List.map_singleton, hid, Nat.one_mul, Nat.add_comm]

theorem trajectoriesFrom (h : LeadsTo w v) {rows : List TrajectoryRow}
    (hw : TrajectoriesFrom rows w) : TrajectoriesFrom rows v := by
  obtain ⟨ops, rfl⟩ := h
  exact Run.exec_inv (P := TrajectoriesFrom rows) (fun _ op hu =>
    op.run_carries (fun p id => process_trajectories p rows id) (fun _ _ h => h) (fun _ _ h => h)
      (fun _ _ h => h) hu) hw

theorem auditFrom [LawfulGuardStore S] (h : LeadsTo w v) {entries : String → List AuditEntry}
    (hw : AuditFrom entries w) : AuditFrom entries v := by
  obtain ⟨ops, rfl⟩ := h
  exact Run.exec_inv (P := AuditFrom entries) (fun _ op hu =>
    op.run_carries (fun p id => process_audit p entries id) (fun _ _ h => h) (fun _ _ h => h)
      (fun _ _ h => h) hu) hw

/-- In a world that was reached from an empty ledger, rows are there for good. -/
theorem keepsRow {store : S} {outer : τ} {rules : List RuleRow}
    (hreached : LeadsTo (World.opened store outer rules) w) (h : LeadsTo w v) {row : LedgerEntry}
    (hrow : row ∈ w.env.db.ledger.rows) : row ∈ v.env.db.ledger.rows := by
  have horderly : Orderly w.env.db := (hreached.grown (grown_opened _ _ _)).1
  have hgrown : Grown w.env.db.ledger.rows v := h.grown ⟨horderly, List.prefix_rfl⟩
  exact hgrown.2.subset hrow

end LeadsTo

end Histories

/-- An event that is stored, and has no row, is one to process. -/
theorem unrecorded_stored {w : World S (Env τ)} (hnumbered : Numbered w) {id : Nat}
    {event : NormalisedEvent} (hnorow : w.env.db.ledger.forEvent id = none)
    (hstored : InternalEvent.ofNormalised id event ∈ w.env.db.events.map InternalEvent.unmarked)
    (hfailed : event.eventType = .paymentFailed) : Unrecorded w.env.db id event := by
  obtain ⟨row, hrow, hsame⟩ := List.mem_map.mp hstored
  have hid : row.id = id := congrArg InternalEvent.id hsame
  refine ⟨hnorow, ⟨row, ?_, ?_⟩, hfailed⟩
  · rw [← hid]
    exact selectBy_of_mem hnumbered.keyed.nodup hrow
  · rw [← InternalEvent.normalised_unmarked, hsame]
    exact InternalEvent.normalised_ofNormalised _ _

/-! ## What a run relies on -/

section Runs

variable [GuardStore S]

/-- What a run relies on: its event is stored and has no row yet, and the audit entries it has
counted are there. -/
structure PlayRun.Relies (w : World S (Env (FakeProvider × σ))) (run : PlayRun) : Prop where
  norow : ∀ id, run.owes = some id → w.env.db.ledger.forEvent id = none
  stored : ∀ id, run.owes = some id → ∃ now,
    InternalEvent.ofNormalised id (demoEvent run.scenario run.token now) ∈
      w.env.db.events.map InternalEvent.unmarked
  counted : ∀ id auditBefore, run.phase = .counted id auditBefore →
    auditBefore ≤ (GuardStore.readAudit w.store run.scenario.paymentId).length

/-- No two runs owe the same event, and no task is about one that a run owes. -/
structure Process.Apart (proc : Process σ) : Prop where
  threads : ∀ {thread other run run' id}, proc.playing thread = some run →
    proc.playing other = some run' → run.owes = some id → run'.owes = some id → thread = other
  tasks : ∀ {thread run id}, proc.playing thread = some run → run.owes = some id →
    id ∉ proc.scheduled

/-- The tasks and runs of a process are in order. -/
structure Process.Serves (w : World S (Env (FakeProvider × σ))) (proc : Process σ) : Prop where
  tasks : ∀ id ∈ proc.scheduled, id ≤ w.env.db.events.length
  apart : proc.Apart
  relies : ∀ {thread run}, proc.playing thread = some run → run.Relies w

/-- The tables are in order, and so is the process. -/
structure Served (app : App S σ) : Prop where
  numbered : Numbered app.world
  trajectories : TrajectoriesFrom [] app.world
  rows : RowsNumbered app.world
  serves : ∀ {proc}, app.process = some proc → proc.Serves app.world

namespace PlayRun.Relies

variable {w v : World S (Env (FakeProvider × σ))} {run : PlayRun}

/-- What a run relies on is still there, but for the row of its event. -/
theorem later [LawfulGuardStore S] (h : run.Relies w) (hleads : LeadsTo w v)
    (hnorow : ∀ id, run.owes = some id → v.env.db.ledger.forEvent id = none) : run.Relies v where
  norow := hnorow
  stored id howes := by
    obtain ⟨now, hmem⟩ := h.stored id howes
    exact ⟨now, hleads.eventsKept.subset hmem⟩
  counted id auditBefore hphase := by
    have hkept : AuditFrom (GuardStore.readAudit w.store) v :=
      hleads.auditFrom fun _ => List.prefix_rfl
    exact (h.counted id auditBefore hphase).trans (hkept _).length_le

/-- A run that owes nothing relies on nothing. -/
theorem of_idle (h : run.owes = none) : run.Relies w where
  norow id howes := by rw [h] at howes; cases howes
  stored id howes := by rw [h] at howes; cases howes
  counted id auditBefore hphase := by simp [PlayRun.owes, hphase] at h

/-- The event a run owes has one of the numbers given so far. -/
theorem le (h : run.Relies w) (hnumbered : Numbered w) {id : Nat} (howes : run.owes = some id) :
    id ≤ w.env.db.events.length := by
  obtain ⟨now, hmem⟩ := h.stored id howes
  obtain ⟨row, hrow, hsame⟩ := List.mem_map.mp hmem
  have hid : row.id = id := congrArg InternalEvent.id hsame
  have hin : id ∈ w.env.db.events.map InternalEvent.id := hid ▸ List.mem_map_of_mem hrow
  rw [hnumbered.ids, List.mem_range'_1] at hin
  omega

/-- The event a run owes is one to process. -/
theorem unrecorded (h : run.Relies w) (hnumbered : Numbered w) {id : Nat}
    (howes : run.owes = some id) :
    ∃ now, Unrecorded w.env.db id (demoEvent run.scenario run.token now) := by
  obtain ⟨now, hmem⟩ := h.stored id howes
  exact ⟨now, unrecorded_stored hnumbered (h.norow id howes) hmem rfl⟩

end PlayRun.Relies

namespace Process.Serves

variable {w v : World S (Env (FakeProvider × σ))} {proc : Process σ} {thread : Nat}

/-- In a later world, if no event that is owed has got its row. -/
theorem world [LawfulGuardStore S] (h : proc.Serves w) (hleads : LeadsTo w v)
    (hnorow : ∀ {thread run id}, proc.playing thread = some run → run.owes = some id →
      v.env.db.ledger.forEvent id = none) : proc.Serves v where
  tasks id hid := by
    have hlength := hleads.eventsKept.length_le
    rw [List.length_map, List.length_map] at hlength
    exact (h.tasks id hid).trans hlength
  apart := h.apart
  relies hrun := (h.relies hrun).later hleads fun _ howes => hnorow hrun howes

omit [GuardStore S] in
/-- The runs that are left when one is dropped. -/
theorem others {other : Nat} {run : PlayRun}
    (hrun : (proc.onThread thread none).playing other = some run) :
    other ≠ thread ∧ proc.playing other = some run := by
  by_cases hsame : other = thread
  · subst hsame
    rw [Process.onThread_self] at hrun
    cases hrun
  · rw [proc.onThread_of_ne hsame] at hrun
    exact ⟨hsame, hrun⟩

/-- A run that is dropped. -/
theorem drop (h : proc.Serves w) (thread : Nat) : (proc.onThread thread none).Serves w :=
  ⟨h.tasks, ⟨fun hrun hrun' => h.apart.threads (others hrun).2 (others hrun').2,
    fun hrun => h.apart.tasks (others hrun).2⟩, fun hrun => h.relies (others hrun).2⟩

/-- A run that is put on a free thread, and owes what nobody else does. -/
theorem put (h : proc.Serves w) (hfree : proc.playing thread = none) {run : PlayRun}
    (hrelies : run.Relies w) (htasks : ∀ id, run.owes = some id → id ∉ proc.scheduled)
    (hothers : ∀ {other run' id}, proc.playing other = some run' → run.owes = some id →
      run'.owes ≠ some id) : (proc.onThread thread (some run)).Serves w := by
  have hcases : ∀ {other run'}, (proc.onThread thread (some run)).playing other = some run' →
      (other = thread ∧ run' = run) ∨ proc.playing other = some run' := by
    intro other run' hrun
    by_cases hsame : other = thread
    · subst hsame
      rw [Process.onThread_self] at hrun
      exact .inl ⟨rfl, (Option.some.inj hrun).symm⟩
    · rw [proc.onThread_of_ne hsame] at hrun
      exact .inr hrun
  refine ⟨h.tasks, ⟨fun hrun hrun' howes howes' => ?_, fun hrun howes => ?_⟩, fun hrun => ?_⟩
  · rcases hcases hrun with ⟨rfl, rfl⟩ | hold <;> rcases hcases hrun' with ⟨rfl, rfl⟩ | hold'
    · rfl
    · exact absurd howes' (hothers hold' howes)
    · exact absurd howes (hothers hold howes')
    · exact h.apart.threads hold hold' howes howes'
  · rcases hcases hrun with ⟨rfl, rfl⟩ | hold
    · exact htasks _ howes
    · exact h.apart.tasks hold howes
  · rcases hcases hrun with ⟨rfl, rfl⟩ | hold
    · exact hrelies
    · exact h.relies hold

/-- The next number is nobody's. -/
theorem fresh (h : proc.Serves w) (hnumbered : Numbered w) :
    w.env.db.events.length + 1 ∉ proc.scheduled ∧ ∀ {thread run}, proc.playing thread = some run →
      run.owes ≠ some (w.env.db.events.length + 1) := by
  constructor
  · intro hmem
    have hle := h.tasks _ hmem
    omega
  · intro thread run hrun howes
    have hle := (h.relies hrun).le hnumbered howes
    omega

/-- A task for an event that no run owes. -/
theorem schedule (h : proc.Serves w) {ids : List Nat}
    (hids : ∀ id ∈ ids, id ∈ proc.scheduled ∨ id ≤ w.env.db.events.length ∧
      ∀ {thread run}, proc.playing thread = some run → run.owes ≠ some id) :
    { proc with scheduled := ids }.Serves w where
  tasks id hid := (hids id hid).elim (h.tasks id) And.left
  apart := by
    refine ⟨h.apart.threads, fun hrun howes hid => ?_⟩
    rcases hids _ hid with hold | ⟨_, hnew⟩
    · exact h.apart.tasks hrun howes hold
    · exact hnew hrun howes
  relies := h.relies

end Process.Serves

/-- A process that comes up has nothing to do yet. -/
theorem boot_process {app : App S σ} {d : Deployment σ} {now : String → String} {fate : Fate}
    {proc : Process σ} (h : (app.boot d now fate).process = some proc) :
    proc = ⟨d, [], fun _ => none, .new 20 60⟩ := by
  unfold App.boot at h
  dsimp only at h
  split at h
  · exact (Fate.spares_some h).2
  · cases h

namespace Served

variable [LawfulGuardStore S] {app : App S σ} {proc : Process σ}

theorem receive (h : Served app) (hproc : app.process = some proc) (rt : Runtime)
    (answers : InsertAnswers) (name : String) (request : WebhookRequest) (cut : Bool)
    (hleads : LeadsTo app.world (app.receive proc rt answers name request cut).2.world) :
    ∀ {proc'}, (app.receive proc rt answers name request cut).2.process = some proc' →
      proc'.Serves (app.receive proc rt answers name request cut).2.world := by
  have htook := receiveWebhook_took rt answers proc.deployment.adapters name request
    ⟨app.raw, app.world.env.db, proc.scheduled⟩
  revert hleads
  unfold App.receive
  cases cut with
  | true =>
    intro _ proc' hproc'
    cases hproc'
  | false =>
    intro hleads proc' hproc'
    injection hproc' with hproc'
    subst hproc'
    rw [if_neg Bool.false_ne_true] at hleads ⊢
    have hserves := h.serves hproc
    dsimp only at hleads htook ⊢
    cases htook with
    | nothing hdb hscheduled =>
      rw [hscheduled]
      refine hserves.world hleads fun hrun howes => ?_
      rw [hdb]
      exact (hserves.relies hrun).norow _ howes
    | event event hdb hfailed hother =>
      have hnow := hserves.world hleads fun hrun howes => by
        rw [hdb]
        exact (hserves.relies hrun).norow _ howes
      refine hnow.schedule fun id hid => ?_
      by_cases htype : event.eventType = .paymentFailed
      · rw [hfailed htype] at hid
        rcases List.mem_append.mp hid with hold | hnew
        · exact .inl hold
        · rw [List.mem_singleton.mp hnew]
          refine .inr ⟨?_, (hserves.fresh h.numbered).2⟩
          rw [hdb]
          simp [Database.persistInternal]
      · rw [hother htype] at hid
        exact .inl hid

theorem task (h : Served app) (hproc : app.process = some proc) (id : Nat) (fate : Fate)
    (hleads : LeadsTo app.world (app.task proc id fate).world) :
    ∀ {proc'}, (app.task proc id fate).process = some proc' →
      proc'.Serves (app.task proc id fate).world := by
  revert hleads
  unfold App.task
  split
  · rename_i hid
    intro hleads proc' hproc'
    obtain ⟨rfl, rfl⟩ := Fate.spares_some hproc'
    have hserves := h.serves hproc
    -- no run owes the event of a task
    have hnow : proc.Serves ((proc.deployment.live.process id).run app.world).2 :=
      hserves.world hleads fun hrun howes => by
        refine process_norow _ ?_ ((hserves.relies hrun).norow _ howes)
        intro hsame
        exact hserves.apart.tasks hrun howes (hsame ▸ hid)
    exact hnow.schedule fun other hother => .inl (List.mem_of_mem_erase hother)
  · intro _ proc' hproc'
    rw [hproc] at hproc'
    injection hproc' with hproc'
    exact hproc' ▸ h.serves hproc

omit [LawfulGuardStore S] in
theorem play (h : Served app) (hproc : app.process = some proc) (thread : Nat)
    (scenario : ScenarioIn) (now : ℚ) (token : String) :
    ∀ {proc'}, (app.play proc thread scenario now token).2.process = some proc' →
      proc'.Serves (app.play proc thread scenario now token).2.world := by
  have hserves := h.serves hproc
  have hlimiter : ∀ limiter, ({ proc with limiter := limiter } : Process σ).Serves app.world :=
    fun limiter => ⟨hserves.tasks, ⟨hserves.apart.threads, hserves.apart.tasks⟩, hserves.relies⟩
  unfold App.play
  split
  · intro proc' hproc'
    rw [hproc] at hproc'
    injection hproc' with hproc'
    exact hproc' ▸ hserves
  · rename_i hfree
    split
    · intro proc' hproc'
      injection hproc' with hproc'
      exact hproc' ▸ hlimiter _
    · rename_i limiter _
      intro proc' hproc'
      injection hproc' with hproc'
      subst hproc'
      exact (hlimiter limiter).put hfree (.of_idle rfl) (fun id howes => by cases howes)
        fun _ howes => by cases howes

/-- The run of a thread goes on, and owes its event until that is processed. -/
theorem advance (h : Served app) (hproc : app.process = some proc) (thread : Nat) (fate : Fate)
    (hleads : LeadsTo app.world (app.advance proc thread fate).2.world) :
    ∀ {proc'}, (app.advance proc thread fate).2.process = some proc' →
      proc'.Serves (app.advance proc thread fate).2.world := by
  have hserves := h.serves hproc
  revert hleads
  unfold App.advance
  split
  · intro _ proc' hproc'
    rw [hproc] at hproc'
    injection hproc' with hproc'
    exact hproc' ▸ hserves
  · rename_i run hrun
    intro hleads proc' hproc'
    obtain ⟨rfl, rfl⟩ := Fate.spares_some hproc'
    have hgoes := next_goes proc.deployment run app.world
    dsimp only [Fate.leaves] at hleads ⊢
    revert hleads hgoes
    generalize ((run.next proc.deployment.live proc.deployment.llmModel).run app.world).1 = answer
    generalize ((run.next proc.deployment.live proc.deployment.llmModel).run app.world).2 = w'
    intro hleads hgoes
    have hrelies := hserves.relies hrun
    -- the other runs are where they were, whatever this one does
    have hrest : w'.env.db.ledger = app.world.env.db.ledger →
        (proc.onThread thread none).Serves w' := fun hsame =>
      (hserves.drop thread).world hleads fun hother howes => by
        rw [hsame]
        exact (hserves.relies (Process.Serves.others hother).2).norow _ howes
    have hprocessed : ∀ id, run.owes = some id →
        w' = ((proc.deployment.live.process id).run app.world).2 →
        (proc.onThread thread none).Serves w' := fun id hid hw' =>
      (hserves.drop thread).world hleads fun hother howes => by
        obtain ⟨hne, hother⟩ := Process.Serves.others hother
        rw [hw']
        refine process_norow _ ?_ ((hserves.relies hother).norow _ howes)
        intro hsame
        exact hne (hserves.apart.threads hother hrun howes (hsame ▸ hid))
    have hput : ∀ {run' : PlayRun}, (proc.onThread thread none).Serves w' → run'.Relies w' →
        (∀ id, run'.owes = some id → run.owes = some id ∨
          id = app.world.env.db.events.length + 1) →
        (proc.onThread thread (some run')).Serves w' := by
      intro run' hleft hnew howed
      rw [← proc.onThread_onThread thread none (some run')]
      refine hleft.put (Process.onThread_self ..) hnew (fun id howes => ?_)
        fun {other r id} hother howes => ?_
      · rcases howed id howes with hold | rfl
        · exact hserves.apart.tasks hrun hold
        · exact (hserves.fresh h.numbered).1
      · obtain ⟨hne, hother⟩ := Process.Serves.others hother
        intro howes'
        rcases howed id howes with hold | rfl
        · exact hne (hserves.apart.threads hother hrun howes' hold)
        · exact (hserves.fresh h.numbered).2 hother howes'
    cases hgoes with
    | seeds seeded o hphase =>
      exact hput (hrest rfl) (.of_idle rfl) fun id howes => by cases howes
    | persists now o hphase =>
      refine hput (hrest rfl)
        ⟨fun id howes => ?_, fun id howes => ⟨now, ?_⟩, fun id n hcounted => ?_⟩
        fun id howes => .inr (Option.some.inj howes).symm
      · rw [← Option.some.inj howes]
        exact h.numbered.norow_next
      · rw [← Option.some.inj howes]
        exact List.mem_map.mpr
          ⟨.ofNormalised _ _, List.mem_append_right _ (List.mem_singleton_self _), rfl⟩
      · cases hcounted
    | counts id hphase =>
      have howed : run.owes = some id := by simp [PlayRun.owes, hphase]
      refine hput (hrest rfl)
        ⟨fun other howes => ?_, fun other howes => ?_, fun other n hcounted => ?_⟩
        fun other howes => .inl (howed.trans howes)
      · exact hrelies.norow other (howed.trans howes)
      · exact hrelies.stored other (howed.trans howes)
      · injection hcounted with _ hcounted
        exact hcounted ▸ le_rfl
    | processes id auditBefore ledgerId hphase =>
      refine hput (hprocessed id ?_ rfl) (.of_idle rfl) fun id howes => by cases howes
      simp [PlayRun.owes, hphase]
    | raises id auditBefore exc hphase =>
      refine hprocessed id ?_ rfl
      simp [PlayRun.owes, hphase]
    | answers auditBefore ledgerId hphase =>
      cases (readResult run.scenario.paymentId auditBefore ledgerId
        proc.deployment.llmModel : Pipe S _ PlayResult).run app.world |>.1 <;> exact hrest rfl

/-- Every step leaves the tables and the process in order. -/
theorem step (h : Served app) (step : Step σ) : Served (step.run app).2 := by
  have hleads := step_refines step app
  refine ⟨hleads.numbered h.numbered, hleads.trajectoriesFrom h.trajectories,
    hleads.rowsNumbered h.rows, ?_⟩
  have hsame : ∀ {v : World S (Env (FakeProvider × σ))} {proc : Process σ},
      app.process = some proc → LeadsTo app.world v →
      v.env.db.ledger = app.world.env.db.ledger → proc.Serves v := fun hproc hleads hledger =>
    (h.serves hproc).world hleads fun hrun howes => by
      rw [hledger]
      exact ((h.serves hproc).relies hrun).norow _ howes
  intro proc' hproc'
  cases hboot : step.isBoot with
  | true =>
    cases step with
    | boot d now fate =>
      have hnew := boot_process hproc'
      subst hnew
      exact ⟨fun _ hid => absurd hid List.not_mem_nil,
        ⟨fun hrun => (nomatch hrun), fun hrun => (nomatch hrun)⟩, fun hrun => (nomatch hrun)⟩
    | _ => cases hboot
  | false =>
    cases hproc : app.process with
    | none =>
      rw [Step.run_down hboot hproc] at hproc'
      cases hproc'
    | some proc =>
      have hserve := App.serve_up hproc
      cases step with
      | boot d now fate => cases hboot
      | crash => cases hproc'
      | changeRules rows =>
        rw [show proc' = proc from Option.some.inj (hproc'.symm.trans hproc)]
        exact hsame hproc hleads rfl
      | outside f =>
        rw [show proc' = proc from Option.some.inj (hproc'.symm.trans hproc)]
        exact hsame hproc hleads rfl
      | webhook rt answers name request cut =>
        simp only [Step.run, hserve] at hleads hproc' ⊢
        exact h.receive hproc rt answers name request cut hleads hproc'
      | task id fate =>
        simp only [Step.run, hserve] at hleads hproc' ⊢
        exact h.task hproc id fate hleads hproc'
      | play thread scenario now token =>
        simp only [Step.run, hserve] at hproc' ⊢
        exact h.play hproc thread scenario now token hproc'
      | advance thread fate =>
        simp only [Step.run, hserve] at hleads hproc' ⊢
        exact h.advance hproc thread fate hleads hproc'

omit [LawfulGuardStore S] in
theorem fresh (store : S) (outer : σ) (rules : List RuleRow) :
    Served (App.fresh store outer rules) where
  numbered := .opened _ _ _
  trajectories := ⟨rfl, List.prefix_rfl⟩
  rows := rfl
  serves hproc := by cases hproc

/-- In whatever way the application got where it is, its tables and its process are in order. -/
theorem run (store : S) (outer : σ) (rules : List RuleRow) (steps : List (Step σ)) :
    Served (runApp steps (App.fresh store outer rules)) :=
  Run.exec_inv (P := fun app : App S σ => Served app) (fun _ step h => h.step step)
    (fresh store outer rules)

end Served

end Runs

end PaymentRecovery.Recovery

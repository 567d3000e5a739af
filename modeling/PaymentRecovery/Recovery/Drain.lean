import PaymentRecovery.Recovery.Effects

/-!
# The drain at startup

At startup the application processes the failed payments that have no ledger
row, oldest first and at most 500 of them. Each call takes the first event off
this backlog, so what the drain leaves is the backlog past its limit.
-/

namespace PaymentRecovery.Recovery

open PaymentRecovery.Python PaymentRecovery.Guardrails PaymentRecovery.Providers
open PaymentRecovery.Lib PaymentRecovery.Lib.Table Program

variable {S τ : Type}

/-- The event table in the order of its primary key. -/
def Keyed (db : Database) : Prop :=
  (db.events.map InternalEvent.id).Pairwise (· < ·)

/-- The failed-payment events without a ledger row, in the order of their ids. -/
def backlog (db : Database) : List Nat :=
  (db.events.filter fun row => (db.ledger.forEvent row.id).isNone ∧
    row.eventType = EventType.paymentFailed.value).map (·.id)

theorem pendingIds_eq (db : Database) (limit : Nat) :
    RecoveryPipeline.pendingIds db limit = (backlog db).take limit := rfl

theorem mem_backlog {db : Database} {id : Nat} :
    id ∈ backlog db ↔ db.ledger.forEvent id = none ∧
      ∃ row ∈ db.events, row.id = id ∧ row.eventType = EventType.paymentFailed.value := by
  unfold backlog
  rw [List.mem_map]
  constructor
  · rintro ⟨row, hrow, rfl⟩
    obtain ⟨hmem, hcond⟩ := List.mem_filter.mp hrow
    obtain ⟨hnone, htype⟩ := of_decide_eq_true hcond
    exact ⟨Option.isNone_iff_eq_none.mp hnone, row, hmem, rfl, htype⟩
  · rintro ⟨hnone, row, hmem, rfl, htype⟩
    exact ⟨row, List.mem_filter.mpr ⟨hmem, by simp [hnone, htype]⟩, rfl⟩

namespace Keyed

variable {db : Database}

theorem nodup (h : Keyed db) : (db.events.map InternalEvent.id).Nodup :=
  h.imp fun hlt => Nat.ne_of_lt hlt

theorem backlog_nodup (h : Keyed db) : (backlog db).Nodup :=
  List.Nodup.sublist (List.Sublist.map _ List.filter_sublist) h.nodup

/-- An event of the backlog is found again as a failed payment. -/
theorem event_of_mem (h : Keyed db) {id : Nat} (hid : id ∈ backlog db) :
    ∃ row, db.event id = some row ∧ row.eventType = EventType.paymentFailed.value := by
  obtain ⟨_, row, hmem, rfl, htype⟩ := mem_backlog.mp hid
  exact ⟨row, selectBy_of_mem h.nodup hmem, htype⟩

theorem congr {db' : Database} (h : Keyed db)
    (hevents : db'.events.map InternalEvent.unmarked = db.events.map InternalEvent.unmarked) :
    Keyed db' := by
  have hcol := congrArg (List.map InternalEvent.id) hevents
  rw [List.map_map, List.map_map] at hcol
  show (db'.events.map (InternalEvent.id ∘ InternalEvent.unmarked)).Pairwise (· < ·)
  rw [hcol]
  exact h

end Keyed

/-- Rows of the event table get their numbers in order. -/
theorem Numbered.keyed {w : World S (Env τ)} (h : Numbered w) : Keyed w.env.db := by
  unfold Keyed
  rw [h.ids]
  exact List.pairwise_lt_range'

/-- A new row takes its event off the backlog. -/
theorem backlog_recorded {db db' : Database} {new : LedgerEntry}
    (hevents : db'.events.map InternalEvent.unmarked = db.events.map InternalEvent.unmarked)
    (hrows : db'.ledger.rows = db.ledger.rows ++ [new]) :
    backlog db' = (backlog db).filter (· ≠ new.internalEventId) := by
  -- the backlog reads of an event what routing does not write
  have hunmarked : ∀ d : Database, backlog d =
      ((d.events.map InternalEvent.unmarked).filter fun row =>
        (d.ledger.forEvent row.id).isNone ∧ row.eventType = EventType.paymentFailed.value).map
          (·.id) := by
    intro d
    rw [List.filter_map, List.map_map]
    rfl
  have hnone : ∀ id, (db'.ledger.forEvent id).isNone =
      ((db.ledger.forEvent id).isNone && decide (id ≠ new.internalEventId)) := by
    intro id
    unfold Ledger.forEvent
    rw [hrows, selectBy_append]
    cases selectBy Ledger.eventKey id db.ledger.rows with
    | some row => rfl
    | none =>
      by_cases hid : id = new.internalEventId
      · simp [Ledger.eventKey, hid]
      · simp [Ledger.eventKey, hid, Ne.symm hid]
  rw [hunmarked, hunmarked, hevents]
  generalize db.events.map InternalEvent.unmarked = events
  rw [List.filter_map (f := fun row : InternalEvent => row.id), List.filter_filter]
  congr 1
  refine List.filter_congr fun row _ => ?_
  rw [Function.comp_apply, hnone]
  by_cases hid : row.id = new.internalEventId <;> simp [hid]

variable [GuardStore S]

/-- A call changes nothing of the events but their marks. -/
theorem calling_events (p : RecoveryPipeline τ) (id : Nat) (w : World S (Env τ)) :
    (p.calling id w).2.env.db.events.map InternalEvent.unmarked =
      w.env.db.events.map InternalEvent.unmarked := by
  cases (p.process_writes id w).2 with
  | nothing hsame => exact congrArg _ hsame.2
  | duplicate _ _ _ hrec => exact hrec.events
  | acted _ _ _ hrec => exact hrec.events

/-- A call on an event of the backlog that returns gives the event its row. -/
theorem calling_backlog (p : RecoveryPipeline τ) {id : Nat} {w : World S (Env τ)}
    (hkeyed : Keyed w.env.db) (hid : id ∈ backlog w.env.db)
    (hreturned : ∃ answer, (p.calling id w).1 = .ok answer) :
    backlog (p.calling id w).2.env.db = (backlog w.env.db).filter (· ≠ id) ∧
    Keyed (p.calling id w).2.env.db := by
  have hevents := calling_events p id w
  have hnone := (mem_backlog.mp hid).1
  obtain ⟨row, hrow, htype⟩ := hkeyed.event_of_mem hid
  obtain ⟨new, hrows, hnew⟩ : ∃ new, (p.calling id w).2.env.db.ledger.rows =
      w.env.db.ledger.rows ++ [new] ∧ new.internalEventId = id := by
    unfold RecoveryPipeline.calling at hreturned ⊢
    rcases p.process_cases id w with ⟨answer, hidle, hrun, _⟩ | ⟨event, earlier, hre, hrun, _⟩ |
      ⟨event, hdue, hrun, _⟩
    · rw [hrun] at hreturned
      -- an event of the backlog is idle only if it cannot be read
      cases hidle with
      | recorded entry hentry => rw [hnone] at hentry; cases hentry
      | unknown _ hevent => rw [hrow] at hevent; cases hevent
      | unreadable _ exc => obtain ⟨_, h⟩ := hreturned; cases h
      | notFailed row' event _ hrow' hevent hne =>
        obtain ⟨_, _, _, hof⟩ := InternalEvent.normalised_ok hevent
        rw [← Option.some.inj (hrow.symm.trans hrow'), htype, EventType.ofValue_value] at hof
        injection hof with hof
        exact absurd hof.symm hne
    · obtain ⟨w', hrun', _, _, new, hrows, hid', _⟩ := recordDuplicate_only earlier hre.toUnrecorded
      rw [hrun, run_map, hrun']
      exact ⟨new, hrows, hid'⟩
    · obtain ⟨w', hrun', hhandled⟩ := p.handle_run event hdue.norow
      obtain ⟨latency, hrows⟩ := hhandled.rows
      rw [hrun, run_map, hrun']
      exact ⟨_, hrows, rfl⟩
  refine ⟨?_, hkeyed.congr hevents⟩
  rw [backlog_recorded hevents hrows, hnew]

/-- A drain that returns is its calls one after another, each of which returned. -/
theorem processAll_returned (p : RecoveryPipeline τ) {ids : List Nat} {w w' : World S (Env τ)}
    (h : (p.processAll ids).run w = (.ok (), w')) :
    w' = Run.exec p.calling ids w ∧
    Run.Along p.calling (fun v id => ∃ answer, (p.calling id v).1 = .ok answer) ids w := by
  induction ids generalizing w with
  | nil =>
    injection h with _ hw
    exact ⟨hw.symm, trivial⟩
  | cons id rest ih =>
    unfold RecoveryPipeline.processAll at h
    rw [run_bind] at h
    unfold RecoveryPipeline.calling at ih ⊢
    cases hrun : (p.process id).run w with
    | mk answer v =>
      rw [hrun] at h
      cases answer with
      | error exc => injection h with h; cases h
      | ok answer =>
        obtain ⟨hexec, halong⟩ := ih h
        simp only [Run.exec_cons, Run.Along, hrun]
        exact ⟨hexec, ⟨answer, rfl⟩, halong⟩

/-- The calls of a drain each meet an event without a row, and take it off the backlog. -/
theorem drain_backlog (p : RecoveryPipeline τ) (limit : Nat) {w : World S (Env τ)}
    (hkeyed : Keyed w.env.db)
    (hreturned : Run.Along p.calling (fun v id => ∃ answer, (p.calling id v).1 = .ok answer)
      ((backlog w.env.db).take limit) w) :
    backlog (Run.exec p.calling ((backlog w.env.db).take limit) w).env.db =
      (backlog w.env.db).drop limit ∧
    Run.Along p.calling (fun v id => v.env.db.ledger.forEvent id = none)
      ((backlog w.env.db).take limit) w := by
  induction limit generalizing w with
  | zero => exact ⟨rfl, trivial⟩
  | succ limit ih =>
    cases hback : backlog w.env.db with
    | nil => exact ⟨hback, trivial⟩
    | cons id rest =>
      have hid : id ∈ backlog w.env.db := hback ▸ List.mem_cons_self
      rw [hback] at hreturned
      obtain ⟨hfirst, hrest⟩ := hreturned
      obtain ⟨hafter, hkeyed'⟩ := calling_backlog p hkeyed hid hfirst
      -- the ids are apart, so the other events stay in the backlog
      have hnodup := hkeyed.backlog_nodup
      rw [hback, List.nodup_cons] at hnodup
      have hafter' : backlog (p.calling id w).2.env.db = rest := by
        rw [hafter, hback, List.filter_cons_of_neg (by simp), List.filter_eq_self]
        intro other hother
        have hne : other ≠ id := fun he => hnodup.1 (by rw [← he]; exact hother)
        simpa using hne
      obtain ⟨hend, halong⟩ := ih hkeyed' (by rw [hafter']; exact hrest)
      rw [hafter'] at hend halong
      exact ⟨hend, (mem_backlog.mp hid).1, halong⟩

/-- The limit of `process_pending`. -/
def startupLimit : Nat := 500

/-- The drain in the lifespan of the application. -/
def RecoveryPipeline.drainAtStartup (p : RecoveryPipeline τ) : Pipe S τ Nat :=
  p.processPending startupLimit

/-- What the drain is for: every failed payment there was has its row, each call was on an
event without one, and another drain has nothing to do. -/
structure Drained (p : RecoveryPipeline τ) (w w' : World S (Env τ)) : Prop where
  complete : ∀ row ∈ w.env.db.events, row.eventType = EventType.paymentFailed.value →
    w'.env.db.ledger.forEvent row.id ≠ none
  once : ∃ ids, w' = Run.exec p.calling ids w ∧
    Run.Along p.calling (fun v id => v.env.db.ledger.forEvent id = none) ids w
  idle : ∀ p' : RecoveryPipeline τ, p'.drainAtStartup.run w' = (.ok 0, w')

/-- A drain of an empty backlog does nothing. -/
theorem processPending_idle (p : RecoveryPipeline τ) (limit : Nat) {w : World S (Env τ)}
    (h : backlog w.env.db = []) : (p.processPending limit).run w = (.ok 0, w) := by
  unfold RecoveryPipeline.processPending readDb
  rw [run_bind, run_read]
  dsimp only
  rw [pendingIds_eq, h, List.take_nil]
  rfl

theorem processPending_returned (p : RecoveryPipeline τ) {limit n : Nat} {w w' : World S (Env τ)}
    (h : (p.processPending limit).run w = (.ok n, w')) :
    (p.processAll ((backlog w.env.db).take limit)).run w = (.ok (), w') := by
  unfold RecoveryPipeline.processPending readDb at h
  rw [run_bind, run_read] at h
  dsimp only at h
  rw [run_bind, pendingIds_eq] at h
  split at h
  · rename_i hrun
    injection h with _ hw
    rw [hrun, hw]
  · injection h with h
    cases h

/-- A drain that returns leaves the backlog past its limit. -/
theorem processPending_leaves (p : RecoveryPipeline τ) {limit n : Nat} {w w' : World S (Env τ)}
    (hkeyed : Keyed w.env.db) (h : (p.processPending limit).run w = (.ok n, w')) :
    backlog w'.env.db = (backlog w.env.db).drop limit ∧
    w' = Run.exec p.calling ((backlog w.env.db).take limit) w ∧
    Run.Along p.calling (fun v id => v.env.db.ledger.forEvent id = none)
      ((backlog w.env.db).take limit) w := by
  obtain ⟨hexec, hreturned⟩ := processAll_returned p (processPending_returned p h)
  obtain ⟨hback, halong⟩ := drain_backlog p limit hkeyed hreturned
  exact ⟨hexec ▸ hback, hexec, halong⟩

/-- In a database in order a drain returns. -/
theorem processPending_returns (p : RecoveryPipeline τ) (limit : Nat) {w : World S (Env τ)}
    (horderly : Orderly w.env.db) : ∃ n w', (p.processPending limit).run w = (.ok n, w') := by
  have hall : ∀ ids (v : World S (Env τ)), Grown [] v →
      ∃ v', (p.processAll ids).run v = (.ok (), v') := by
    intro ids
    induction ids with
    | nil => exact fun v _ => ⟨v, rfl⟩
    | cons id rest ih =>
      intro v hv
      obtain ⟨answer, hanswer⟩ := (process_completes p id hv.1).1
      obtain ⟨v', hrest⟩ := ih ((p.process id).run v).2 (hv.writes (p.process_writes id v).2)
      refine ⟨v', ?_⟩
      unfold RecoveryPipeline.processAll
      rw [run_bind]
      cases hrun : (p.process id).run v with
      | mk first v₁ =>
        rw [hrun] at hanswer hrest
        subst hanswer
        exact hrest
  obtain ⟨w', hrun⟩ := hall (RecoveryPipeline.pendingIds w.env.db limit) w
    ⟨horderly, List.nil_prefix⟩
  refine ⟨(RecoveryPipeline.pendingIds w.env.db limit).length, w', ?_⟩
  unfold RecoveryPipeline.processPending readDb
  rw [run_bind, run_read]
  dsimp only
  rw [run_bind, hrun]
  rfl

/-- The first event past the limit is still without a row. -/
theorem not_drained (p : RecoveryPipeline τ) {w w' : World S (Env τ)} {n : Nat}
    (hkeyed : Keyed w.env.db) (hreturned : p.drainAtStartup.run w = (.ok n, w'))
    (hlong : startupLimit < (backlog w.env.db).length) : ¬ Drained p w w' := by
  intro hdrained
  obtain ⟨hback, _⟩ := processPending_leaves p hkeyed hreturned
  obtain ⟨id, rest, hdrop⟩ : ∃ id rest, (backlog w.env.db).drop startupLimit = id :: rest :=
    List.exists_cons_of_length_pos (by rw [List.length_drop]; omega)
  have hid : id ∈ backlog w.env.db := List.mem_of_mem_drop (hdrop ▸ List.mem_cons_self)
  obtain ⟨_, row, hmem, hrow, htype⟩ := mem_backlog.mp hid
  have hleft : id ∈ backlog w'.env.db := by
    rw [hback, hdrop]
    exact List.mem_cons_self
  exact hdrained.complete row hmem htype (by rw [hrow]; exact (mem_backlog.mp hleft).1)

/-- **The drain at startup.** Whatever events and rows are stored, a drain that returns was
complete, processed no event twice and leaves nothing for another one, if and only if no
more failed payments were without a row than its limit. -/
theorem startup_drain_iff (p : RecoveryPipeline τ) {w w' : World S (Env τ)} {n : Nat}
    (hkeyed : Keyed w.env.db) (hreturned : p.drainAtStartup.run w = (.ok n, w')) :
    Drained p w w' ↔ (backlog w.env.db).length ≤ startupLimit := by
  obtain ⟨hback, hexec, halong⟩ := processPending_leaves p hkeyed hreturned
  constructor
  · intro hdrained
    by_contra hlong
    exact not_drained p hkeyed hreturned (Nat.lt_of_not_le hlong) hdrained
  · intro hshort
    have hempty : backlog w'.env.db = [] := by
      rw [hback, List.drop_eq_nil_iff]
      exact hshort
    refine ⟨fun row hmem htype hnone => ?_, ⟨_, hexec, halong⟩,
      fun p' => processPending_idle p' _ hempty⟩
    -- an event without a row would be in the backlog
    have hevents : w'.env.db.events.map InternalEvent.unmarked =
        w.env.db.events.map InternalEvent.unmarked := by
      rw [hexec]
      exact Run.exec_inv (P := fun v : World S (Env τ) => v.env.db.events.map InternalEvent.unmarked =
        w.env.db.events.map InternalEvent.unmarked)
        (fun v id h => (calling_events p id v).trans h) rfl
    obtain ⟨row', hmem', hsame⟩ := List.mem_map.mp (hevents ▸ List.mem_map_of_mem hmem)
    have hid : row'.unmarked.id = row.unmarked.id := congrArg _ hsame
    have htype' : row'.unmarked.eventType = row.unmarked.eventType := congrArg _ hsame
    have hin : row.id ∈ backlog w'.env.db :=
      mem_backlog.mpr ⟨hnone, row', hmem', hid, htype'.trans htype⟩
    rw [hempty] at hin
    cases hin

/-- A failed payment is processed. Two more arrive, one of them the same event again, and a
captured one and another failed one; then the process dies on the second. -/
def Sample.threeWaiting : World SqlGuardStore (Env Sample.Outside) :=
  runOps [.deliver (Sample.failed "evt_1" .unknown), .process Sample.pipeline 1 .lives,
      .deliver (Sample.failed "evt_2" .unknown), .deliver (Sample.failed "evt_1" .unknown),
      .deliver { Sample.failed "evt_3" .unknown with eventType := .paymentCaptured },
      .deliver (Sample.failed "evt_4" .expiredCard), .process Sample.pipeline 2 (.dies 3)]
    (World.opened GuardStore.empty ⟨List.replicate 4 Sample.finish, false⟩ [])

/-- The drain comes to the three that have no row. -/
theorem startup_drain_iff_sample :
    Sample.threeWaiting.env.db.ledger.rows.map (·.internalEventId) = [1] ∧
    backlog Sample.threeWaiting.env.db = [2, 3, 5] ∧
    ∃ n w', Sample.pipeline.drainAtStartup.run Sample.threeWaiting = (.ok n, w') ∧
      Drained Sample.pipeline Sample.threeWaiting w' := by
  have horderly : Orderly Sample.threeWaiting.env.db :=
    (runOps_grown [] _ (grown_opened _ _ _)).1
  have hbacklog : backlog Sample.threeWaiting.env.db = [2, 3, 5] := by decide +kernel
  obtain ⟨n, w', hrun⟩ := processPending_returns Sample.pipeline startupLimit horderly
  have hkeyed : Keyed Sample.threeWaiting.env.db := ((Numbered.opened _ _ _).runOps _).keyed
  refine ⟨by decide +kernel, hbacklog, n, w', hrun, ?_⟩
  refine (startup_drain_iff Sample.pipeline hkeyed hrun).mpr ?_
  rw [hbacklog]
  decide

/-- Another failed payment joins the backlog at its end. -/
theorem backlog_delivered {w : World S (Env τ)} (hnumbered : Numbered w) {event : NormalisedEvent}
    (hfailed : event.eventType = .paymentFailed) :
    backlog ((Op.deliver event).run w).2.env.db =
      backlog w.env.db ++ [w.env.db.events.length + 1] := by
  have hnone := (hnumbered.unrecorded_delivered hfailed).norow
  show ((w.env.db.events ++ [InternalEvent.ofNormalised _ event]).filter _).map _ = _
  rw [List.filter_append, List.map_append]
  congr 1
  rw [List.filter_cons_of_pos ?_]
  · rfl
  · refine decide_eq_true ⟨Option.isNone_iff_eq_none.mpr hnone, ?_⟩
    show event.eventType.value = _
    rw [hfailed]

/-- Failed payments that arrive before the first start. -/
def Sample.overdue (events : List String) : World SqlGuardStore (Env Sample.Outside) :=
  runOps (events.map fun eventId => .deliver (Sample.failed eventId .unknown))
    (World.opened GuardStore.empty ⟨[], false⟩ [])

theorem Sample.backlog_overdue (events : List String) :
    (backlog (Sample.overdue events).env.db).length = events.length := by
  have hgrows : ∀ (rest : List String) (w : World SqlGuardStore (Env Sample.Outside)), Numbered w →
      (backlog (runOps (rest.map fun eventId => .deliver (Sample.failed eventId .unknown))
        w).env.db).length =
        (backlog w.env.db).length + rest.length := by
    intro rest
    induction rest with
    | nil => exact fun w _ => rfl
    | cons eventId rest ih =>
      intro w hnumbered
      have hnext := ih _ (hnumbered.runOp (.deliver (Sample.failed eventId .unknown)))
      rw [backlog_delivered hnumbered rfl, List.length_append, List.length_singleton] at hnext
      rw [List.length_cons, Nat.add_comm rest.length, ← Nat.add_assoc]
      exact hnext
  unfold Sample.overdue
  rw [hgrows events _ (Numbered.opened _ _ _)]
  exact Nat.zero_add _

/-- One of 501 failed payments keeps waiting when the drain is through. -/
theorem startup_drain_incomplete : ∃ events n w',
    Sample.pipeline.drainAtStartup.run (Sample.overdue events) = (.ok n, w') ∧
    ¬ Drained Sample.pipeline (Sample.overdue events) w' := by
  have hnumbered : ∀ events, Numbered (Sample.overdue events) :=
    fun events => (Numbered.opened _ _ _).runOps _
  have horderly : ∀ events, Orderly (Sample.overdue events).env.db :=
    fun events => (runOps_grown [] _ (grown_opened _ _ _)).1
  refine ⟨(List.range 501).map toString, ?_⟩
  obtain ⟨n, w', hrun⟩ := processPending_returns Sample.pipeline startupLimit (horderly _)
  refine ⟨n, w', hrun, not_drained Sample.pipeline (hnumbered _).keyed hrun ?_⟩
  rw [Sample.backlog_overdue, List.length_map, List.length_range]
  decide

end PaymentRecovery.Recovery

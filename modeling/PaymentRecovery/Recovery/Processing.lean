import PaymentRecovery.Recovery.Keeps

/-!
# One call to `process`

The ways of one call: an event that has its row or asks for none, a redelivery,
or an event that is due. A due event always ends with one new row, whatever
routing, rule, agent and provider do in between, and until that row is written
nothing of the ledger or the event table has changed.
-/

namespace PaymentRecovery.Recovery

open PaymentRecovery.Python PaymentRecovery.Guardrails PaymentRecovery.Providers
open PaymentRecovery.Agent PaymentRecovery.Lib PaymentRecovery.Lib.Table Program

variable {S τ : Type}

/-! ## The ledger -/

/-- The first row for an event is recorded, and appended at the end. -/
theorem Ledger.record_new {ledger : Ledger} (base : LedgerBase) (fields : LedgerFields)
    (h : ledger.forEvent base.internalEventId = none) :
    (ledger.record base fields).1 = .ok (ledger.rows.length + 1) ∧
    (ledger.record base fields).2.rows = ledger.rows ++ [ledger.newRow base fields] := by
  unfold record
  split
  · rename_i row hrow
    rw [h] at hrow
    cases hrow
  · exact ⟨rfl, rfl⟩

theorem Ledger.forEvent_none {ledger : Ledger} {id : Nat} :
    ledger.forEvent id = none ↔ ∀ row ∈ ledger.rows, row.internalEventId ≠ id :=
  selectBy_none

theorem Ledger.forEvent_some {ledger : Ledger} {id : Nat} {row : LedgerEntry}
    (h : ledger.forEvent id = some row) : row ∈ ledger.rows ∧ row.internalEventId = id :=
  selectBy_some h

/-- The event without what routing notes on it. -/
def InternalEvent.unmarked (row : InternalEvent) : InternalEvent :=
  { row with
    route := none, matchedRuleKey := none, matchedRuleVersion := none, resolvedAction := none }

theorem InternalEvent.normalised_unmarked (row : InternalEvent) :
    row.unmarked.normalised = row.normalised := rfl

/-! ## The ways of one call -/

/-- A call that changes nothing, and its answer. -/
inductive Idle (db : Database) (id : Nat) : Except PyExc (Option Nat) → Prop
  | recorded (row : LedgerEntry) (hrow : db.ledger.forEvent id = some row) :
    Idle db id (.ok (some row.id))
  | unknown (hnone : db.ledger.forEvent id = none) (hevent : db.event id = none) :
    Idle db id (.ok none)
  | unreadable (row : InternalEvent) (exc : PyExc) (hnone : db.ledger.forEvent id = none)
    (hrow : db.event id = some row) (hexc : row.normalised = .error exc) : Idle db id (.error exc)
  | notFailed (row : InternalEvent) (event : NormalisedEvent)
    (hnone : db.ledger.forEvent id = none) (hrow : db.event id = some row)
    (hevent : row.normalised = .ok event) (htype : event.eventType ≠ .paymentFailed) :
    Idle db id (.ok none)

/-- A failed payment without a ledger row. -/
structure Unrecorded (db : Database) (id : Nat) (event : NormalisedEvent) : Prop where
  norow : db.ledger.forEvent id = none
  row : ∃ row, db.event id = some row ∧ row.normalised = .ok event
  failed : event.eventType = .paymentFailed

/-- A redelivery of an event that was acted on. -/
structure Redelivered (db : Database) (id : Nat) (event : NormalisedEvent)
    (earlier : LedgerEntry) : Prop extends Unrecorded db id event where
  earlier : db.ledger.processedDelivery event.provider event.eventId = some earlier

/-- An event to act on. -/
structure Due (db : Database) (id : Nat) (event : NormalisedEvent) : Prop
    extends Unrecorded db id event where
  first : db.ledger.processedDelivery event.provider event.eventId = none

/-- A call on a failed payment without a row is not idle. -/
theorem Idle.not_unrecorded {db : Database} {id : Nat} {answer : Except PyExc (Option Nat)}
    (h : Idle db id answer) (event : NormalisedEvent) : ¬ Unrecorded db id event := by
  intro hun
  obtain ⟨row, hrow, hnormalised⟩ := hun.row
  cases h with
  | recorded entry hentry => rw [hun.norow] at hentry; cases hentry
  | unknown _ hevent => rw [hrow] at hevent; cases hevent
  | unreadable row' exc _ hrow' hexc =>
    rw [Option.some.inj (hrow'.symm.trans hrow), hnormalised] at hexc
    cases hexc
  | notFailed row' event' _ hrow' hevent htype =>
    rw [Option.some.inj (hrow'.symm.trans hrow), hnormalised] at hevent
    injection hevent with hevent
    exact htype (hevent ▸ hun.failed)

theorem Idle.not_due {db : Database} {id : Nat} {answer : Except PyExc (Option Nat)}
    (h : Idle db id answer) (event : NormalisedEvent) : ¬ Due db id event :=
  fun hdue => h.not_unrecorded event hdue.toUnrecorded

/-- An event in the table is one event. -/
theorem Unrecorded.event_unique {db : Database} {id : Nat} {event event' : NormalisedEvent}
    (h : Unrecorded db id event) (h' : Unrecorded db id event') : event = event' := by
  obtain ⟨row, hrow, hnormalised⟩ := h.row
  obtain ⟨row', hrow', hnormalised'⟩ := h'.row
  rw [Option.some.inj (hrow.symm.trans hrow'), hnormalised'] at hnormalised
  injection hnormalised with hevent
  exact hevent.symm

theorem Redelivered.not_due {db : Database} {id : Nat} {event : NormalisedEvent}
    {earlier : LedgerEntry} (h : Redelivered db id event earlier) (event' : NormalisedEvent) :
    ¬ Due db id event' := by
  intro hdue
  have hfirst := hdue.first
  rw [← h.toUnrecorded.event_unique hdue.toUnrecorded, h.earlier] at hfirst
  cases hfirst

namespace RecoveryPipeline

variable (p : RecoveryPipeline τ) [GuardStore S]

/-- One call to `process` is idle, records a redelivery, or acts on the event; before that
it only reads. -/
theorem process_cases (id : Nat) (w : World S (Env τ)) :
    (∃ answer, Idle w.env.db id answer ∧ (p.process id).run w = (answer, w) ∧
      ∀ c ∈ (p.process id).cuts w, c = w) ∨
    (∃ event earlier, Redelivered w.env.db id event earlier ∧
      (p.process id).run w = (some <$> recordDuplicate id event earlier).run w ∧
      ∀ c ∈ (p.process id).cuts w, c = w ∨ c ∈ (recordDuplicate id event earlier).cuts w) ∨
    (∃ event, Due w.env.db id event ∧
      (p.process id).run w = (some <$> p.handle id event).run w ∧
      ∀ c ∈ (p.process id).cuts w, c = w ∨ c ∈ (p.handle id event).cuts w) := by
  unfold process
  simp only [readDb, run_bind, run_read, cuts_bind, cuts_read, List.mem_append,
    List.mem_singleton]
  cases hrow : w.env.db.ledger.forEvent id with
  | some row => exact .inl ⟨_, .recorded row hrow, by simp, by simp⟩
  | none =>
    simp only [run_bind, run_read, cuts_bind, cuts_read, List.mem_append, List.mem_singleton]
    cases hevent : w.env.db.event id with
    | none => exact .inl ⟨_, .unknown hrow hevent, by simp, by simp⟩
    | some row =>
      cases hnormalised : row.normalised with
      | error exc =>
        exact .inl ⟨_, .unreadable row exc hrow hevent hnormalised, by simp [hnormalised],
          by simp [hnormalised]⟩
      | ok event =>
        simp only [hnormalised, run_bind, run_orRaise, cuts_bind, cuts_orRaise, List.nil_append]
        by_cases htype : event.eventType = .paymentFailed
        · -- three reads come first, and leave the world as it is
          have hun : Unrecorded w.env.db id event := ⟨hrow, ⟨row, hevent, hnormalised⟩, htype⟩
          rw [if_neg (not_not.mpr htype)]
          simp only [run_bind, run_read, cuts_bind, cuts_read, List.mem_append,
            List.mem_singleton]
          cases hearlier : w.env.db.ledger.processedDelivery event.provider event.eventId with
          | some earlier =>
            refine .inr (.inl ⟨event, earlier, ⟨hun, hearlier⟩, rfl, ?_⟩)
            rintro c (rfl | rfl | rfl | hc)
            · exact .inl rfl
            · exact .inl rfl
            · exact .inl rfl
            · rw [cuts_map] at hc
              exact .inr hc
          | none =>
            refine .inr (.inr ⟨event, ⟨hun, hearlier⟩, rfl, ?_⟩)
            rintro c (rfl | rfl | rfl | hc)
            · exact .inl rfl
            · exact .inl rfl
            · exact .inl rfl
            · rw [cuts_map] at hc
              exact .inr hc
        · rw [if_pos htype]
          exact .inl ⟨_, .notFailed row event hrow hevent hnormalised htype, by simp, by simp⟩

/-! ## Acting on a due event -/

/-- Acting on an event changes neither the ledger nor the event table. -/
theorem keeps_tables (ledger : Ledger) (events : List InternalEvent) :
    p.Keeps (fun w : World S (Env τ) => w.env.db.ledger = ledger ∧ w.env.db.events = events)
      (fun w => w.env.db.ledger = ledger ∧ w.env.db.events = events) :=
  Keeps.of_outside (J := fun env _ => env.db.ledger = ledger ∧ env.db.events = events) p
    (fun hdb _ hJ => by rw [hdb]; exact hJ) (fun _ _ hJ => hJ)
    (fun _ hrun _ _ _ hJ => by rw [hrun.db]; exact hJ) (fun _ hJ => hJ)

/-- What the row tells of how acting on the event ended. -/
def fieldsOf : Except PyExc LedgerFields → LedgerFields
  | .ok fields => fields
  | .error exc => failedFields exc

/-- The world in which acting on the event starts. -/
def started (w : World S (Env τ)) : World S (Env τ) :=
  { w with env := (w.env.tick p.monotonic).2 }

/-- Acting on the event, from the world before `handle`. -/
def acted (event : NormalisedEvent) (w : World S (Env τ)) :
    Except PyExc LedgerFields × World S (Env τ) :=
  (p.routeAndAct event).run (p.started w)

theorem acted_tables (event : NormalisedEvent) (w : World S (Env τ)) :
    (p.acted event w).2.env.db.ledger = w.env.db.ledger ∧
    (p.acted event w).2.env.db.events = w.env.db.events :=
  (routeAndAct_carries (p.keeps_tables w.env.db.ledger w.env.db.events) event).run
    (w := p.started w) ⟨rfl, rfl⟩

/-- Nor does it change the rules. -/
theorem keeps_rules (rules : List RuleRow) :
    p.Keeps (fun w : World S (Env τ) => w.env.db.rules = rules) (fun w => w.env.db.rules = rules) :=
  Keeps.of_outside (J := fun env _ => env.db.rules = rules) p
    (fun hdb _ hJ => by rw [hdb]; exact hJ) (fun _ _ hJ => hJ)
    (fun _ hrun _ _ _ hJ => by rw [hrun.db]; exact hJ) (fun _ hJ => hJ)

theorem acted_rules (event : NormalisedEvent) (w : World S (Env τ)) :
    (p.acted event w).2.env.db.rules = w.env.db.rules :=
  (routeAndAct_carries (p.keeps_rules w.env.db.rules) event).run (w := p.started w) rfl

/-- What a call to `handle` leaves: all that acting on the event left, with one new row. -/
structure Handled (id : Nat) (event : NormalisedEvent) (w w' : World S (Env τ)) : Prop where
  store : w'.store = (p.acted event w).2.store
  journal : w'.journal = (p.acted event w).2.journal
  applied : w'.env.applied = (p.acted event w).2.env.applied
  rows : ∃ latency, w'.env.db.ledger.rows = w.env.db.ledger.rows ++
    [w.env.db.ledger.newRow (baseOf id event)
      { fieldsOf (p.acted event w).1 with latencyMs := latency }]

omit [GuardStore S] in
/-- The first row for an event is recorded, and nothing else is touched. -/
theorem record_run {ledger : Ledger} (base : LedgerBase) (fields : LedgerFields)
    {w : World S (Env τ)} (hledger : w.env.db.ledger = ledger)
    (hnew : ledger.forEvent base.internalEventId = none) :
    (record base fields : Pipe S τ Nat).run w =
      (.ok (ledger.rows.length + 1), { w with env := { w.env with db :=
        { w.env.db with ledger := (ledger.record base fields).2 } } }) := by
  unfold record writeDb
  rw [run_attempt]
  dsimp only
  rw [hledger, (Ledger.record_new base fields hnew).1]

/-- The world after a due event: what acting on it left, but for a clock reading, the new row
and the mark. -/
theorem handle_leaves {id : Nat} (event : NormalisedEvent) {w : World S (Env τ)}
    (hnew : w.env.db.ledger.forEvent id = none) :
    ∃ latency db, (p.handle id event).run w = (.ok (w.env.db.ledger.rows.length + 1),
        { (p.acted event w).2 with
          env := { ((p.acted event w).2.env.tick p.monotonic).2 with db := db } }) ∧
      db.ledger = (w.env.db.ledger.record (baseOf id event)
        { fieldsOf (p.acted event w).1 with latencyMs := latency }).2 ∧
      db.rules = (p.acted event w).2.env.db.rules ∧
      db.trajectories = (p.acted event w).2.env.db.trajectories := by
  have htables := p.acted_tables event w
  -- whatever was raised is caught, in the state it was raised in
  have hcaught : (tryCatch (p.routeAndAct event) fun exc =>
      (pure (failedFields exc) : Pipe S τ LedgerFields)).run (p.started w) =
        (.ok (fieldsOf (p.acted event w).1), (p.acted event w).2) := by
    cases hacted : p.acted event w with
    | mk answer w' =>
      unfold acted at hacted
      rw [run_tryCatch, hacted]
      cases answer <;> rfl
  unfold handle
  simp only [onEnv, run_bind, run_step]
  rw [show ({ w with env := (w.env.tick p.monotonic).2 } : World S (Env τ)) = p.started w from rfl,
    hcaught]
  dsimp only
  rw [record_run _ _ (by exact htables.1) (by exact hnew)]
  simp only [markEvent, writeDb, run_attempt, run_pure]
  exact ⟨_, _, rfl, rfl, rfl, rfl⟩

/-- Its ledger and its rules. -/
theorem handle_world {id : Nat} (event : NormalisedEvent) {w : World S (Env τ)}
    (hnew : w.env.db.ledger.forEvent id = none) :
    ∃ latency db, (p.handle id event).run w = (.ok (w.env.db.ledger.rows.length + 1),
        { (p.acted event w).2 with
          env := { ((p.acted event w).2.env.tick p.monotonic).2 with db := db } }) ∧
      db.ledger = (w.env.db.ledger.record (baseOf id event)
        { fieldsOf (p.acted event w).1 with latencyMs := latency }).2 ∧
      db.rules = (p.acted event w).2.env.db.rules := by
  obtain ⟨latency, db, hrun, hledger, hrules, _⟩ := p.handle_leaves event hnew
  exact ⟨latency, db, hrun, hledger, hrules⟩

/-- A due event is acted on and recorded, and `handle` returns the number of its row. -/
theorem handle_run {id : Nat} (event : NormalisedEvent) {w : World S (Env τ)}
    (hnew : w.env.db.ledger.forEvent id = none) :
    ∃ w', (p.handle id event).run w = (.ok (w.env.db.ledger.rows.length + 1), w') ∧
      p.Handled id event w w' := by
  obtain ⟨latency, db, hrun, hledger, _⟩ := p.handle_world event hnew
  refine ⟨_, hrun, rfl, rfl, rfl, latency, ?_⟩
  show db.ledger.rows = _
  rw [hledger]
  exact (Ledger.record_new _ _ hnew).2

/-- What acting on an event, the row and the mark keep, `process` keeps. -/
theorem process_carries_of {C I : World S (Env τ) → Prop} (hcut : ∀ w, I w → C w)
    (hclock : Carries C I (onEnv fun env => env.tick p.monotonic : Pipe S τ ℚ))
    (hact : ∀ event, Carries C I (p.routeAndAct event))
    (hrecord : ∀ base fields, Carries C I (record base fields : Pipe S τ Nat))
    (hmark : ∀ id fields, Carries C I (markEvent id fields : Pipe S τ Unit)) (id : Nat) :
    Carries C I (p.process id) := by
  have hread : ∀ {α : Type} (f : Database → α), Carries C I (readDb f : Pipe S τ α) :=
    fun _ => Carries.read _ hcut
  refine Carries.bind (hread _) fun existing => ?_
  cases existing with
  | some existing => exact .pure _
  | none =>
    refine Carries.bind (hread _) fun row => ?_
    cases row with
    | none => exact .pure _
    | some row =>
      refine Carries.bind (.orRaise _) fun event => ?_
      split
      · exact .pure _
      · refine Carries.bind (hread _) fun earlier => ?_
        cases earlier with
        | some earlier => exact Carries.map (hrecord _ _)
        | none =>
          -- between the two clock readings, acting; after them, the row and the mark
          refine Carries.map (Carries.bind hclock fun start => ?_)
          refine Carries.bind (Carries.tryCatch (hact event) fun _ => .pure _) fun fields => ?_
          refine Carries.bind hclock fun ended => ?_
          exact Carries.bind (hrecord _ _) fun _ => Carries.bind (hmark _ _) fun _ => .pure _

/-- What acting on an event keeps, and no database write touches, `process` keeps. -/
theorem process_carries {C I : World S (Env τ) → Prop} (h : p.Keeps C I)
    (hdb : ∀ (w : World S (Env τ)) db, I w → C { w with env := { w.env with db := db } } ∧
      I { w with env := { w.env with db := db } }) (id : Nat) :
    Carries C I (p.process id) :=
  process_carries_of p (fun _ => h.cut) (h.onEnv (quiet_tick _)) (routeAndAct_carries h)
    (fun _ _ => Carries.attempt fun w hw => hdb w _ hw)
    (fun _ _ => Carries.attempt fun w hw => hdb w _ hw) id

/-- A call leaves the rules as they are. -/
theorem process_rules (rules : List RuleRow) (id : Nat) :
    Carries (fun w : World S (Env τ) => w.env.db.rules = rules) (fun w => w.env.db.rules = rules)
      (p.process id) :=
  process_carries_of p (fun _ h => h) ((p.keeps_rules rules).onEnv (quiet_tick _))
    (routeAndAct_carries (p.keeps_rules rules)) (fun _ _ => Carries.attempt fun _ hw => ⟨hw, hw⟩)
    (fun _ _ => Carries.attempt fun _ hw => ⟨hw, hw⟩) id

/-- What recording a redelivery and acting on a due event leave of the world `w`, a call to
`process` in `w` leaves. -/
theorem process_from {p : RecoveryPipeline τ} {C Q : World S (Env τ) → Prop} {id : Nat}
    {w : World S (Env τ)} (hC : C w) (hQ : Q w)
    (hduplicate : ∀ event earlier, Redelivered w.env.db id event earlier →
      Triple C (fun v => v = w) (recordDuplicate id event earlier : Pipe S τ Nat) fun _ => Q)
    (hhandle : ∀ event, Due w.env.db id event →
      Triple C (fun v => v = w) (p.handle id event : Pipe S τ Nat) fun _ => Q) :
    (∀ c ∈ (p.process id).cuts w, C c) ∧ Q ((p.process id).run w).2 := by
  rcases p.process_cases id w with ⟨answer, _, hrun, hcuts⟩ | ⟨event, earlier, hre, hrun, hcuts⟩ |
    ⟨event, hdue, hrun, hcuts⟩
  · rw [hrun]
    exact ⟨fun c hc => hcuts c hc ▸ hC, hQ⟩
  · have hspec := hduplicate event earlier hre w rfl
    rw [hrun, run_map]
    refine ⟨fun c hc => ?_, hspec.2⟩
    rcases hcuts c hc with rfl | hmem
    · exact hC
    · exact hspec.1 c hmem
  · have hspec := hhandle event hdue w rfl
    rw [hrun, run_map]
    refine ⟨fun c hc => ?_, hspec.2⟩
    rcases hcuts c hc with rfl | hmem
    · exact hC
    · exact hspec.1 c hmem

/-! ## The two tables, wherever the process dies -/

/-- The fields of a redelivery's row. -/
def duplicateFields (earlier : LedgerEntry) : LedgerFields where
  path := .duplicateDelivery
  outcome := "duplicate"
  error := some ("duplicate of ledger row " ++ toString earlier.id ++ "; not re-processed")

/-- The ledger and the event table are those of `w`. -/
def SameTables (w c : World S (Env τ)) : Prop :=
  c.env.db.ledger = w.env.db.ledger ∧ c.env.db.events = w.env.db.events

/-- The row of the event was recorded; of the events only what routing notes on them may be
different. -/
structure Recorded (id : Nat) (event : NormalisedEvent) (fields : LedgerFields)
    (w c : World S (Env τ)) : Prop where
  ledger : c.env.db.ledger = (w.env.db.ledger.record (baseOf id event) fields).2
  events : c.env.db.events.map InternalEvent.unmarked = w.env.db.events.map InternalEvent.unmarked

/-- What a call to `process` may have written when it ends or dies. -/
inductive Writes (id : Nat) (w c : World S (Env τ)) : Prop
  | nothing (h : SameTables w c)
  | duplicate (event : NormalisedEvent) (earlier : LedgerEntry)
    (hre : Redelivered w.env.db id event earlier)
    (h : Recorded id event (duplicateFields earlier) w c)
  | acted (event : NormalisedEvent) (latency : ℚ) (hdue : Due w.env.db id event)
    (h : Recorded id event { fieldsOf (p.acted event w).1 with latencyMs := latency } w c)

/-- Acting on a due event writes its row and then its mark, and nothing before. -/
theorem handle_writes {id : Nat} {event : NormalisedEvent} {w : World S (Env τ)}
    (hdue : Due w.env.db id event) :
    Triple (p.Writes id w) (fun v => v = w) (p.handle id event : Pipe S τ Nat)
      fun _ => p.Writes id w := by
  have hkeeps := p.keeps_tables (S := S) w.env.db.ledger w.env.db.events
  have hstart : Triple (p.Writes id w) (fun v => v = w)
      (onEnv (fun env => env.tick p.monotonic) : Pipe S τ ℚ) fun _ v => v = p.started w :=
    Triple.step fun v hv => by
      subst hv
      exact ⟨.nothing ⟨rfl, rfl⟩, rfl⟩
  -- what was raised is caught, and the tables are as they were
  have hacted : Triple (p.Writes id w) (fun v => v = p.started w)
      (tryCatch (p.routeAndAct event) fun exc =>
        (pure (failedFields exc) : Pipe S τ LedgerFields))
      fun answer v => answer = .ok (fieldsOf (p.acted event w).1) ∧ SameTables w v := by
    intro v hv
    subst hv
    refine ⟨fun c hc => .nothing ?_, ?_⟩
    · exact (Carries.tryCatch (routeAndAct_carries hkeeps event)
        (fun _ => .pure _) (p.started w) ⟨rfl, rfl⟩).1 c hc
    · have htables := p.acted_tables event w
      rw [run_tryCatch]
      unfold acted at htables ⊢
      cases hrun : (p.routeAndAct event).run (p.started w) with
      | mk answer w' =>
        rw [hrun] at htables
        cases answer <;> exact ⟨rfl, htables⟩
  refine Triple.bind hstart (fun start => ?_) fun _ _ hv => hv ▸ .nothing ⟨rfl, rfl⟩
  refine Triple.bind (Triple.pre hacted fun v hv => hv) (fun fields => ?_)
    fun _ _ hv => .nothing hv.2
  refine Triple.bind (Q := fun _ v => fields = fieldsOf (p.acted event w).1 ∧ SameTables w v)
    (Triple.step fun v hv => ?_) (fun ended => ?_) fun _ _ hv => .nothing hv.2
  · injection hv.1 with hfields
    exact ⟨.nothing hv.2, hfields, hv.2⟩
  refine Triple.bind (Q := fun _ v => Recorded id event
      { fieldsOf (p.acted event w).1 with latencyMs := (ended - start) * 1000 } w v)
    (Triple.attempt fun v hv => ?_) (fun ledgerId => ?_) fun _ _ hv => .acted event _ hdue hv
  · have hrecorded : Recorded id event
        { fieldsOf (p.acted event w).1 with latencyMs := (ended - start) * 1000 } w
        ({ v with env := { v.env with db := { v.env.db with ledger :=
          (v.env.db.ledger.record (baseOf id event)
            { fields with latencyMs := (ended - start) * 1000 }).2 } } } : World S (Env τ)) := by
      refine ⟨?_, congrArg _ hv.2.2⟩
      show (v.env.db.ledger.record _ _).2 = _
      rw [hv.2.1, hv.1]
    exact ⟨.acted event _ hdue hrecorded, hrecorded⟩
  · refine Triple.bind (Q := fun _ => p.Writes id w) (Triple.attempt fun v hv => ?_)
      (fun _ => Triple.pure fun _ hv => hv) fun _ _ hv => hv
    have hmarked : ∀ v' : World S (Env τ), v'.env.db.ledger = v.env.db.ledger →
        v'.env.db.events.map InternalEvent.unmarked = v.env.db.events.map InternalEvent.unmarked →
        p.Writes id w v' := fun v' hledger hevents =>
      .acted event _ hdue ⟨hledger.trans hv.ledger, hevents.trans hv.events⟩
    refine ⟨hmarked _ rfl ?_, hmarked _ rfl ?_⟩
    · exact map_updateBy fun _ => rfl
    · exact map_updateBy fun _ => rfl

/-- A call writes nothing, a redelivery, or the row of the event it acted on. -/
theorem process_writes (id : Nat) (w : World S (Env τ)) :
    (∀ c ∈ (p.process id).cuts w, p.Writes id w c) ∧ p.Writes id w ((p.process id).run w).2 := by
  refine process_from (.nothing ⟨rfl, rfl⟩) (.nothing ⟨rfl, rfl⟩) (fun event earlier hre => ?_)
    fun event hdue => p.handle_writes hdue
  refine Triple.attempt fun v hv => ?_
  subst hv
  exact ⟨.duplicate event earlier hre ⟨rfl, rfl⟩, .duplicate event earlier hre ⟨rfl, rfl⟩⟩

/-- A drain keeps what each of its calls keeps. -/
theorem processPending_carries {C I : World S (Env τ) → Prop} (hcut : ∀ w, I w → C w)
    (h : ∀ id, Carries C I (p.process id)) (limit : Nat) :
    Carries C I (p.processPending limit) := by
  have hall : ∀ ids, Carries C I (p.processAll ids) := by
    intro ids
    induction ids with
    | nil => exact .pure _
    | cons id rest ih => exact Carries.bind (h id) fun _ => ih
  refine Carries.bind (Carries.read _ fun w hw => hcut w hw) fun ids => ?_
  exact Carries.bind (hall ids) fun _ => .pure _

end RecoveryPipeline

end PaymentRecovery.Recovery

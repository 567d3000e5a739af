import PaymentRecovery.Recovery.Processing
import PaymentRecovery.Lib.Run

/-!
# Histories of the live application

Webhook deliveries, calls to `process` in any order and the drain at startup,
while the rules and the world outside change in between. A process may die after
any transaction; what comes next goes on from the state it left. Whatever
happens, each failed payment gets one row, a provider event is acted on at most
once, and redeliveries change nothing but the ledger.
-/

namespace PaymentRecovery.Recovery

open PaymentRecovery.Python PaymentRecovery.Guardrails PaymentRecovery.Providers
open PaymentRecovery.Lib PaymentRecovery.Lib.Table Program

variable {S τ : Type}

/-- A process lives to the end of its call, or dies after some transactions of it. -/
inductive Fate where
  | lives
  | dies (n : Nat)

/-- The state a call leaves. -/
def Fate.leaves {α : Type} (fate : Fate) (program : Pipe S τ α) (w : World S (Env τ)) :
    World S (Env τ) :=
  match fate with
  | .lives => (program.run w).2
  | .dies n => program.after n w

/-- What can happen. A restart may come with other settings, providers or another LLM, so
every call has its own pipeline. -/
inductive Op (τ : Type) where
  | deliver (event : NormalisedEvent)
  | process (p : RecoveryPipeline τ) (id : Nat) (fate : Fate)
  | drain (p : RecoveryPipeline τ) (limit : Nat) (fate : Fate)
  | changeRules (rows : List RuleRow)
  | outside (f : τ → τ)

variable [GuardStore S]

/-- The world after one of these. -/
def Op.run (op : Op τ) (w : World S (Env τ)) : Unit × World S (Env τ) :=
  ((), match op with
    | .deliver event => { w with env := { w.env with db := (w.env.db.persistInternal event).2 } }
    | .process p id fate => fate.leaves (p.process id) w
    | .drain p limit fate => fate.leaves (p.processPending limit) w
    | .changeRules rows => { w with env := { w.env with db := { w.env.db with rules := rows } } }
    | .outside f => { w with env := { w.env with outer := f w.env.outer } })

/-- The world after a history. -/
def runOps (ops : List (Op τ)) (w : World S (Env τ)) : World S (Env τ) :=
  Run.exec Op.run ops w

/-- A recovery database without events, over any guard store. -/
def World.opened (store : S) (outer : τ) (rules : List RuleRow) : World S (Env τ) :=
  ⟨store, ⟨⟨[], .empty, [], rules⟩, outer, [], []⟩, []⟩

/-! ## Invariants of the ledger and the event table -/

/-- The rows of a provider event that were acted on. -/
def Ledger.actedOn (ledger : Ledger) (provider eventId : String) : List LedgerEntry :=
  ledger.rows.filter fun row =>
    row.provider = provider ∧ row.eventId = eventId ∧ LedgerPath.counts row.path

theorem Ledger.processedDelivery_eq (ledger : Ledger) {provider eventId : String}
    (h : eventId ≠ "") :
    ledger.processedDelivery provider eventId = (ledger.actedOn provider eventId).head? := by
  unfold processedDelivery actedOn
  rw [if_neg h, List.head?_filter]

/-- Every stored event can be read back, and no provider event was acted on twice. -/
structure Orderly (db : Database) : Prop where
  readable : ∀ row ∈ db.events, ∃ event, row.normalised = .ok event
  once : ∀ provider eventId, eventId ≠ "" →
    (db.ledger.actedOn provider eventId).length ≤ 1

namespace Orderly

variable {db : Database}

theorem congr {db' : Database} (h : Orderly db) (hledger : db'.ledger = db.ledger)
    (hevents : db'.events = db.events) : Orderly db' :=
  ⟨hevents ▸ h.readable, hledger ▸ h.once⟩

/-- A row that does not count, or the first one that does. -/
theorem recorded (h : Orderly db) {base : LedgerBase} {fields : LedgerFields}
    (hnew : db.ledger.forEvent base.internalEventId = none)
    (hfirst : Ledger.LedgerPath.counts fields.path = true →
      db.ledger.processedDelivery base.provider base.eventId = none) :
    Orderly { db with ledger := (db.ledger.record base fields).2 } := by
  refine ⟨h.readable, fun provider eventId hne => ?_⟩
  show ((db.ledger.record base fields).2.actedOn provider eventId).length ≤ 1
  unfold Ledger.actedOn
  rw [(Ledger.record_new _ _ hnew).2, List.filter_append, List.length_append]
  by_cases hcounts : base.provider = provider ∧ base.eventId = eventId ∧
      Ledger.LedgerPath.counts fields.path = true
  · obtain ⟨hp, he, hc⟩ := hcounts
    have hnone := hfirst hc
    rw [hp, he, Ledger.processedDelivery_eq _ hne, List.head?_eq_none_iff] at hnone
    unfold Ledger.actedOn at hnone
    rw [hnone, List.length_nil, Nat.zero_add]
    exact List.length_filter_le _ _
  · have hskip : List.filter (fun row : LedgerEntry => decide (row.provider = provider ∧
        row.eventId = eventId ∧ Ledger.LedgerPath.counts row.path))
          [db.ledger.newRow base fields] = [] := by
      rw [List.filter_eq_nil_iff]
      intro row hrow
      rw [List.mem_singleton.mp hrow]
      exact fun h => hcounts (of_decide_eq_true h)
    rw [hskip]
    exact h.once provider eventId hne

/-- Marking an event keeps what it was normalised from. -/
theorem readable_of_unmarked (h : Orderly db) {events : List InternalEvent}
    (hevents : events.map InternalEvent.unmarked = db.events.map InternalEvent.unmarked)
    (row : InternalEvent) (hrow : row ∈ events) : ∃ event, row.normalised = .ok event := by
  obtain ⟨old, hold, hsame⟩ := List.mem_map.mp (hevents ▸ List.mem_map_of_mem hrow)
  obtain ⟨event, hevent⟩ := h.readable old hold
  refine ⟨event, ?_⟩
  rw [← InternalEvent.normalised_unmarked, ← hsame, InternalEvent.normalised_unmarked]
  exact hevent

theorem delivered (h : Orderly db) (event : NormalisedEvent) :
    Orderly (db.persistInternal event).2 := by
  refine ⟨fun row hrow => ?_, h.once⟩
  rcases List.mem_append.mp hrow with hmem | hmem
  · exact h.readable row hmem
  · rw [List.mem_singleton.mp hmem]
    exact ⟨event, InternalEvent.normalised_ofNormalised _ _⟩

/-- The row of a provider event that counts is the only one. -/
theorem acted_unique (h : Orderly db) {provider eventId : String} (hne : eventId ≠ "")
    {row other : LedgerEntry} (hrow : row ∈ db.ledger.actedOn provider eventId)
    (hother : other ∈ db.ledger.actedOn provider eventId) : other = row := by
  have honce := h.once provider eventId hne
  generalize db.ledger.actedOn provider eventId = rows at honce hrow hother
  rcases rows with _ | ⟨only, _ | ⟨second, rest⟩⟩
  · cases hrow
  · rw [List.mem_singleton.mp hrow, List.mem_singleton.mp hother]
  · simp at honce

end Orderly

/-- The tables are in order, and no row of `rows` was lost. -/
def Grown (rows : List LedgerEntry) (w : World S (Env τ)) : Prop :=
  Orderly w.env.db ∧ rows <+: w.env.db.ledger.rows

/-! ## What a history keeps -/

omit [GuardStore S] in
/-- What holds at the start, in between and at the end of a call, it leaves. -/
theorem Fate.leaves_of_cuts {α : Type} {I : World S (Env τ) → Prop} {program : Pipe S τ α}
    (fate : Fate) {w : World S (Env τ)} (hw : I w) (hcuts : ∀ c ∈ program.cuts w, I c)
    (hend : I (program.run w).2) : I (fate.leaves program w) := by
  cases fate with
  | lives => exact hend
  | dies n =>
    rcases after_mem_cuts program n w with hsame | hmem
    · show I (program.after n w)
      rw [hsame]
      exact hw
    · exact hcuts _ hmem

omit [GuardStore S] in
/-- What a call carries, it leaves, whether the process lives or dies. -/
theorem Fate.leaves_of_carries {α : Type} {I : World S (Env τ) → Prop} {program : Pipe S τ α}
    (h : Carries I I program) (fate : Fate) {w : World S (Env τ)} (hw : I w) :
    I (fate.leaves program w) :=
  fate.leaves_of_cuts hw (h w hw).1 (h w hw).2

/-- The calls of a drain, as a machine. -/
def RecoveryPipeline.calling (p : RecoveryPipeline τ) (id : Nat) (w : World S (Env τ)) :
    Except PyExc (Option Nat) × World S (Env τ) :=
  (p.process id).run w

/-- `D` holds of every call to `process` that the operation makes, in the world the call
starts in. -/
def Op.Calls (D : RecoveryPipeline τ → World S (Env τ) → Nat → Prop) (w : World S (Env τ))
    (op : Op τ) : Prop :=
  match op with
  | .process p id _ => D p w id
  | .drain p limit _ => Run.Along p.calling (D p) (RecoveryPipeline.pendingIds w.env.db limit) w
  | _ => True

section Keeps

variable {I : World S (Env τ) → Prop} {D : RecoveryPipeline τ → World S (Env τ) → Nat → Prop}

/-- A drain keeps what each of its calls keeps, wherever it dies. -/
theorem processAll_keeps {p : RecoveryPipeline τ}
    (hcall : ∀ id w c, I w → D p w id → p.Writes id w c → I c) {ids : List Nat}
    {w : World S (Env τ)} (hw : I w) (hD : Run.Along p.calling (D p) ids w) :
    (∀ c ∈ (p.processAll ids).cuts w, I c) ∧ I ((p.processAll ids).run w).2 := by
  induction ids generalizing w with
  | nil => exact ⟨fun c hc => absurd hc List.not_mem_nil, hw⟩
  | cons id rest ih =>
    obtain ⟨hcuts, hend⟩ := p.process_writes id w
    have hnext : I ((p.process id).run w).2 := hcall id w _ hw hD.1 hend
    unfold RecoveryPipeline.processAll
    rw [cuts_bind, run_bind]
    have hrest := ih hnext hD.2
    cases hrun : (p.process id).run w with
    | mk answer w' =>
      rw [hrun] at hnext hrest
      cases answer with
      | error exc => exact ⟨fun c hc => hcall id w c hw hD.1 (hcuts c (by simpa using hc)), hnext⟩
      | ok answer =>
        refine ⟨fun c hc => ?_, hrest.2⟩
        rcases List.mem_append.mp hc with hmem | hmem
        · exact hcall id w c hw hD.1 (hcuts c hmem)
        · exact hrest.1 c hmem

/-- An invariant of histories: every call of `process` keeps it in what it writes, and so do
deliveries and what changes outside. -/
theorem Op.run_keeps
    (hcall : ∀ (p : RecoveryPipeline τ) id w c, I w → D p w id → p.Writes id w c → I c)
    (hdeliver : ∀ event w, I w → I ((Op.deliver event).run w).2)
    (hrules : ∀ rows w, I w → I ((Op.changeRules rows).run w).2)
    (houtside : ∀ f w, I w → I ((Op.outside f).run w).2) (op : Op τ) {w : World S (Env τ)}
    (hw : I w) (hD : op.Calls D w) : I (op.run w).2 := by
  cases op with
  | deliver event => exact hdeliver event w hw
  | process p id fate =>
    obtain ⟨hcuts, hend⟩ := p.process_writes id w
    exact fate.leaves_of_cuts hw (fun c hc => hcall p id w c hw hD (hcuts c hc))
      (hcall p id w _ hw hD hend)
  | drain p limit fate =>
    obtain ⟨hcuts, hend⟩ := processAll_keeps (hcall p) hw hD
    show I (fate.leaves (p.processPending limit) w)
    unfold RecoveryPipeline.processPending readDb
    refine fate.leaves_of_cuts hw (fun c hc => ?_) ?_
    · rw [cuts_bind, cuts_read, run_read] at hc
      rcases List.mem_cons.mp hc with rfl | hc
      · exact hw
      · -- after its last call the drain only returns
        dsimp only at hc
        rw [cuts_bind] at hc
        split at hc
        · exact hcuts c (by simpa using hc)
        · exact hcuts c (by simpa using hc)
    · rw [run_bind, run_read]
      dsimp only
      rw [run_bind]
      split
      · rename_i hrun
        rw [hrun] at hend
        exact hend
      · rename_i hrun
        rw [hrun] at hend
        exact hend
  | changeRules rows => exact hrules rows w hw
  | outside f => exact houtside f w hw

/-- An invariant that every call keeps, whatever it meets. -/
theorem Op.run_keeps_all (hcall : ∀ (p : RecoveryPipeline τ) id w c, I w → p.Writes id w c → I c)
    (hdeliver : ∀ event w, I w → I ((Op.deliver event).run w).2)
    (hrules : ∀ rows w, I w → I ((Op.changeRules rows).run w).2)
    (houtside : ∀ f w, I w → I ((Op.outside f).run w).2) (op : Op τ) {w : World S (Env τ)}
    (hw : I w) : I (op.run w).2 := by
  refine op.run_keeps (D := fun _ _ _ => True) (fun p id w c hI _ => hcall p id w c hI) hdeliver
    hrules houtside hw ?_
  cases op with
  | process p id fate => trivial
  | drain p limit fate => exact Run.along_of_forall (fun _ _ => trivial) w
  | deliver event => trivial
  | changeRules rows => trivial
  | outside f => trivial

/-- An invariant that a call to `process` carries through all its transactions. -/
theorem Op.run_carries (hcall : ∀ (p : RecoveryPipeline τ) id, Carries I I (p.process id))
    (hdeliver : ∀ event w, I w → I ((Op.deliver event).run w).2)
    (hrules : ∀ rows w, I w → I ((Op.changeRules rows).run w).2)
    (houtside : ∀ f w, I w → I ((Op.outside f).run w).2) (op : Op τ) {w : World S (Env τ)}
    (hw : I w) : I (op.run w).2 := by
  cases op with
  | process p id fate => exact fate.leaves_of_carries (hcall p id) hw
  | drain p limit fate =>
    exact fate.leaves_of_carries (p.processPending_carries (fun _ h => h) (hcall p) limit) hw
  | deliver event => exact hdeliver event w hw
  | changeRules rows => exact hrules rows w hw
  | outside f => exact houtside f w hw

end Keeps

/-- What a call writes keeps the tables in order and every row. -/
theorem Grown.writes {rows : List LedgerEntry} {p : RecoveryPipeline τ} {id : Nat}
    {w c : World S (Env τ)} (hw : Grown rows w) (h : p.Writes id w c) : Grown rows c := by
  -- a new row is the first that counts, or does not count
  have hrecorded : ∀ {event fields}, Unrecorded w.env.db id event →
      (Ledger.LedgerPath.counts fields.path = true →
        w.env.db.ledger.processedDelivery event.provider event.eventId = none) →
      RecoveryPipeline.Recorded id event fields w c → Grown rows c := by
    intro event fields hun hfirst hrec
    have horderly : Orderly { w.env.db with
        ledger := (w.env.db.ledger.record (RecoveryPipeline.baseOf id event) fields).2 } :=
      hw.1.recorded hun.norow hfirst
    refine ⟨⟨fun row hrow => ?_, hrec.ledger ▸ horderly.once⟩, ?_⟩
    · exact hw.1.readable_of_unmarked hrec.events row hrow
    · rw [hrec.ledger, (Ledger.record_new _ _ (by exact hun.norow)).2]
      exact hw.2.trans (List.prefix_append _ _)
  cases h with
  | nothing hsame => exact ⟨hw.1.congr hsame.1 hsame.2, hsame.1 ▸ hw.2⟩
  | duplicate event earlier hre hrec =>
    exact hrecorded hre.toUnrecorded (fun hcounts => by cases hcounts) hrec
  | acted event latency hdue hrec => exact hrecorded hdue.toUnrecorded (fun _ => hdue.first) hrec

theorem runOp_grown (rows : List LedgerEntry) (op : Op τ) {w : World S (Env τ)}
    (hw : Grown rows w) : Grown rows (op.run w).2 :=
  op.run_keeps_all (I := Grown rows) (fun _ _ _ _ => Grown.writes)
    (fun event _ h => ⟨h.1.delivered event, h.2⟩) (fun _ _ h => ⟨h.1.congr rfl rfl, h.2⟩)
    (fun _ _ h => h) hw

/-- After any history the tables are in order, and rows are only ever added. -/
theorem runOps_grown (rows : List LedgerEntry) (ops : List (Op τ)) {w : World S (Env τ)}
    (hw : Grown rows w) : Grown rows (runOps ops w) :=
  Run.exec_inv (P := Grown rows) (fun _ op h => runOp_grown rows op h) hw

omit [GuardStore S] in
theorem grown_opened (store : S) (outer : τ) (rules : List RuleRow) :
    Grown [] (World.opened store outer rules) :=
  ⟨⟨fun _ hrow => absurd hrow List.not_mem_nil, fun _ _ _ => Nat.zero_le 1⟩, List.nil_prefix⟩

/-- Events are numbered from one, and every ledger row is about one of them. -/
structure Numbered (w : World S (Env τ)) : Prop where
  ids : w.env.db.events.map InternalEvent.id = List.range' 1 w.env.db.events.length
  rows : ∀ row ∈ w.env.db.ledger.rows, row.internalEventId ≤ w.env.db.events.length

namespace Numbered

variable {w : World S (Env τ)}

omit [GuardStore S] in
theorem opened (store : S) (outer : τ) (rules : List RuleRow) :
    Numbered (World.opened store outer rules) :=
  ⟨rfl, fun _ hrow => absurd hrow List.not_mem_nil⟩

omit [GuardStore S] in
/-- An event in the table has one of the numbers given so far. -/
theorem le_of_event (h : Numbered w) {id : Nat} {row : InternalEvent}
    (hrow : w.env.db.event id = some row) : id ≤ w.env.db.events.length := by
  obtain ⟨hmem, hid⟩ := selectBy_some hrow
  have hrange : id ∈ List.range' 1 w.env.db.events.length :=
    h.ids ▸ hid ▸ List.mem_map_of_mem hmem
  rw [List.mem_range'_1] at hrange
  omega

omit [GuardStore S] in
theorem congr {c : World S (Env τ)} (h : Numbered w)
    (hevents : c.env.db.events.map InternalEvent.unmarked =
      w.env.db.events.map InternalEvent.unmarked)
    (hrows : ∀ row ∈ c.env.db.ledger.rows, row.internalEventId ≤ w.env.db.events.length) :
    Numbered c := by
  have hids : c.env.db.events.map InternalEvent.id = w.env.db.events.map InternalEvent.id := by
    have hcol := congrArg (List.map InternalEvent.id) hevents
    rw [List.map_map, List.map_map] at hcol
    exact hcol
  have hlength : c.env.db.events.length = w.env.db.events.length := by
    rw [← List.length_map InternalEvent.id, hids, List.length_map]
  exact ⟨by rw [hids, hlength]; exact h.ids, by rw [hlength]; exact hrows⟩

theorem writes (h : Numbered w) {p : RecoveryPipeline τ} {id : Nat} {c : World S (Env τ)}
    (hwrites : p.Writes id w c) : Numbered c := by
  have hrecorded : ∀ {event fields}, Unrecorded w.env.db id event →
      RecoveryPipeline.Recorded id event fields w c → Numbered c := by
    intro event fields hun hrec
    refine h.congr hrec.events fun row hrow => ?_
    rw [hrec.ledger, (Ledger.record_new _ _ (by exact hun.norow)).2] at hrow
    rcases List.mem_append.mp hrow with hmem | hmem
    · exact h.rows row hmem
    · obtain ⟨stored, hstored, _⟩ := hun.row
      rw [List.mem_singleton.mp hmem]
      exact h.le_of_event hstored
  cases hwrites with
  | nothing hsame => exact h.congr (congrArg _ hsame.2) (hsame.1 ▸ h.rows)
  | duplicate event earlier hre hrec => exact hrecorded hre.toUnrecorded hrec
  | acted event latency hdue hrec => exact hrecorded hdue.toUnrecorded hrec

omit [GuardStore S] in
theorem delivered (h : Numbered w) (event : NormalisedEvent) :
    Numbered ({ w with env := { w.env with db := (w.env.db.persistInternal event).2 } } :
      World S (Env τ)) := by
  refine ⟨?_, fun row hrow => ?_⟩
  · show (w.env.db.events ++ [_]).map InternalEvent.id = _
    rw [List.map_append, h.ids]
    show _ = List.range' 1 (w.env.db.events ++ [_]).length
    rw [List.length_append, List.length_singleton, List.range'_concat, Nat.one_mul, Nat.add_comm 1]
    rfl
  · have hle := h.rows row hrow
    show _ ≤ (w.env.db.events ++ [_]).length
    rw [List.length_append]
    omega

theorem runOp (h : Numbered w) (op : Op τ) : Numbered (op.run w).2 :=
  op.run_keeps_all (I := Numbered) (fun _ _ _ _ hI hwrites => hI.writes hwrites)
    (fun event _ hI => hI.delivered event) (fun _ _ hI => ⟨hI.ids, hI.rows⟩)
    (fun _ _ hI => ⟨hI.ids, hI.rows⟩) h

theorem runOps (h : Numbered w) (ops : List (Op τ)) : Numbered (runOps ops w) :=
  Run.exec_inv (P := Numbered) (fun _ op hI => hI.runOp op) h

omit [GuardStore S] in
/-- The next event finds no row under its number. -/
theorem norow_next (h : Numbered w) :
    w.env.db.ledger.forEvent (w.env.db.events.length + 1) = none := by
  rw [Ledger.forEvent_none]
  intro row hrow he
  have hle := h.rows row hrow
  omega

omit [GuardStore S] in
/-- And is found under it. -/
theorem event_next (h : Numbered w) (event : NormalisedEvent) :
    (w.env.db.persistInternal event).2.event (w.env.db.events.length + 1) =
      some (.ofNormalised (w.env.db.events.length + 1) event) := by
  show selectBy InternalEvent.id _ (w.env.db.events ++ [_]) = some _
  have hnew : selectBy InternalEvent.id (w.env.db.events.length + 1) w.env.db.events = none := by
    cases hold : selectBy InternalEvent.id (w.env.db.events.length + 1) w.env.db.events with
    | none => rfl
    | some row =>
      have hle := h.le_of_event (by exact hold)
      omega
  exact (selectBy_insert rfl hnew _).trans (if_pos rfl)

/-- A redelivery, or a first delivery, is an event without a row. -/
theorem unrecorded_delivered (h : Numbered w) {event : NormalisedEvent}
    (hfailed : event.eventType = .paymentFailed) :
    Unrecorded ((Op.deliver event).run w).2.env.db (w.env.db.events.length + 1) event :=
  ⟨h.norow_next, ⟨_, h.event_next event, InternalEvent.normalised_ofNormalised _ event⟩, hfailed⟩

end Numbered

/-! ## Redeliveries -/

theorem InternalEvent.normalised_ok {row : InternalEvent} {event : NormalisedEvent}
    (h : row.normalised = .ok event) :
    event.provider = row.provider ∧ event.eventId = row.eventId ∧
    event.paymentId = row.paymentId ∧ EventType.ofValue row.eventType = .ok event.eventType := by
  unfold InternalEvent.normalised at h
  cases htype : EventType.ofValue row.eventType with
  | error exc =>
    rw [htype] at h
    cases h
  | ok eventType =>
    rw [htype] at h
    cases hreason : row.failureReason with
    | none =>
      rw [hreason] at h
      injection h with h
      subst h
      exact ⟨rfl, rfl, rfl, rfl⟩
    | some reason =>
      rw [hreason] at h
      by_cases hempty : reason = ""
      · simp only [hempty, if_true] at h
        injection h with h
        subst h
        exact ⟨rfl, rfl, rfl, rfl⟩
      · simp only [hempty, if_false] at h
        cases hof : FailureReason.ofValue reason with
        | error exc =>
          rw [hof] at h
          cases h
        | ok value =>
          rw [hof] at h
          injection h with h
          subst h
          exact ⟨rfl, rfl, rfl, rfl⟩

/-- A row that counts is found again by its provider and event id. -/
theorem Ledger.processedDelivery_ne_none {ledger : Ledger} {row : LedgerEntry}
    (hmem : row ∈ ledger.rows) (hne : row.eventId ≠ "")
    (hpath : row.path = .deterministic ∨ row.path = .llm) :
    ledger.processedDelivery row.provider row.eventId ≠ none := by
  rw [processedDelivery_eq _ hne, Ne, List.head?_eq_none_iff]
  refine List.ne_nil_of_mem (a := row) (List.mem_filter.mpr ⟨hmem, ?_⟩)
  rcases hpath with h | h <;> simp [h, LedgerPath.counts]

/-- Only the ledger is different, and by one redelivery at most. -/
structure OnlyRecorded (w w' : World S (Env τ)) : Prop where
  store : w'.store = w.store
  journal : w'.journal = w.journal
  outer : w'.env.outer = w.env.outer
  calls : w'.env.calls = w.env.calls
  applied : w'.env.applied = w.env.applied
  events : w'.env.db.events = w.env.db.events
  trajectories : w'.env.db.trajectories = w.env.db.trajectories
  rows : w'.env.db.ledger.rows = w.env.db.ledger.rows ∨ ∃ new : LedgerEntry,
    new.path = .duplicateDelivery ∧ w'.env.db.ledger.rows = w.env.db.ledger.rows ++ [new]

omit [GuardStore S] in
theorem OnlyRecorded.refl (w : World S (Env τ)) : OnlyRecorded w w :=
  ⟨rfl, rfl, rfl, rfl, rfl, rfl, rfl, .inl rfl⟩

omit [GuardStore S] in
/-- Recording a redelivery is one transaction on the ledger. -/
theorem recordDuplicate_only {id : Nat} {event : NormalisedEvent} (earlier : LedgerEntry)
    {w : World S (Env τ)} (hun : Unrecorded w.env.db id event) :
    ∃ w', (RecoveryPipeline.recordDuplicate id event earlier : Pipe S τ Nat).run w =
        (.ok (w.env.db.ledger.rows.length + 1), w') ∧
      (RecoveryPipeline.recordDuplicate id event earlier : Pipe S τ Nat).cuts w = [w'] ∧
      OnlyRecorded w w' ∧ ∃ new, w'.env.db.ledger.rows = w.env.db.ledger.rows ++ [new] ∧
        new.internalEventId = id ∧ new.id = w.env.db.ledger.rows.length + 1 ∧
        new.path = .duplicateDelivery ∧ new.outcome = "duplicate" := by
  unfold RecoveryPipeline.recordDuplicate RecoveryPipeline.record writeDb
  rw [run_attempt, cuts_attempt]
  dsimp only
  obtain ⟨hid, hrows⟩ := Ledger.record_new (RecoveryPipeline.baseOf id event)
    { path := .duplicateDelivery, outcome := "duplicate",
      error := some ("duplicate of ledger row " ++ toString earlier.id ++ "; not re-processed") }
    (by exact hun.norow)
  rw [hid]
  exact ⟨_, rfl, rfl, ⟨rfl, rfl, rfl, rfl, rfl, rfl, rfl, .inr ⟨_, rfl, hrows⟩⟩, _, hrows, rfl,
    rfl, rfl, rfl⟩

/-- A call on an event whose delivery was acted on records at most a redelivery, wherever
it dies. -/
theorem process_redelivered (p : RecoveryPipeline τ) {w : World S (Env τ)}
    {acted : LedgerEntry} (hmem : acted ∈ w.env.db.ledger.rows) (hne : acted.eventId ≠ "")
    (hpath : acted.path = .deterministic ∨ acted.path = .llm) {id : Nat} {row : InternalEvent}
    (hrow : w.env.db.event id = some row) (hprovider : row.provider = acted.provider)
    (heventId : row.eventId = acted.eventId) (fate : Fate) :
    OnlyRecorded w (fate.leaves (p.process id) w) := by
  have hends : OnlyRecorded w ((p.process id).run w).2 ∧
      ∀ c ∈ (p.process id).cuts w, OnlyRecorded w c := by
    rcases p.process_cases id w with ⟨answer, _, hrun, hcuts⟩ |
      ⟨event, earlier, hre, hrun, hcuts⟩ | ⟨event, hdue, _, _⟩
    · rw [hrun]
      exact ⟨.refl w, fun c hc => hcuts c hc ▸ .refl w⟩
    · obtain ⟨w', hrun', hcuts', honly, _⟩ := recordDuplicate_only earlier hre.toUnrecorded
      rw [hrun, run_map, hrun']
      refine ⟨honly, fun c hc => ?_⟩
      rcases hcuts c hc with rfl | hc
      · exact .refl _
      · rw [hcuts'] at hc
        exact List.mem_singleton.mp hc ▸ honly
    · -- a due event is the first of its delivery
      obtain ⟨row', hrow', hnormalised⟩ := hdue.row
      rw [hrow] at hrow'
      obtain ⟨hp, he, _⟩ := InternalEvent.normalised_ok (Option.some.inj hrow' ▸ hnormalised)
      have hfirst := hdue.first
      rw [hp, he, hprovider, heventId] at hfirst
      exact absurd hfirst (Ledger.processedDelivery_ne_none hmem hne hpath)
  cases fate with
  | lives => exact hends.1
  | dies n =>
    rcases after_mem_cuts (p.process id) n w with hsame | hcut
    · show OnlyRecorded w ((p.process id).after n w)
      rw [hsame]
      exact .refl w
    · exact hends.2 _ hcut

/-! ## Completed calls -/

theorem process_recorded (p : RecoveryPipeline τ) {id : Nat} {w : World S (Env τ)}
    {entry : LedgerEntry} (h : w.env.db.ledger.forEvent id = some entry) :
    (p.process id).run w = (.ok (some entry.id), w) := by
  unfold RecoveryPipeline.process readDb
  rw [run_bind, run_read]
  dsimp only
  rw [h]
  rfl

/-- The rows of one event, after its row was appended. -/
theorem rows_of_event {ledger ledger' : Ledger} {id : Nat} {new : LedgerEntry}
    (hnone : ledger.forEvent id = none) (hrows : ledger'.rows = ledger.rows ++ [new])
    (hnew : new.internalEventId = id) :
    (ledger'.rows.filter fun row => row.internalEventId = id) = [new] := by
  rw [hrows, List.filter_append]
  have hold : (ledger.rows.filter fun row => row.internalEventId = id) = [] := by
    rw [List.filter_eq_nil_iff]
    intro row hrow
    simpa using Ledger.forEvent_none.mp hnone row hrow
  rw [hold]
  simp [hnew]

/-- In a database in order a call returns, and on a failed payment it leaves one row. -/
theorem process_completes (p : RecoveryPipeline τ) (id : Nat) {w : World S (Env τ)}
    (horderly : Orderly w.env.db) :
    (∃ answer, ((p.process id).run w).1 = .ok answer) ∧
    ∀ row, w.env.db.event id = some row → row.eventType = EventType.paymentFailed.value →
      ∃ entry, ((p.process id).run w).1 = .ok (some entry.id) ∧
        (((p.process id).run w).2.env.db.ledger.rows.filter fun r => r.internalEventId = id) =
          [entry] := by
  rcases p.process_cases id w with ⟨answer, hidle, hrun, _⟩ | ⟨event, earlier, hre, hrun, _⟩ |
    ⟨event, hdue, hrun, _⟩
  · rw [hrun]
    cases hidle with
    | recorded entry hentry =>
      refine ⟨⟨_, rfl⟩, fun row _ _ => ⟨entry, rfl, ?_⟩⟩
      -- the ledger holds no second row of the event
      obtain ⟨hmem, hid⟩ := Ledger.forEvent_some hentry
      have hone : (w.env.db.ledger.rows.filter fun r => r.internalEventId = entry.internalEventId) =
          [entry] := filter_of_mem w.env.db.ledger.unique hmem
      rw [← hid]
      exact hone
    | unknown _ hevent => exact ⟨⟨_, rfl⟩, fun row hrow => by rw [hevent] at hrow; cases hrow⟩
    | unreadable row exc _ hrow hexc =>
      obtain ⟨event, hevent⟩ := horderly.readable row (selectBy_some hrow).1
      rw [hevent] at hexc
      cases hexc
    | notFailed row event _ hrow hevent htype =>
      refine ⟨⟨_, rfl⟩, fun row' hrow' hfailed => absurd ?_ htype⟩
      obtain ⟨_, _, _, hof⟩ := InternalEvent.normalised_ok hevent
      rw [Option.some.inj (hrow.symm.trans hrow'), hfailed, EventType.ofValue_value] at hof
      injection hof with hof
      exact hof.symm
  · obtain ⟨w', hrun', _, _, new, hrows, hid, hnew, _⟩ :=
      recordDuplicate_only earlier hre.toUnrecorded
    rw [hrun, run_map, hrun']
    exact ⟨⟨_, rfl⟩, fun row _ _ => ⟨new, by rw [hnew]; rfl, rows_of_event hre.norow hrows hid⟩⟩
  · obtain ⟨w', hrun', hhandled⟩ := p.handle_run event hdue.norow
    obtain ⟨latency, hrows⟩ := hhandled.rows
    rw [hrun, run_map, hrun']
    exact ⟨⟨_, rfl⟩, fun row _ _ => ⟨_, rfl, rows_of_event hdue.norow hrows rfl⟩⟩

/-- **At-most-once event processing.** After any history of deliveries, calls and drains,
with processes dying anywhere: every call returns, and on a failed payment it leaves exactly
one row, whose id it returns; at most one row of a provider event was acted on; once there
is one, a later call on any delivery of the event changes the ledger alone, by a redelivery
at most; and a call on an event that has its row answers that row and changes nothing. -/
theorem event_processed_at_most_once (store : S) (outer : τ) (rules : List RuleRow)
    (ops : List (Op τ)) :
    let w := runOps ops (World.opened store outer rules)
    (∀ (p : RecoveryPipeline τ) id, (∃ answer, ((p.process id).run w).1 = .ok answer) ∧
      ∀ row, w.env.db.event id = some row → row.eventType = EventType.paymentFailed.value →
        ∃ entry, ((p.process id).run w).1 = .ok (some entry.id) ∧
          (((p.process id).run w).2.env.db.ledger.rows.filter fun r => r.internalEventId = id) =
            [entry]) ∧
    (∀ provider eventId, eventId ≠ "" →
      (w.env.db.ledger.rows.filter fun row => row.provider = provider ∧ row.eventId = eventId ∧
        (row.path = .deterministic ∨ row.path = .llm)).length ≤ 1) ∧
    (∀ acted ∈ w.env.db.ledger.rows, acted.eventId ≠ "" →
      (acted.path = .deterministic ∨ acted.path = .llm) →
      ∀ (later : List (Op τ)) (p : RecoveryPipeline τ) id row,
        (runOps later w).env.db.event id = some row → row.provider = acted.provider →
        row.eventId = acted.eventId → ∀ fate : Fate,
          OnlyRecorded (runOps later w) (fate.leaves (p.process id) (runOps later w))) ∧
    ∀ (p : RecoveryPipeline τ) id entry, w.env.db.ledger.forEvent id = some entry →
      (p.process id).run w = (.ok (some entry.id), w) := by
  intro w
  have hgrown : Grown [] w := runOps_grown [] ops (grown_opened store outer rules)
  refine ⟨fun p id => process_completes p id hgrown.1, fun provider eventId hne => ?_,
    fun acted hmem hne hpath later p id row hrow hprovider heventId fate => ?_,
    fun p id entry hentry => process_recorded p hentry⟩
  · have honce := hgrown.1.once provider eventId hne
    unfold Ledger.actedOn at honce
    refine le_of_eq_of_le ?_ honce
    congr 2
    funext row
    cases row.path <;> simp [Ledger.LedgerPath.counts]
  · -- the row is still there later
    have hlater : Grown w.env.db.ledger.rows (runOps later w) :=
      runOps_grown _ later ⟨hgrown.1, List.prefix_rfl⟩
    exact process_redelivered p (hlater.2.subset hmem) hne hpath hrow hprovider heventId fate

end PaymentRecovery.Recovery

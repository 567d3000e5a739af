import PaymentRecovery.Recovery.Alongside
import PaymentRecovery.Recovery.Aside
import PaymentRecovery.Recovery.Effects

/-!
# Providers side by side

All providers share one guard store, and its runs and keys are made of payment
ids alone. Two sequences of events with the same events of one provider, and any
of the others in between, come to the same for that provider as long as no other
provider tells a payment under an id of its own.
-/

namespace PaymentRecovery.Recovery

open PaymentRecovery.Python PaymentRecovery.Guardrails PaymentRecovery.Providers
open PaymentRecovery.Agent PaymentRecovery.Lib Program

variable {S τ δ κ ρ α : Type}

/-! ## What a provider sees -/

/-- The calls this provider gets. -/
def callTo (P : String) (call : OuterCall) : Bool := call = .provider P

/-- What the ledger tells of an event. -/
structure Told where
  eventId : String
  paymentId : String
  verdict : Verdict

def LedgerEntry.told (row : LedgerEntry) : Told :=
  ⟨row.eventId, row.paymentId, row.toLedgerFields.verdict⟩

namespace Ledger

/-- What the ledger tells of the events of a provider, in order. -/
def toldOf (ledger : Ledger) (P : String) : List Told :=
  (ledger.rows.filter fun row => row.provider = P).map LedgerEntry.told

theorem toldOf_record {ledger : Ledger} {base : LedgerBase} {fields : LedgerFields}
    (hnew : ledger.forEvent base.internalEventId = none) (P : String) :
    (ledger.record base fields).2.toldOf P = ledger.toldOf P ++
      if base.provider = P then [⟨base.eventId, base.paymentId, fields.verdict⟩] else [] := by
  unfold toldOf
  rw [(record_new base fields hnew).2, List.filter_append, List.map_append]
  congr 1
  by_cases hP : base.provider = P
  · have hrow : (ledger.newRow base fields).provider = P := hP
    rw [if_pos hP, List.filter_cons_of_pos (by simpa using hrow)]
    rfl
  · have hrow : (ledger.newRow base fields).provider ≠ P := hP
    rw [if_neg hP, List.filter_cons_of_neg (by simpa using hrow)]
    rfl

/-- Whether an event was acted on can be read off what is told. -/
theorem processedDelivery_congr {ledger ledger' : Ledger} {P : String}
    (h : ledger.toldOf P = ledger'.toldOf P) (eventId : String) :
    (ledger.processedDelivery P eventId).isSome = (ledger'.processedDelivery P eventId).isSome := by
  have htold : ∀ l : Ledger, (l.rows.find? fun row => row.provider = P ∧ row.eventId = eventId ∧
      LedgerPath.counts row.path).isSome =
        (l.toldOf P).any fun t => t.eventId = eventId ∧ LedgerPath.counts t.verdict.path := by
    intro l
    unfold toldOf
    rw [List.isSome_find?, List.any_map, List.any_filter]
    congr 1
    funext row
    simp only [Bool.decide_and, Bool.decide_eq_true, Function.comp]
    rfl
  unfold processedDelivery
  split
  · rfl
  · rw [htold, htold, h]

end Ledger

/-- The two worlds are the same for the provider: the rules, its data, the calls it got and the
effects it applied, the guard state of the payments in `U`, and what the ledger tells of its
events. -/
structure SameFor [GuardStore S] [LawfulGuardStore S] (data : δ → ρ) (P : String)
    (U : String → Prop) (w v : World S (Env (δ × κ))) : Prop
    extends Parallel U (SameSide (fun o o' => data o.1 = data o'.1) (callTo P)) w v where
  told : w.env.db.ledger.toldOf P = v.env.db.ledger.toldOf P

/-! ## Events arrive -/

/-- An event, and what the LLM and the clocks are when it arrives. -/
structure Arrival (κ : Type) where
  event : NormalisedEvent
  moment : κ

/-- The event is persisted. -/
def Arrival.enter (a : Arrival κ) (w : World S (Env (δ × κ))) : World S (Env (δ × κ)) :=
  { w with env := { w.env with
      db := (w.env.db.persistInternal a.event).2
      outer := (w.env.outer.1, a.moment) } }

namespace RecoveryPipeline

/-- The event is persisted and processed. -/
def receive [GuardStore S] (p : RecoveryPipeline (δ × κ)) (a : Arrival κ)
    (w : World S (Env (δ × κ))) : Except PyExc (Option Nat) × World S (Env (δ × κ)) :=
  (p.process (w.env.db.events.length + 1)).run (a.enter w)

/-- The ids in `U` are the provider's own: the payment that is told for a due event has one of
them if and only if it is this provider that tells it. -/
def Own (p : RecoveryPipeline (δ × κ)) (P : String) (U : String → Prop)
    (w : World S (Env (δ × κ))) (a : Arrival κ) : Prop :=
  Due (a.enter w).env.db (w.env.db.events.length + 1) a.event →
    ∀ provider payment, p.registry.get? a.event.provider = some provider →
      (provider.getPayment a.event.paymentId (p.started (a.enter w)).env.outer).1 = .ok payment →
      (U payment.id ↔ a.event.provider = P)

end RecoveryPipeline

/-- The answer comes from the part `κ` of the state, and nothing else is changed. -/
def OfMoment (f : δ × κ → α × (δ × κ)) : Prop :=
  ∃ g : κ → α × κ, ∀ o, f o = ((g o.2).1, o.1, (g o.2).2)

/-- The data of the provider `P` are its own. It answers from them, the other providers leave
them alone, and the LLM and the clocks know no provider's data. -/
structure Separated (data : δ → ρ) (P : String) (p : RecoveryPipeline (δ × κ)) : Prop where
  own : ∀ provider, p.registry.get? P = some provider →
    Steady (fun o o' => data o.1 = data o'.1 ∧ o.2 = o'.2) provider
  others : ∀ name provider, name ≠ P → p.registry.get? name = some provider →
    Foreign (fun o => data o.1) (callTo P) provider
  llm : ∀ messages, OfMoment (p.llm messages)
  monotonic : OfMoment p.monotonic
  now : OfMoment p.now
  isoNow : OfMoment p.isoNow

section Moment

variable {data : δ → ρ} {f : δ × κ → α × (δ × κ)}

theorem OfMoment.respects (hf : OfMoment f) :
    Respects (fun o o' => data o.1 = data o'.1 ∧ o.2 = o'.2) f := by
  obtain ⟨g, hg⟩ := hf
  intro o o' h
  rw [hg, hg, h.2]
  exact ⟨rfl, h.1, rfl⟩

theorem OfMoment.spares (hf : OfMoment f) : Spares (fun o => data o.1) f := by
  obtain ⟨g, hg⟩ := hf
  intro o
  dsimp only
  rw [hg]

theorem Separated.discreet {P : String} {p : RecoveryPipeline (δ × κ)}
    (h : Separated data P p) : Discreet (fun o => data o.1) (callTo P) p where
  unseen := rfl
  llm messages := (h.llm messages).spares
  monotonic := h.monotonic.spares
  now := h.now.spares
  isoNow := h.isoNow.spares

theorem Separated.alike {P : String} {p : RecoveryPipeline (δ × κ)} (h : Separated data P p)
    (provider : PaymentProvider (δ × κ)) (hprovider : p.registry.get? P = some provider) :
    Alike (fun o o' => data o.1 = data o'.1 ∧ o.2 = o'.2) p provider where
  steady := h.own provider hprovider
  llm messages := (h.llm messages).respects
  monotonic := h.monotonic.respects
  now := h.now.respects
  isoNow := h.isoNow.respects

end Moment

section Receive

variable [GuardStore S] [LawfulGuardStore S] {data : δ → ρ} {P : String} {U : String → Prop}
  {p : RecoveryPipeline (δ × κ)} {w v : World S (Env (δ × κ))} {a : Arrival κ}

theorem SameFor.symm (h : SameFor data P U w v) : SameFor data P U v w :=
  ⟨⟨h.agree.symm, ⟨h.env.outer.symm, h.env.calls.symm, h.env.applied.symm⟩, h.env.rules.symm⟩,
    h.told.symm⟩

/-! ## One arrival -/

/-- The ways of one arrival. -/
inductive Received (p : RecoveryPipeline (δ × κ)) (a : Arrival κ) (w : World S (Env (δ × κ))) :
    World S (Env (δ × κ)) → Prop where
  | ignored (htype : a.event.eventType ≠ .paymentFailed) : Received p a w (a.enter w)
  | duplicate {earlier : LedgerEntry} (hfailed : a.event.eventType = .paymentFailed)
    (hearlier : w.env.db.ledger.processedDelivery a.event.provider a.event.eventId = some earlier)
    {db : Database} (hledger : db.ledger = (w.env.db.ledger.record
      (RecoveryPipeline.baseOf (w.env.db.events.length + 1) a.event)
      (RecoveryPipeline.duplicateFields earlier)).2) (hrules : db.rules = w.env.db.rules) :
    Received p a w { a.enter w with env := { (a.enter w).env with db := db } }
  | acted (hdue : Due (a.enter w).env.db (w.env.db.events.length + 1) a.event) {latency : ℚ}
    {db : Database} (hledger : db.ledger = (w.env.db.ledger.record
      (RecoveryPipeline.baseOf (w.env.db.events.length + 1) a.event)
      { RecoveryPipeline.fieldsOf (p.acted a.event (a.enter w)).1 with latencyMs := latency }).2)
    (hrules : db.rules = w.env.db.rules) :
    Received p a w { (p.acted a.event (a.enter w)).2 with
      env := { ((p.acted a.event (a.enter w)).2.env.tick p.monotonic).2 with db := db } }

omit [LawfulGuardStore S] in
theorem receive_received (hnumbered : Numbered w) (a : Arrival κ) :
    Received p a w (p.receive a w).2 := by
  have hnew := hnumbered.norow_next
  have hrow : (a.enter w).env.db.event (w.env.db.events.length + 1) = some _ :=
    hnumbered.event_next a.event
  have hread := InternalEvent.normalised_ofNormalised (w.env.db.events.length + 1) a.event
  -- the event in the table is the one that arrived
  have honly : ∀ event, Unrecorded (a.enter w).env.db (w.env.db.events.length + 1) event →
      event = a.event := by
    intro event hun
    obtain ⟨row, hrow', hevent⟩ := hun.row
    rw [hrow] at hrow'
    injection hrow' with hrow'
    rw [← hrow', hread] at hevent
    injection hevent with hevent
    exact hevent.symm
  unfold RecoveryPipeline.receive
  rcases p.process_cases (w.env.db.events.length + 1) (a.enter w) with
    ⟨answer, hidle, hrun, _⟩ | ⟨event, earlier, hre, hrun, _⟩ | ⟨event, hdue, hrun, _⟩
  · rw [hrun]
    cases hidle with
    | recorded row hsome =>
      have hnone : (a.enter w).env.db.ledger.forEvent (w.env.db.events.length + 1) = none := hnew
      rw [hnone] at hsome
      cases hsome
    | unknown _ hevent =>
      rw [hrow] at hevent
      cases hevent
    | unreadable row exc _ hrow' hexc =>
      rw [hrow] at hrow'
      injection hrow' with hrow'
      rw [← hrow', hread] at hexc
      cases hexc
    | notFailed row event _ hrow' hevent htype =>
      rw [hrow] at hrow'
      injection hrow' with hrow'
      rw [← hrow', hread] at hevent
      injection hevent with hevent
      exact .ignored (hevent ▸ htype)
  · have hevent := honly event hre.toUnrecorded
    subst hevent
    rw [hrun, run_map]
    unfold RecoveryPipeline.recordDuplicate
    rw [RecoveryPipeline.record_run (w := a.enter w) _ _ rfl (by exact hnew)]
    exact Received.duplicate (w := w) hre.failed hre.earlier rfl rfl
  · have hevent := honly event hdue.toUnrecorded
    subst hevent
    obtain ⟨latency, db, hhandle, hledger, hrules⟩ := p.handle_world a.event hdue.norow
    rw [hrun, run_map, hhandle]
    exact .acted hdue hledger (hrules.trans (p.acted_rules a.event (a.enter w)))

omit [LawfulGuardStore S] in
theorem numbered_receive (hnumbered : Numbered w) (a : Arrival κ) :
    Numbered (p.receive a w).2 := by
  have hentered : Numbered (a.enter w) :=
    ⟨(hnumbered.delivered a.event).ids, (hnumbered.delivered a.event).rows⟩
  exact hentered.writes (p.process_writes _ _).2

/-- An event of another provider changes nothing for this one. -/
theorem receive_other (hsep : Separated data P p) (hnumbered : Numbered v)
    (h : SameFor data P U w v) (hown : p.Own P U v a) (hother : a.event.provider ≠ P) :
    SameFor data P U w (p.receive a v).2 := by
  have hskip : ∀ {db : Database} {fields},
      db.ledger = (v.env.db.ledger.record (RecoveryPipeline.baseOf (v.env.db.events.length + 1)
        a.event) fields).2 → w.env.db.ledger.toldOf P = db.ledger.toldOf P := by
    intro db fields hledger
    rw [hledger, Ledger.toldOf_record (by exact hnumbered.norow_next), h.told]
    rw [if_neg (show ¬ (RecoveryPipeline.baseOf _ a.event).provider = P from hother),
      List.append_nil]
  have hreceived := receive_received (p := p) hnumbered a
  generalize (p.receive a v).2 = v' at hreceived ⊢
  cases hreceived with
  | ignored htype =>
    exact ⟨⟨h.agree, ⟨h.env.outer, h.env.calls, h.env.applied⟩, h.env.rules⟩, h.told⟩
  | duplicate hfailed hearlier hledger hrules =>
    exact ⟨⟨h.agree, ⟨h.env.outer, h.env.calls, h.env.applied⟩, h.env.rules.trans hrules.symm⟩,
      hskip hledger⟩
  | acted hdue hledger hrules =>
    have hentered : RecoveryPipeline.Untouched U (fun o : δ × κ => data o.1) (callTo P) w
        (a.enter v) := ⟨h.agree, h.env.outer, h.env.calls, h.env.applied⟩
    have hacted := RecoveryPipeline.acted_untouched hsep.discreet
      (fun provider hprovider => hsep.others _ provider hother hprovider) hentered
      fun case provider decision v₁ hreaches hmem => by
        obtain ⟨hprovider, payment, hpayment, hcase⟩ := hreaches.case
        rw [hcase] at hmem
        exact hother ((hown hdue provider payment hprovider hpayment).mp hmem)
    have hticked := hacted.env.ticked_aside hsep.discreet.monotonic
    exact ⟨⟨hacted.agree, ⟨hticked.outer, hticked.calls, hticked.applied⟩,
      h.env.rules.trans hrules.symm⟩, hskip hledger⟩

omit [LawfulGuardStore S] [GuardStore S] in
theorem verdict_fieldsOf {x y : Except PyExc LedgerFields}
    (h : Answers (fun a b => a.verdict = b.verdict) x y) :
    (RecoveryPipeline.fieldsOf x).verdict = (RecoveryPipeline.fieldsOf y).verdict := by
  cases h with
  | ok h => exact h
  | error exc => rfl

/-- An event of its own comes to the same in both worlds. -/
theorem receive_own (hsep : Separated data P p) (hnumbered : Numbered w) (hnumbered' : Numbered v)
    (h : SameFor data P U w v) (hown : p.Own P U w a) (hP : a.event.provider = P) :
    SameFor data P U (p.receive a w).2 (p.receive a v).2 := by
  have hentered : Parallel U (SameSide (fun o o' : δ × κ => data o.1 = data o'.1 ∧ o.2 = o'.2)
      (callTo P)) (a.enter w) (a.enter v) :=
    ⟨h.agree, ⟨⟨h.env.outer, rfl⟩, h.env.calls, h.env.applied⟩, h.env.rules⟩
  -- both acted on this delivery before, or neither
  have hearlier := Ledger.processedDelivery_congr h.told a.event.eventId
  rw [← hP] at hearlier
  have hrow : ∀ {db db' : Database} {fields fields' : LedgerFields},
      db.ledger = (w.env.db.ledger.record (RecoveryPipeline.baseOf (w.env.db.events.length + 1)
        a.event) fields).2 →
      db'.ledger = (v.env.db.ledger.record (RecoveryPipeline.baseOf (v.env.db.events.length + 1)
        a.event) fields').2 →
      fields.verdict = fields'.verdict → db.ledger.toldOf P = db'.ledger.toldOf P := by
    intro db db' fields fields' hledger hledger' hverdict
    rw [hledger, hledger', Ledger.toldOf_record (by exact hnumbered.norow_next),
      Ledger.toldOf_record (by exact hnumbered'.norow_next), h.told, hverdict]
    rfl
  have hreceived := receive_received (p := p) hnumbered a
  have hreceived' := receive_received (p := p) hnumbered' a
  generalize (p.receive a w).2 = w' at hreceived ⊢
  generalize (p.receive a v).2 = v' at hreceived' ⊢
  cases hreceived with
  | ignored htype =>
    cases hreceived' with
    | ignored _ => exact ⟨⟨h.agree, ⟨h.env.outer, h.env.calls, h.env.applied⟩, h.env.rules⟩, h.told⟩
    | duplicate hfailed => exact absurd hfailed htype
    | acted hdue => exact absurd hdue.failed htype
  | duplicate hfailed hsome hledger hrules =>
    cases hreceived' with
    | ignored htype => exact absurd hfailed htype
    | duplicate _ _ hledger' hrules' =>
      exact ⟨⟨h.agree, ⟨h.env.outer, h.env.calls, h.env.applied⟩,
        hrules.trans (h.env.rules.trans hrules'.symm)⟩, hrow hledger hledger' rfl⟩
    | acted hdue =>
      have hnone : v.env.db.ledger.processedDelivery a.event.provider a.event.eventId = none :=
        hdue.first
      rw [hsome, hnone] at hearlier
      cases hearlier
  | acted hdue hledger hrules =>
    cases hreceived' with
    | ignored htype => exact absurd hdue.failed htype
    | duplicate _ hsome =>
      have hnone : w.env.db.ledger.processedDelivery a.event.provider a.event.eventId = none :=
        hdue.first
      rw [hsome, hnone] at hearlier
      cases hearlier
    | acted _ hledger' hrules' =>
      obtain ⟨hpar, hanswers⟩ := RecoveryPipeline.acted_coupled hentered hsep.monotonic.respects
        (fun provider hprovider => hsep.alike provider (hP ▸ hprovider))
        fun case provider decision w₁ hreaches => by
          obtain ⟨hprovider, payment, hpayment, hcase⟩ := hreaches.case
          rw [hcase]
          exact (hown hdue provider payment hprovider hpayment).mpr hP
      have hticked := hpar.env.ticked fun o o' hR => (hsep.monotonic.respects o o' hR).2
      exact ⟨⟨hpar.agree, ⟨hticked.outer.1, hticked.calls, hticked.applied⟩,
        hrules.trans (h.env.rules.trans hrules'.symm)⟩,
        hrow hledger hledger' (verdict_fieldsOf hanswers)⟩

theorem SameFor.refl (w : World S (Env (δ × κ))) : SameFor data P U w w :=
  ⟨⟨.refl _, ⟨rfl, rfl, rfl⟩, rfl⟩, rfl⟩

/-- Two worlds with their events numbered, the same for the provider. -/
structure Both (data : δ → ρ) (P : String) (U : String → Prop) (w v : World S (Env (δ × κ))) :
    Prop where
  left : Numbered w
  right : Numbered v
  same : SameFor data P U w v

end Receive

/-! ## All arrivals -/

/-- **Providers do not meet.** Whatever the events of the other providers are and wherever they
come in between: two runs with the same events of one provider, in the same order and at the
same moments, end the same for it, as long as no other provider tells a payment under an id of
its own. -/
theorem same_for_provider [GuardStore S] [LawfulGuardStore S] {data : δ → ρ} {P : String}
    {U : String → Prop} {p : RecoveryPipeline (δ × κ)} (hsep : Separated data P p)
    {as bs : List (Arrival κ)}
    (hsame : (as.filter fun a => a.event.provider = P) = bs.filter fun a => a.event.provider = P)
    {w : World S (Env (δ × κ))} (hnumbered : Numbered w)
    (has : Run.Along p.receive (p.Own P U) as w) (hbs : Run.Along p.receive (p.Own P U) bs w) :
    SameFor data P U (Run.exec p.receive as w) (Run.exec p.receive bs w) := by
  have hpair : Both data P U (Run.exec p.receive as w) (Run.exec p.receive bs w) :=
    Run.exec_pair
      (fun w v a h hown ha => ⟨numbered_receive h.left a, h.right,
        (receive_other hsep h.left h.same.symm hown (of_decide_eq_false ha)).symm⟩)
      (fun w v a h hown ha => ⟨h.left, numbered_receive h.right a,
        receive_other hsep h.right h.same hown (of_decide_eq_false ha)⟩)
      (fun w v a h hown _ ha => ⟨numbered_receive h.left a, numbered_receive h.right a,
        receive_own hsep h.left h.right h.same hown (of_decide_eq_true ha)⟩)
      hsame ⟨hnumbered, hnumbered, .refl w⟩ has hbs
  exact hpair.same

/-! ## Two shops -/

namespace Sample

/-- A provider without data. Every payment is a card payment of 900 rupees, and every effect is
applied. -/
def shop (name : String) : PaymentProvider (Unit × Unit) where
  name := name
  getPayment id o := (.ok ⟨id, 900, .failed, .card, none, none, none, none⟩, o)
  getOrder id o := (.error ⟨.resourceNotFound, id⟩, o)
  getCustomerHistory id o := (.error ⟨.resourceNotFound, id⟩, o)
  createPaymentLink _ _ o := (⟨true, .ok ⟨"plink_1", "https://rzp.io/i/1", .created⟩⟩, o)
  refundPayment _ amount _ o := (⟨true, .ok ⟨"rfnd_1", amount, .processed⟩⟩, o)

/-- Two shops, and an LLM that always asks for a link. -/
def shops : RecoveryPipeline (Unit × Unit) where
  registry := dictOf [("razorpay", shop "razorpay"), ("fake", shop "fake")]
  settings := ⟨500, 3, 2000, 1, 30, 0, 0⟩
  llm _ o := (.ok ⟨"", .ok sendLink, 1, 1, 0, false⟩, o)
  prompt := ⟨"recovery.v1", .malformed ""⟩
  monotonic o := (0, o)
  now o := (0, o)
  isoNow o := ("", o)

/-- A payment of a shop failed. -/
def failedAt (shop paymentId : String) : Arrival Unit :=
  ⟨⟨shop, "evt_" ++ paymentId, .paymentFailed, paymentId, 900, some .unknown, none⟩, ()⟩

/-- Nothing arrived yet, and no rule is active. -/
def closed : World SqlGuardStore (Env (Unit × Unit)) := World.opened GuardStore.empty ((), ()) []

theorem shops_registered {name : String} {provider : PaymentProvider (Unit × Unit)}
    (h : shops.registry.get? name = some provider) : provider = shop name := by
  have hget : shops.registry.get? name =
      if name = "fake" then some (shop "fake")
      else if name = "razorpay" then some (shop "razorpay") else none := by
    show ((Dict.empty.set "razorpay" (shop "razorpay")).set "fake" (shop "fake")).get? name = _
    rw [Dict.get?_set, Dict.get?_set]
    rfl
  rw [hget] at h
  split at h
  · rename_i hname
    injection h with h
    rw [hname, h]
  · split at h
    · rename_i hname
      injection h with h
      rw [hname, h]
    · cases h

theorem shops_separated (P : String) : Separated (id : Unit → Unit) P shops where
  own provider h := by
    rw [shops_registered h]
    exact ⟨fun _ _ _ h => ⟨rfl, h⟩, fun _ _ _ h => ⟨rfl, h⟩, fun _ _ _ h => ⟨rfl, h⟩,
      fun _ _ _ _ h => ⟨rfl, h⟩, fun _ _ _ _ _ h => ⟨rfl, h⟩⟩
  others name provider hname h := by
    rw [shops_registered h]
    refine ⟨?_, fun _ _ => rfl, fun _ _ => rfl, fun _ _ => rfl, fun _ _ _ => rfl,
      fun _ _ _ _ => rfl⟩
    exact decide_eq_false fun hcall => hname (by injection hcall)
  llm _ := ⟨fun m => (.ok ⟨"", .ok sendLink, 1, 1, 0, false⟩, m), fun _ => rfl⟩
  monotonic := ⟨fun m => (0, m), fun _ => rfl⟩
  now := ⟨fun m => (0, m), fun _ => rfl⟩
  isoNow := ⟨fun m => ("", m), fun _ => rfl⟩

/-- A shop tells a payment under the id it is asked for. -/
theorem shops_own {P : String} {U : String → Prop} {a : Arrival Unit}
    (h : U a.event.paymentId ↔ a.event.provider = P)
    (w : World SqlGuardStore (Env (Unit × Unit))) : shops.Own P U w a := by
  intro _ provider payment hprovider hpayment
  rw [shops_registered hprovider] at hpayment
  injection hpayment with hpayment
  rw [← hpayment]
  exact h

end Sample

open Sample

/-- Another payment at the other shop changes nothing. -/
theorem other_payment_same :
    SameFor (id : Unit → Unit) "razorpay" (fun paymentId => paymentId = "pay_1")
      (Run.exec shops.receive [failedAt "fake" "pay_2", failedAt "razorpay" "pay_1"] closed)
      (Run.exec shops.receive [failedAt "razorpay" "pay_1"] closed) := by
  have hnumbered : Numbered closed := .opened _ _ _
  refine same_for_provider (shops_separated "razorpay") ?_ hnumbered ?_ ?_
  · rfl
  · exact ⟨shops_own (by decide) _, shops_own (by decide) _, trivial⟩
  · exact ⟨shops_own (by decide) _, trivial⟩

/-- A payment of the same id at the other shop, and no link is sent. -/
theorem same_payment_not_same : ¬ ∀ (p : RecoveryPipeline (Unit × Unit)) (P : String)
    (as bs : List (Arrival Unit)) (w : World SqlGuardStore (Env (Unit × Unit))),
    Separated (id : Unit → Unit) P p →
    (as.filter fun a => a.event.provider = P) = bs.filter (fun a => a.event.provider = P) →
    Numbered w →
    ((Run.exec p.receive as w).env.applied.filter fun e => e.provider = P) =
        ((Run.exec p.receive bs w).env.applied.filter fun e => e.provider = P) ∧
      (Run.exec p.receive as w).env.db.ledger.toldOf P =
        (Run.exec p.receive bs w).env.db.ledger.toldOf P := by
  intro hall
  have hsame := (hall shops "razorpay" [failedAt "fake" "pay_1", failedAt "razorpay" "pay_1"]
    [failedAt "razorpay" "pay_1"] closed (shops_separated "razorpay") rfl
    (Numbered.opened _ _ _)).1
  have hleft : ((Run.exec shops.receive [failedAt "fake" "pay_1", failedAt "razorpay" "pay_1"]
      closed).env.applied.filter fun e => e.provider = "razorpay").length = 0 := by decide +kernel
  have hright : ((Run.exec shops.receive [failedAt "razorpay" "pay_1"]
      closed).env.applied.filter fun e => e.provider = "razorpay").length = 1 := by decide +kernel
  rw [hsame, hright] at hleft
  cases hleft

end PaymentRecovery.Recovery

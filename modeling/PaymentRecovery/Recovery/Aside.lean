import PaymentRecovery.Guardrails.Apart
import PaymentRecovery.Recovery.Outside
import PaymentRecovery.Recovery.Rows

/-!
# Events of other providers

What acting on an event of one provider leaves as it was: the part `d` of the
world outside that another provider lives on, the calls it gets, the effects it
applies, and the guard state of its payments.
-/

namespace PaymentRecovery.Recovery

open PaymentRecovery.Python PaymentRecovery.Guardrails PaymentRecovery.Providers
open PaymentRecovery.Agent PaymentRecovery.Lib Program

variable {S τ ρ α : Type} {U : String → Prop} {d : τ → ρ} {seen : OuterCall → Bool}
  {provider : PaymentProvider τ}

/-- Nothing of the state's part `d` changes. -/
def Spares (d : τ → ρ) (f : τ → α × τ) : Prop := ∀ o, d (f o).2 = d o

/-- A provider that is not seen, and leaves `d` alone. -/
structure Foreign (d : τ → ρ) (seen : OuterCall → Bool) (provider : PaymentProvider τ) : Prop where
  unseen : seen (.provider provider.name) = false
  getPayment : ∀ id, Spares d (provider.getPayment id)
  getOrder : ∀ id, Spares d (provider.getOrder id)
  getCustomerHistory : ∀ id, Spares d (provider.getCustomerHistory id)
  createPaymentLink : ∀ amount reference, Spares d (provider.createPaymentLink amount reference)
  refundPayment : ∀ id amount key, Spares d (provider.refundPayment id amount key)

/-- The same part `d`, and the same calls and effects as far as these are seen. -/
abbrev SamePart (d : τ → ρ) (seen : OuterCall → Bool) : Env τ → Env τ → Prop :=
  SameOutside (fun o o' => d o = d o') seen

/-- On the right nothing happens that the left would see. -/
def Unnoticed (d : τ → ρ) (seen : OuterCall → Bool) (f : Env τ → α × Env τ) : Prop :=
  ∀ a b, SamePart d seen a b → SamePart d seen a (f b).2

theorem unnoticed_ask {f : τ → α × τ} (hf : Spares d f) {call : OuterCall}
    (hcall : seen call = false) : Unnoticed d seen fun env => env.ask call f :=
  fun _ _ h => h.asked_aside hf hcall

theorem unnoticed_tick {f : τ → α × τ} (hf : Spares d f) :
    Unnoticed d seen fun env => env.tick f :=
  fun _ _ h => h.ticked_aside hf

/-! ## The tools and handlers of a case -/

section Case

variable (hforeign : Foreign d seen provider)

include hforeign

theorem unnoticed_fetch (argName : String) {get : String → τ → Except PyExc α × τ}
    (hget : ∀ id, Spares d (get id)) (bounded : α → PyVal) (args : Args) :
    Unnoticed d seen (fetch provider argName get bounded args) := by
  intro a b h
  unfold fetch
  split
  · rename_i id _
    have hasked := h.asked_aside (hget id) hforeign.unseen
    cases hb : b.ask (.provider provider.name) (get id) with
    | mk answer b' =>
      rw [hb] at hasked
      cases answer with
      | ok value => exact hasked
      | error exc =>
        dsimp only
        split
        · exact hasked
        · exact hasked
  · exact h
  · exact h

theorem unnoticed_buildRefundAction (case : RecoveryCase) (args : Args) :
    Unnoticed d seen (buildRefundAction case provider args) := by
  intro a b h
  have hasked := h.asked_aside (hforeign.getPayment case.paymentId) hforeign.unseen
  unfold buildRefundAction
  cases hb : b.ask (.provider provider.name) (provider.getPayment case.paymentId) with
  | mk answer b' =>
    rw [hb] at hasked
    cases answer with
    | ok payment => exact hasked
    | error exc => exact hasked

theorem unnoticed_tools {case : RecoveryCase} {spec : ToolSpec (Env τ)}
    (hmem : spec ∈ tools case provider) :
    (∀ handler, spec.body = .read handler → ∀ args, Unnoticed d seen (handler args)) ∧
    (∀ build, spec.body = .effect build → ∀ args, Unnoticed d seen (build args)) :=
  tools_all (fun args => unnoticed_fetch hforeign _ hforeign.getPayment _ args)
    (fun args => unnoticed_fetch hforeign _ hforeign.getOrder _ args)
    (fun args => unnoticed_fetch hforeign _ hforeign.getCustomerHistory _ args)
    (fun _ _ _ h => h) (fun args => unnoticed_buildRefundAction hforeign case args)
    (fun _ _ _ h => h) hmem

theorem unnoticed_doLink (case : RecoveryCase) (action : Action) :
    Unnoticed d seen (doLink case provider action) := by
  intro a b h
  unfold doLink
  cases paramGet action.params "amount_inr" >>= toFloat with
  | error exc => exact h
  | ok amount =>
    have heffect := h.effected_aside (hforeign.createPaymentLink amount case.paymentId)
      hforeign.unseen case.paymentId (linkKey case)
    dsimp only
    cases hb : b.effect provider.name case.paymentId (linkKey case)
        (provider.createPaymentLink amount case.paymentId) with
    | mk reply b' =>
      rw [hb] at heffect
      cases reply with
      | ok link => exact heffect
      | error exc => exact heffect

theorem unnoticed_doRefund (case : RecoveryCase) (action : Action) :
    Unnoticed d seen (doRefund case provider action) := by
  intro a b h
  unfold doRefund
  split
  · rename_i amount key _ _
    have heffect := h.effected_aside (hforeign.refundPayment case.paymentId amount key)
      hforeign.unseen case.paymentId (refundKey case)
    cases hb : b.effect provider.name case.paymentId (refundKey case)
        (provider.refundPayment case.paymentId amount key) with
    | mk reply b' =>
      rw [hb] at heffect
      cases reply with
      | ok refund => exact heffect
      | error exc => exact heffect
  · exact h
  · exact h
  · exact h

theorem unnoticed_handler {p : RecoveryPipeline τ} {case : RecoveryCase} {name : String}
    {handler : EffectHandler (Env τ)}
    (hhandler : (p.caseExecutor case provider).handlers.get? name = some handler)
    (action : Action) : Unnoticed d seen (handler action) := by
  rw [p.caseExecutor_handler] at hhandler
  split at hhandler
  · injection hhandler with hhandler
    exact hhandler ▸ fun _ _ h => h
  · split at hhandler
    · injection hhandler with hhandler
      exact hhandler ▸ unnoticed_doRefund hforeign case action
    · split at hhandler
      · injection hhandler with hhandler
        exact hhandler ▸ unnoticed_doLink hforeign case action
      · cases hhandler

end Case

/-! ## Acting on the event -/

/-- The LLM and the clocks are not seen either, and leave `d` alone. -/
structure Discreet (d : τ → ρ) (seen : OuterCall → Bool) (p : RecoveryPipeline τ) : Prop where
  unseen : seen .llm = false
  llm : ∀ messages, Spares d (p.llm messages)
  monotonic : Spares d p.monotonic
  now : Spares d p.now
  isoNow : Spares d p.isoNow

namespace RecoveryPipeline

variable [GuardStore S] [LawfulGuardStore S] {p : RecoveryPipeline τ} {w : World S (Env τ)}

/-- Nothing happened that is seen from `w`. -/
abbrev Untouched (U : String → Prop) (d : τ → ρ) (seen : OuterCall → Bool)
    (w : World S (Env τ)) : World S (Env τ) → Prop :=
  Parallel U (SamePart d seen) w

theorem Untouched.refl (w : World S (Env τ)) : Untouched U d seen w w :=
  ⟨.refl _, rfl, rfl, rfl⟩

theorem onEnv_untouched {f : Env τ → α × Env τ} (hf : Unnoticed d seen f) :
    Carries (fun _ => True) (Untouched U d seen w) (onEnv f : Pipe S τ α) :=
  Carries.step fun _ h => ⟨trivial, h.agree, hf _ _ h.env⟩

theorem attemptEnv_untouched {f : Env τ → Except PyExc α × Env τ} (hf : Unnoticed d seen f) :
    Carries (fun _ => True) (Untouched U d seen w) (attemptEnv f : Pipe S τ α) :=
  Carries.attempt fun _ h => ⟨trivial, h.agree, hf _ _ h.env⟩

theorem execute_untouched (hforeign : Foreign d seen provider) (hdiscreet : Discreet d seen p)
    {case : RecoveryCase} (hU : ¬ U case.paymentId) (action : Action) :
    Carries (fun _ => True) (Untouched U d seen w)
      ((p.caseExecutor case provider).execute action) := by
  have hstore : Carries (fun _ => True) (fun v : World S (Env τ) => w.view.Agree U v.view)
      ((p.caseExecutor case provider).execute action) := execute_apart hU
  have henv : Carries (fun v : World S (Env τ) => SamePart d seen w.env v.env)
      (fun v => SamePart d seen w.env v.env) ((p.caseExecutor case provider).execute action) :=
    execute_carries_outside (I := fun env _ => SamePart d seen w.env env) (fun _ _ h => h)
      (fun _ _ h => h.ticked_aside hdiscreet.now)
      fun handler hhandler _ _ _ h => unnoticed_handler hforeign hhandler action _ _ h
  intro v hv
  obtain ⟨_, hagree, hsame⟩ := Triple.and hstore henv v ⟨hv.agree, hv.env⟩
  exact ⟨fun _ _ => trivial, hagree, hsame⟩

/-- All parts of acting on a case of another provider, whose payment is none of `U`. -/
theorem keepsCase_untouched (hforeign : Foreign d seen provider) (hdiscreet : Discreet d seen p)
    {case : RecoveryCase} (hU : ¬ U case.paymentId) :
    p.KeepsCase (fun _ => True) (Untouched U d seen w) case provider where
  cut _ _ := trivial
  saved _ _ h := ⟨trivial, h.agree, h.env.outer, h.env.calls, h.env.applied⟩
  loop :=
    { clock := onEnv_untouched (unnoticed_tick hdiscreet.monotonic)
      now := onEnv_untouched (unnoticed_tick hdiscreet.isoNow)
      llm := fun messages =>
        attemptEnv_untouched (unnoticed_ask (hdiscreet.llm messages) hdiscreet.unseen)
      build := fun hspec hbody args =>
        onEnv_untouched ((unnoticed_tools hforeign (mem_tools_of_get? hspec)).2 _ hbody args)
      handler := fun hspec hbody args =>
        attemptEnv_untouched ((unnoticed_tools hforeign (mem_tools_of_get? hspec)).1 _ hbody args)
      execute := fun _ => execute_untouched hforeign hdiscreet hU _ }

theorem prepare_untouched {event : NormalisedEvent} (hdiscreet : Discreet d seen p)
    (hforeign : ∀ provider, p.registry.get? event.provider = some provider →
      Foreign d seen provider) :
    Carries (fun _ => True) (Untouched U d seen w) (p.prepare event) := by
  refine prepare_carries (fun _ _ => trivial) (fun provider hprovider => ?_)
    (onEnv_untouched (unnoticed_tick hdiscreet.now))
  have hother := hforeign provider hprovider
  exact ⟨fun id => attemptEnv_untouched (unnoticed_ask (hother.getPayment id) hother.unseen),
    fun id => onEnv_untouched (unnoticed_ask (hother.getCustomerHistory id) hother.unseen)⟩

/-- The event of another provider about a payment that is none of `U`. -/
theorem acted_untouched {event : NormalisedEvent} (hdiscreet : Discreet d seen p)
    (hforeign : ∀ provider, p.registry.get? event.provider = some provider →
      Foreign d seen provider) {v : World S (Env τ)} (hv : Untouched U d seen w v)
    (hU : ∀ case provider decision v₁, p.Reaches event v case provider decision v₁ →
      ¬ U case.paymentId) :
    Untouched U d seen w (p.acted event v).2 := by
  have hstarted : Untouched U d seen w (p.started v) :=
    ⟨hv.agree, hv.env.ticked_aside hdiscreet.monotonic⟩
  have hprepared := (prepare_untouched hdiscreet hforeign).run hstarted
  unfold acted routeAndAct
  rw [run_bind]
  cases hrun : (p.prepare event).run (p.started v) with
  | mk answer v₁ =>
    rw [hrun] at hprepared
    cases answer with
    | error exc => exact hprepared
    | ok prepared =>
      obtain ⟨case, provider, decision⟩ := prepared
      have hreaches : p.Reaches event v case provider decision v₁ := hrun
      have hkeeps := keepsCase_untouched (w := w) (hforeign provider hreaches.case.1) hdiscreet
        (hU case provider decision v₁ hreaches)
      exact (act_carries hkeeps decision).run hprepared

end RecoveryPipeline

end PaymentRecovery.Recovery

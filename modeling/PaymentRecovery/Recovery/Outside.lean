import PaymentRecovery.Recovery.Keeps
import PaymentRecovery.Guardrails.Parity

/-!
# Two runs against the same providers

Two runs need not find the same world outside. `R` relates the states of the
world that a provider answers alike, and `SameOutside` the environments that
differ in nothing else but what no one looks at. In such environments the tools
and handlers of a case do the same.
-/

namespace PaymentRecovery.Recovery

open PaymentRecovery.Python PaymentRecovery.Guardrails PaymentRecovery.Providers
open PaymentRecovery.Agent PaymentRecovery.Lib

variable {τ α : Type}

/-- A provider that answers related states alike. -/
structure Steady (R : τ → τ → Prop) (provider : PaymentProvider τ) : Prop where
  getPayment : ∀ id, Respects R (provider.getPayment id)
  getOrder : ∀ id, Respects R (provider.getOrder id)
  getCustomerHistory : ∀ id, Respects R (provider.getCustomerHistory id)
  createPaymentLink : ∀ amount reference, Respects R (provider.createPaymentLink amount reference)
  refundPayment : ∀ id amount key, Respects R (provider.refundPayment id amount key)

/-- Related states, and the same calls and effects as far as these are `seen`. -/
structure SameOutside (R : τ → τ → Prop) (seen : OuterCall → Bool) (a b : Env τ) : Prop where
  outer : R a.outer b.outer
  calls : a.calls.filter seen = b.calls.filter seen
  applied : (a.applied.filter fun e => seen (.provider e.provider)) =
    b.applied.filter fun e => seen (.provider e.provider)

namespace SameOutside

variable {R : τ → τ → Prop} {seen : OuterCall → Bool} {a b : Env τ}

theorem asked (h : SameOutside R seen a b) {f : τ → α × τ} (hf : Respects R f) (call : OuterCall) :
    (a.ask call f).1 = (b.ask call f).1 ∧ SameOutside R seen (a.ask call f).2 (b.ask call f).2 := by
  obtain ⟨hanswer, houter⟩ := hf _ _ h.outer
  refine ⟨hanswer, houter, ?_, h.applied⟩
  show (a.calls ++ [call]).filter seen = (b.calls ++ [call]).filter seen
  rw [List.filter_append, List.filter_append, h.calls]

theorem ticked (h : SameOutside R seen a b) {f : τ → α × τ}
    (hf : ∀ o o', R o o' → R (f o).2 (f o').2) :
    SameOutside R seen (a.tick f).2 (b.tick f).2 :=
  ⟨hf _ _ h.outer, h.calls, h.applied⟩

/-- The provider applies the effect on both sides or on neither. -/
theorem effected (h : SameOutside R seen a b) {f : τ → EffectReply α × τ} (hf : Respects R f)
    (name paymentId key : String) :
    (a.effect name paymentId key f).1 = (b.effect name paymentId key f).1 ∧
      SameOutside R seen (a.effect name paymentId key f).2 (b.effect name paymentId key f).2 := by
  obtain ⟨hreply, houter⟩ := hf _ _ h.outer
  unfold Env.effect
  cases ha : f a.outer with
  | mk reply o =>
    cases hb : f b.outer with
    | mk reply' o' =>
      rw [ha, hb] at hreply houter
      dsimp only at hreply houter ⊢
      subst hreply
      refine ⟨rfl, houter, ?_, ?_⟩
      · show (a.calls ++ [_]).filter seen = (b.calls ++ [_]).filter seen
        rw [List.filter_append, List.filter_append, h.calls]
      · dsimp only
        split
        · rw [List.filter_append, List.filter_append, h.applied]
        · exact h.applied

/-! ### What only one side does -/

section Aside

variable {ρ : Type} {d : τ → ρ}

/-- A call that is not seen, and leaves the part `d` of the state alone. -/
theorem asked_aside (h : SameOutside (fun o o' => d o = d o') seen a b) {f : τ → α × τ}
    (hf : ∀ o, d (f o).2 = d o) {call : OuterCall} (hcall : seen call = false) :
    SameOutside (fun o o' => d o = d o') seen a (b.ask call f).2 := by
  refine ⟨h.outer.trans (hf _).symm, ?_, h.applied⟩
  show _ = (b.calls ++ [call]).filter seen
  rw [List.filter_append, h.calls, List.filter_cons_of_neg (by simp [hcall]), List.filter_nil,
    List.append_nil]

theorem ticked_aside (h : SameOutside (fun o o' => d o = d o') seen a b) {f : τ → α × τ}
    (hf : ∀ o, d (f o).2 = d o) :
    SameOutside (fun o o' => d o = d o') seen a (b.tick f).2 :=
  ⟨h.outer.trans (hf _).symm, h.calls, h.applied⟩

/-- An effect that is not seen, whether it was applied or not. -/
theorem effected_aside (h : SameOutside (fun o o' => d o = d o') seen a b)
    {f : τ → EffectReply α × τ} (hf : ∀ o, d (f o).2 = d o) {name : String}
    (hname : seen (.provider name) = false) (paymentId key : String) :
    SameOutside (fun o o' => d o = d o') seen a (b.effect name paymentId key f).2 := by
  have hcalled := h.asked_aside hf hname
  refine ⟨hcalled.outer, hcalled.calls, h.applied.trans ?_⟩
  unfold Env.effect
  dsimp only
  split
  · rw [List.filter_append, List.filter_cons_of_neg (by simp [hname]), List.filter_nil,
      List.append_nil]
  · rfl

end Aside

end SameOutside

/-! ## The tools and handlers of a case -/

section Case

variable {R : τ → τ → Prop} {seen : OuterCall → Bool} {provider : PaymentProvider τ}

theorem doLink_same (hsteady : Steady R provider) (case : RecoveryCase) :
    SameHandler (SameOutside R seen) (doLink case provider) (doLink case provider) := by
  intro action a b h
  unfold doLink
  cases paramGet action.params "amount_inr" >>= toFloat with
  | error exc => exact ⟨rfl, h⟩
  | ok amount =>
    have hsame := h.effected (hsteady.createPaymentLink amount case.paymentId) provider.name
      case.paymentId (linkKey case)
    dsimp only
    cases ha : a.effect provider.name case.paymentId (linkKey case)
        (provider.createPaymentLink amount case.paymentId) with
    | mk reply a' =>
      cases hb : b.effect provider.name case.paymentId (linkKey case)
          (provider.createPaymentLink amount case.paymentId) with
      | mk reply' b' =>
        rw [ha, hb] at hsame
        obtain ⟨hreply, henv⟩ := hsame
        dsimp only at hreply henv
        subst hreply
        cases reply <;> exact ⟨rfl, henv⟩

theorem doRefund_same (hsteady : Steady R provider) (case : RecoveryCase) :
    SameHandler (SameOutside R seen) (doRefund case provider) (doRefund case provider) := by
  intro action a b h
  unfold doRefund
  split
  · rename_i amount key _ _
    have hsame := h.effected (hsteady.refundPayment case.paymentId amount key) provider.name
      case.paymentId (refundKey case)
    cases ha : a.effect provider.name case.paymentId (refundKey case)
        (provider.refundPayment case.paymentId amount key) with
    | mk reply a' =>
      cases hb : b.effect provider.name case.paymentId (refundKey case)
          (provider.refundPayment case.paymentId amount key) with
      | mk reply' b' =>
        rw [ha, hb] at hsame
        obtain ⟨hreply, henv⟩ := hsame
        dsimp only at hreply henv
        subst hreply
        cases reply <;> exact ⟨rfl, henv⟩
  -- the handler fails before it asks the provider
  · exact ⟨rfl, h⟩
  · exact ⟨rfl, h⟩
  · exact ⟨rfl, h⟩

theorem buildRefundAction_same (hsteady : Steady R provider) (case : RecoveryCase) (args : Args)
    {a b : Env τ} (h : SameOutside R seen a b) :
    (buildRefundAction case provider args a).1 = (buildRefundAction case provider args b).1 ∧
      SameOutside R seen (buildRefundAction case provider args a).2
        (buildRefundAction case provider args b).2 := by
  have hsame := h.asked (hsteady.getPayment case.paymentId) (.provider provider.name)
  unfold buildRefundAction
  cases ha : a.ask (.provider provider.name) (provider.getPayment case.paymentId) with
  | mk answer a' =>
    cases hb : b.ask (.provider provider.name) (provider.getPayment case.paymentId) with
    | mk answer' b' =>
      rw [ha, hb] at hsame
      obtain ⟨hanswer, henv⟩ := hsame
      dsimp only at hanswer henv
      subst hanswer
      cases answer <;> exact ⟨rfl, henv⟩

/-- One case has one executor, whichever of the environments it works in. -/
theorem caseExecutor_same {p : RecoveryPipeline τ} (hsteady : Steady R provider)
    (hnow : ∀ o o', R o o' → R (p.now o).2 (p.now o').2) (case : RecoveryCase) :
    SameExecutor (SameOutside R seen) (p.caseExecutor case provider)
      (p.caseExecutor case provider) where
  runId := rfl
  policy := rfl
  clock _ _ h := h.ticked hnow
  handlers name := by
    rw [p.caseExecutor_handler]
    split
    · exact .inr ⟨_, _, rfl, rfl, fun _ _ _ h => ⟨rfl, h⟩⟩
    · split
      · exact .inr ⟨_, _, rfl, rfl, doRefund_same hsteady case⟩
      · split
        · exact .inr ⟨_, _, rfl, rfl, doLink_same hsteady case⟩
        · exact .inl ⟨rfl, rfl⟩

end Case

end PaymentRecovery.Recovery

import PaymentRecovery.Lib.Coupling

/-!
# A second run that knows how the first one ended

`Repeats R fate φ p q`: whenever `p`, started in a state related to one of `q`, returns `a` and
leaves a state of the fate, `q` returns `φ a` in a related state. The fate is one that no step
brings about: where it is met at the end it was met all along, and so the rules hand it to each
part of a program.
-/

namespace PaymentRecovery.Lib

open Program

variable {W V ε α β γ δ : Type}

/-- What `p` returns on its way to the fate, `q` returns too. -/
structure Repeats (R : W → V → Prop) (fate : W → Prop) (φ : α → β) (p : Program W ε α)
    (q : Program V ε β) : Prop where
  foretold : ∀ w, fate (p.run w).2 → fate w
  returns : ∀ w v a w', R w v → p.run w = (.ok a, w') → fate w' →
    ∃ v', q.run v = (.ok (φ a), v') ∧ R w' v'

namespace Repeats

variable {R : W → V → Prop} {fate : W → Prop} {φ : α → β}

theorem pure (a : α) : Repeats R fate φ (Pure.pure a : Program W ε α) (Pure.pure (φ a)) where
  foretold w h := h
  returns w v a' w' hR hrun _ := by
    rw [run_pure] at hrun
    injection hrun with hanswer hstate
    injection hanswer with hanswer
    subst hanswer
    subst hstate
    exact ⟨v, rfl, hR⟩

theorem orRaise (x : Except ε α) :
    Repeats R fate id (Program.orRaise x : Program W ε α) (Program.orRaise x) where
  foretold w h := by
    rw [run_orRaise] at h
    exact h
  returns w v a w' hR hrun _ := by
    rw [run_orRaise] at hrun
    injection hrun with hanswer hstate
    subst hstate
    exact ⟨v, by rw [run_orRaise, hanswer]; rfl, hR⟩

/-- Two programs in step repeat each other. -/
theorem of_inStep {p : Program W ε α} {q : Program V ε α} (h : InStep R p q)
    (hforetold : ∀ w, fate (p.run w).2 → fate w) : Repeats R fate id p q where
  foretold := hforetold
  returns w v a w' hR hrun _ := by
    obtain ⟨hstates, hanswers⟩ := h w v hR
    rw [hrun] at hstates hanswers
    rcases hq : q.run v with ⟨answer, v'⟩
    rw [hq] at hstates hanswers
    cases hanswers with
    | ok hsame => exact ⟨v', by rw [← hsame]; rfl, hstates⟩

/-- One transaction, with what the fate says of the state it leaves. -/
theorem attempt {f : W → Except ε α × W} {g : V → Except ε β × V}
    (hforetold : ∀ w, fate (f w).2 → fate w)
    (h : ∀ w v a, R w v → (f w).1 = .ok a → fate (f w).2 →
      (g v).1 = .ok (φ a) ∧ R (f w).2 (g v).2) :
    Repeats R fate φ (Program.attempt f) (Program.attempt g) where
  foretold w hend := by
    rw [run_attempt] at hend
    exact hforetold w hend
  returns w v a w' hR hrun hfate := by
    rw [run_attempt] at hrun
    have hanswer : (f w).1 = .ok a := congrArg Prod.fst hrun
    have hstate : (f w).2 = w' := congrArg Prod.snd hrun
    subst hstate
    obtain ⟨hb, hR'⟩ := h w v a hR hanswer hfate
    exact ⟨(g v).2, by rw [run_attempt, ← hb], hR'⟩

/-- Sequencing: the fate is met where the second part starts. -/
theorem bind {ψ : γ → δ} {p : Program W ε α} {q : Program V ε β} {f : α → Program W ε γ}
    {g : β → Program V ε δ} (hp : Repeats R fate φ p q)
    (hfg : ∀ a, Repeats R fate ψ (f a) (g (φ a))) :
    Repeats R fate ψ (p >>= f) (q >>= g) where
  foretold w hend := by
    rw [run_bind] at hend
    cases hrun : p.run w with
    | mk answer u =>
      rw [hrun] at hend
      refine hp.foretold w ?_
      rw [hrun]
      cases answer with
      | error e => exact hend
      | ok a => exact (hfg a).foretold u hend
  returns w v c w' hR hrun hfate := by
    obtain ⟨a, u, ha, hc⟩ := run_bind_ok hrun
    have hmet : fate u := by
      refine (hfg a).foretold u ?_
      rw [hc]
      exact hfate
    obtain ⟨v', hb, hR'⟩ := hp.returns w v a u hR ha hmet
    obtain ⟨v'', hd, hR''⟩ := (hfg a).returns u v' c w' hR' hc hfate
    refine ⟨v'', ?_, hR''⟩
    rw [run_bind, hb]
    exact hd

/-- The second program goes on with its answer. -/
theorem map_right {p : Program W ε α} {q : Program V ε β} (hp : Repeats R fate φ p q)
    (f : β → γ) : Repeats R fate (f ∘ φ) p (f <$> q) where
  foretold := hp.foretold
  returns w v a w' hR hrun hfate := by
    obtain ⟨v', hb, hR'⟩ := hp.returns w v a w' hR hrun hfate
    exact ⟨v', by rw [run_map, hb]; rfl, hR'⟩

end Repeats

end PaymentRecovery.Lib

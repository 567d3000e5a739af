import PaymentRecovery.Lib.Program

/-!
# Two programs side by side

`Coupled P R A p q`: started in states that `P` relates, the two programs come
to states that `R` relates, and to the same exception or to values that `A`
relates in those states. The rules take both programs apart in step.
-/

namespace PaymentRecovery.Lib

variable {W V ε α β γ δ : Type}

/-- Two answers correspond: two values that `A` relates, or the same exception. -/
inductive Answers (A : α → β → Prop) : Except ε α → Except ε β → Prop where
  | ok {a : α} {b : β} (h : A a b) : Answers A (.ok a) (.ok b)
  | error (e : ε) : Answers A (.error e) (.error e)

theorem Answers.mono {A B : α → β → Prop} {x : Except ε α} {y : Except ε β} (h : Answers A x y)
    (hAB : ∀ a b, A a b → B a b) : Answers B x y := by
  cases h with
  | ok h => exact .ok (hAB _ _ h)
  | error e => exact .error e

theorem Answers.of_eq {x y : Except ε α} (h : x = y) : Answers (· = ·) x y := by
  subst h
  cases x with
  | ok a => exact .ok rfl
  | error e => exact .error e

def Coupled (P R : W → V → Prop) (A : W → V → α → β → Prop) (p : Program W ε α)
    (q : Program V ε β) : Prop :=
  ∀ w v, P w v → R (p.run w).2 (q.run v).2 ∧
    Answers (A (p.run w).2 (q.run v).2) (p.run w).1 (q.run v).1

namespace Coupled

open Program

variable {P R : W → V → Prop}

theorem pure {A : W → V → α → β → Prop} {a : α} {b : β} (h : ∀ w v, P w v → R w v ∧ A w v a b) :
    Coupled P R A (Pure.pure a : Program W ε α) (Pure.pure b) :=
  fun w v hP => ⟨(h w v hP).1, .ok (h w v hP).2⟩

theorem throw {A : W → V → α → β → Prop} {e : ε} (h : ∀ w v, P w v → R w v) :
    Coupled P R A (MonadExcept.throw e : Program W ε α) (MonadExcept.throw e) :=
  fun w v hP => ⟨h w v hP, .error e⟩

/-- The same computation gives both the same. -/
theorem orRaise {x : Except ε α} (h : ∀ w v, P w v → R w v) :
    Coupled P R (fun _ _ a b => a = b) (Program.orRaise x : Program W ε α)
      (Program.orRaise x : Program V ε α) := by
  intro w v hP
  rw [run_orRaise, run_orRaise]
  exact ⟨h w v hP, .of_eq rfl⟩

theorem read {A : W → V → α → β → Prop} {f : W → α} {g : V → β}
    (h : ∀ w v, P w v → R w v ∧ A w v (f w) (g v)) :
    Coupled P R A (Program.read f : Program W ε α) (Program.read g) :=
  fun w v hP => ⟨(h w v hP).1, .ok (h w v hP).2⟩

theorem step {A : W → V → α → β → Prop} {f : W → α × W} {g : V → β × V}
    (h : ∀ w v, P w v → R (f w).2 (g v).2 ∧ A (f w).2 (g v).2 (f w).1 (g v).1) :
    Coupled P R A (Program.step f : Program W ε α) (Program.step g) :=
  fun w v hP => ⟨(h w v hP).1, .ok (h w v hP).2⟩

theorem write {f : W → W} {g : V → V} (h : ∀ w v, P w v → R (f w) (g v)) :
    Coupled P R (fun _ _ _ _ => True) (Program.write f : Program W ε Unit) (Program.write g) :=
  fun w v hP => ⟨h w v hP, .ok trivial⟩

theorem attempt {A : W → V → α → β → Prop} {f : W → Except ε α × W} {g : V → Except ε β × V}
    (h : ∀ w v, P w v → R (f w).2 (g v).2 ∧ Answers (A (f w).2 (g v).2) (f w).1 (g v).1) :
    Coupled P R A (Program.attempt f) (Program.attempt g) := by
  intro w v hP
  rw [run_attempt, run_attempt]
  exact h w v hP

/-- Sequencing: the second parts start where the first ones ended, with their values. -/
theorem bind {A : W → V → α → β → Prop} {B : W → V → γ → δ → Prop} {p : Program W ε α}
    {q : Program V ε β} {f : α → Program W ε γ} {g : β → Program V ε δ} (hp : Coupled P R A p q)
    (hfg : ∀ a b, Coupled (fun w v => R w v ∧ A w v a b) R B (f a) (g b)) :
    Coupled P R B (p >>= f) (q >>= g) := by
  intro w v hP
  rw [run_bind, run_bind]
  have hfirst := hp w v hP
  cases hw : p.run w with
  | mk x w' =>
    cases hv : q.run v with
    | mk y v' =>
      rw [hw, hv] at hfirst
      obtain ⟨hR, hA⟩ := hfirst
      cases hA with
      | ok hA => exact hfg _ _ w' v' ⟨hR, hA⟩
      | error e => exact ⟨hR, .error e⟩

/-- Both handlers see the same exception, in related states. -/
theorem tryCatch {A : W → V → α → β → Prop} {p : Program W ε α} {q : Program V ε β}
    {f : ε → Program W ε α} {g : ε → Program V ε β} (hp : Coupled P R A p q)
    (hfg : ∀ e, Coupled R R A (f e) (g e)) :
    Coupled P R A (MonadExcept.tryCatch p f) (MonadExcept.tryCatch q g) := by
  intro w v hP
  rw [run_tryCatch, run_tryCatch]
  have hfirst := hp w v hP
  cases hw : p.run w with
  | mk x w' =>
    cases hv : q.run v with
    | mk y v' =>
      rw [hw, hv] at hfirst
      obtain ⟨hR, hA⟩ := hfirst
      cases hA with
      | ok hA => exact ⟨hR, .ok hA⟩
      | error e => exact hfg e w' v' hR

/-- A stronger start, a weaker answer. -/
theorem mono {P' : W → V → Prop} {A B : W → V → α → β → Prop} {p : Program W ε α}
    {q : Program V ε β} (hp : Coupled P R A p q) (hP : ∀ w v, P' w v → P w v)
    (hAB : ∀ w v a b, R w v → A w v a b → B w v a b) : Coupled P' R B p q := by
  intro w v h
  obtain ⟨hR, hA⟩ := hp w v (hP w v h)
  exact ⟨hR, hA.mono fun a b => hAB _ _ a b hR⟩

end Coupled

/-! ## In step -/

/-- From related states the same answer, and related states again. -/
def Respects (R : W → W → Prop) (f : W → α × W) : Prop :=
  ∀ o o', R o o' → (f o).1 = (f o').1 ∧ R (f o).2 (f o').2

/-- The two programs answer the same, and keep the relation. -/
abbrev InStep (R : W → V → Prop) (p : Program W ε α) (q : Program V ε α) : Prop :=
  Coupled R R (fun _ _ a b => a = b) p q

namespace InStep

variable {R : W → V → Prop}

theorem pure (a : α) : InStep R (Pure.pure a : Program W ε α) (Pure.pure a) :=
  Coupled.pure fun _ _ h => ⟨h, rfl⟩

theorem throw (e : ε) :
    InStep R (MonadExcept.throw e : Program W ε α) (MonadExcept.throw e) :=
  Coupled.throw fun _ _ h => h

theorem orRaise (x : Except ε α) :
    InStep R (Program.orRaise x : Program W ε α) (Program.orRaise x) :=
  Coupled.orRaise fun _ _ h => h

/-- Both go on with one value. -/
theorem bind {B : W → V → γ → δ → Prop} {p : Program W ε α} {q : Program V ε α}
    {f : α → Program W ε γ} {g : α → Program V ε δ} (hp : InStep R p q)
    (hfg : ∀ a, Coupled R R B (f a) (g a)) : Coupled R R B (p >>= f) (q >>= g) := by
  refine Coupled.bind hp fun a b => ?_
  rintro w v ⟨hR, rfl⟩
  exact hfg a w v hR

end InStep

end PaymentRecovery.Lib

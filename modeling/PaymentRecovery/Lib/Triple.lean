import PaymentRecovery.Lib.Program

/-!
# Triples for programs that can die

`Triple C P p Q` reads: started in `P`, the program passes only through states in
`C`, and if it lives to its end, its answer and its last state satisfy `Q`. The
answer is a value or an exception. `Carries C I p` is the case of an invariant
that holds at both ends, with `C` what is left of it in between.
-/

namespace PaymentRecovery.Lib

open Program

variable {W ε α β : Type} {C P I : W → Prop}

/-- Crash condition, precondition, program, postcondition. -/
def Triple (C P : W → Prop) (p : Program W ε α) (Q : Except ε α → W → Prop) : Prop :=
  ∀ w, P w → (∀ c ∈ p.cuts w, C c) ∧ Q (p.run w).1 (p.run w).2

namespace Triple

variable {Q : Except ε α → W → Prop}

/-! ## One rule for each constructor -/

theorem pure {a : α} (h : ∀ w, P w → Q (.ok a) w) :
    Triple C P (Pure.pure a : Program W ε α) Q :=
  fun w hw => ⟨by simp, h w hw⟩

theorem throw {e : ε} (h : ∀ w, P w → Q (.error e) w) :
    Triple C P (MonadExcept.throw e : Program W ε α) Q :=
  fun w hw => ⟨by simp, h w hw⟩

theorem orRaise {x : Except ε α} (h : ∀ w, P w → Q x w) :
    Triple C P (Program.orRaise x) Q := by
  intro w hw
  rw [cuts_orRaise, run_orRaise]
  exact ⟨by simp, h w hw⟩

theorem attempt {f : W → Except ε α × W} (h : ∀ w, P w → C (f w).2 ∧ Q (f w).1 (f w).2) :
    Triple C P (Program.attempt f) Q := by
  intro w hw
  rw [cuts_attempt, run_attempt]
  exact ⟨by simpa using (h w hw).1, (h w hw).2⟩

theorem step {f : W → α × W} (h : ∀ w, P w → C (f w).2 ∧ Q (.ok (f w).1) (f w).2) :
    Triple C P (Program.step f : Program W ε α) Q := by
  intro w hw
  rw [cuts_step, run_step]
  exact ⟨by simpa using (h w hw).1, (h w hw).2⟩

theorem read {f : W → α} (h : ∀ w, P w → C w ∧ Q (.ok (f w)) w) :
    Triple C P (Program.read f : Program W ε α) Q :=
  step h

theorem write {f : W → W} {Q : Except ε Unit → W → Prop}
    (h : ∀ w, P w → C (f w) ∧ Q (.ok ()) (f w)) :
    Triple C P (Program.write f : Program W ε Unit) Q :=
  step h

/-- Sequencing: the second part starts where the first one returned. -/
theorem bind {p : Program W ε α} {g : α → Program W ε β} {R : Except ε β → W → Prop}
    (hp : Triple C P p Q) (hg : ∀ a, Triple C (Q (.ok a)) (g a) R)
    (hraise : ∀ e w, Q (.error e) w → R (.error e) w) : Triple C P (p >>= g) R := by
  intro w hw
  obtain ⟨hcuts, hend⟩ := hp w hw
  rw [cuts_bind, run_bind]
  cases hrun : p.run w with
  | mk answer w' =>
    rw [hrun] at hend
    cases answer with
    | error e => exact ⟨by simpa using hcuts, hraise e w' hend⟩
    | ok a =>
      obtain ⟨hcuts', hend'⟩ := hg a w' hend
      refine ⟨fun c hc => ?_, hend'⟩
      rcases List.mem_append.mp hc with h | h
      · exact hcuts c h
      · exact hcuts' c h

/-- Handling: the handler starts where the exception was raised. -/
theorem tryCatch {p : Program W ε α} {h : ε → Program W ε α} {R : Except ε α → W → Prop}
    (hp : Triple C P p Q) (hreturn : ∀ a w, Q (.ok a) w → R (.ok a) w)
    (hh : ∀ e, Triple C (Q (.error e)) (h e) R) : Triple C P (tryCatch p h) R := by
  intro w hw
  obtain ⟨hcuts, hend⟩ := hp w hw
  rw [cuts_tryCatch, run_tryCatch]
  cases hrun : p.run w with
  | mk answer w' =>
    rw [hrun] at hend
    cases answer with
    | ok a => exact ⟨by simpa using hcuts, hreturn a w' hend⟩
    | error e =>
      obtain ⟨hcuts', hend'⟩ := hh e w' hend
      refine ⟨fun c hc => ?_, hend'⟩
      rcases List.mem_append.mp hc with h' | h'
      · exact hcuts c h'
      · exact hcuts' c h'

/-! ## Consequence -/

theorem pre {p : Program W ε α} {P' : W → Prop} (h : Triple C P p Q)
    (hpre : ∀ w, P' w → P w) : Triple C P' p Q :=
  fun w hw => h w (hpre w hw)

theorem cuts {p : Program W ε α} {C' : W → Prop} (h : Triple C P p Q)
    (hcuts : ∀ w, C w → C' w) : Triple C' P p Q :=
  fun w hw => ⟨fun c hc => hcuts c ((h w hw).1 c hc), (h w hw).2⟩

/-- Two facts about one program hold together. -/
theorem and {p : Program W ε α} {C' P' : W → Prop} {Q' : Except ε α → W → Prop}
    (h : Triple C P p Q) (h' : Triple C' P' p Q') :
    Triple (fun w => C w ∧ C' w) (fun w => P w ∧ P' w) p fun answer w => Q answer w ∧ Q' answer w :=
  fun w hw => ⟨fun c hc => ⟨(h w hw.1).1 c hc, (h' w hw.2).1 c hc⟩,
    (h w hw.1).2, (h' w hw.2).2⟩

/-- A process that dies leaves a state in the crash condition. -/
theorem after {p : Program W ε α} (h : Triple C P p Q) {w : W} (hw : P w) (hc : C w) (n : Nat) :
    C (p.after n w) := by
  rcases after_mem_cuts p n w with hsame | hmem
  · rw [hsame]
    exact hc
  · exact (h w hw).1 _ hmem

end Triple

/-! ## Invariants -/

/-- The program keeps `I` from its start to its end, and passes only through `C`. -/
def Carries (C I : W → Prop) (p : Program W ε α) : Prop :=
  Triple C I p fun _ => I

namespace Carries

theorem pure (a : α) : Carries C I (Pure.pure a : Program W ε α) :=
  Triple.pure fun _ h => h

theorem throw (e : ε) : Carries C I (MonadExcept.throw e : Program W ε α) :=
  Triple.throw fun _ h => h

theorem orRaise (x : Except ε α) : Carries C I (Program.orRaise x) :=
  Triple.orRaise fun _ h => h

theorem attempt {f : W → Except ε α × W} (h : ∀ w, I w → C (f w).2 ∧ I (f w).2) :
    Carries C I (Program.attempt f) :=
  Triple.attempt h

theorem step {f : W → α × W} (h : ∀ w, I w → C (f w).2 ∧ I (f w).2) :
    Carries C I (Program.step f : Program W ε α) :=
  Triple.step h

theorem read (f : W → α) (h : ∀ w, I w → C w) : Carries C I (Program.read f : Program W ε α) :=
  Triple.read fun w hw => ⟨h w hw, hw⟩

theorem write {f : W → W} (h : ∀ w, I w → C (f w) ∧ I (f w)) :
    Carries C I (Program.write f : Program W ε Unit) :=
  Triple.write h

theorem bind {p : Program W ε α} {g : α → Program W ε β} (hp : Carries C I p)
    (hg : ∀ a, Carries C I (g a)) : Carries C I (p >>= g) :=
  Triple.bind hp hg fun _ _ h => h

theorem tryCatch {p : Program W ε α} {h : ε → Program W ε α} (hp : Carries C I p)
    (hh : ∀ e, Carries C I (h e)) : Carries C I (tryCatch p h) :=
  Triple.tryCatch hp (fun _ _ h => h) hh

theorem map {f : α → β} {p : Program W ε α} (hp : Carries C I p) : Carries C I (f <$> p) :=
  hp.bind fun a => pure (f a)

theorem run {p : Program W ε α} (h : Carries C I p) {w : W} (hw : I w) : I (p.run w).2 :=
  (h w hw).2

end Carries

/-! ## Answers -/

/-- Whatever the program returns satisfies `R`, wherever it was started. -/
def Yields (p : Program W ε α) (R : α → Prop) : Prop :=
  ∀ w a w', p.run w = (.ok a, w') → R a

namespace Yields

variable {R : α → Prop}

theorem pure {a : α} (h : R a) : Yields (Pure.pure a : Program W ε α) R := by
  intro w b w' hrun
  rw [run_pure] at hrun
  injection hrun with hrun _
  injection hrun with hrun
  exact hrun ▸ h

theorem step {f : W → α × W} (h : ∀ w, R (f w).1) : Yields (Program.step f : Program W ε α) R := by
  intro w a w' hrun
  rw [run_step] at hrun
  injection hrun with hrun _
  injection hrun with hrun
  exact hrun ▸ h w

theorem attempt {f : W → Except ε α × W} (h : ∀ w a, (f w).1 = .ok a → R a) :
    Yields (Program.attempt f) R := by
  intro w a w' hrun
  rw [run_attempt] at hrun
  exact h w a (by rw [hrun])

theorem orRaise {x : Except ε α} (h : ∀ a, x = .ok a → R a) :
    Yields (Program.orRaise x : Program W ε α) R := by
  intro w a w' hrun
  rw [run_orRaise] at hrun
  injection hrun with hrun _
  exact h a hrun

/-- Sequencing: the second part may rely on what the first one returned. -/
theorem bind {p : Program W ε α} {g : α → Program W ε β} {R' : β → Prop} (hp : Yields p R)
    (hg : ∀ a, R a → Yields (g a) R') : Yields (p >>= g) R' := by
  intro w b w' hrun
  obtain ⟨a, v, ha, hb⟩ := run_bind_ok hrun
  exact hg a (hp w a v ha) v b w' hb

end Yields

end PaymentRecovery.Lib

import Mathlib.Data.List.Basic
import Mathlib.Order.Defs.Unbundled

/-!
# Programs of atomic transactions

A process that works on durable state is a tree of atomic transactions: each
one reads and rewrites the whole state in one indivisible step and hands an
answer to the rest of the program. The same tree has two readings.

* `run` carries the program to its end: the value it returns or the exception
  it raises, and the state it leaves.
* `cuts` lists the states it passes through: what a process that dies between
  two transactions leaves behind.

`Moves` says what a program may do to the state, as a relation between its two ends.

Nothing here knows what the state is.
-/

namespace PaymentRecovery.Lib

/-- A program over the durable state `W` that returns an `α` or raises an `ε`. -/
inductive Program (W ε α : Type) : Type 1 where
  | ret (a : α)
  | raise (e : ε)
  | atomic {β : Type} (f : W → β × W) (next : β → Program W ε α)

namespace Program

variable {W ε α β γ : Type}

/-- Sequencing: an exception skips what follows. -/
def bind : Program W ε α → (α → Program W ε β) → Program W ε β
  | .ret a, g => g a
  | .raise e, _ => .raise e
  | .atomic f next, g => .atomic f fun b => (next b).bind g

/-- Handle the exceptions of `p` with `h`; the state reached so far is kept. -/
def handle : Program W ε α → (ε → Program W ε α) → Program W ε α
  | .ret a, _ => .ret a
  | .raise e, h => h e
  | .atomic f next, h => .atomic f fun b => (next b).handle h

instance : Monad (Program W ε) where
  pure := .ret
  bind := bind

instance : MonadExcept ε (Program W ε) where
  throw := .raise
  tryCatch := handle

/-- One transaction that may change the state. -/
def step (f : W → β × W) : Program W ε β :=
  .atomic f .ret

/-- One transaction that only reads. -/
def read (f : W → β) : Program W ε β :=
  step fun w => (f w, w)

/-- One transaction that only writes. -/
def write (f : W → W) : Program W ε Unit :=
  step fun w => ((), f w)

/-- Raise the exception of a failed computation, return the value of a good one. -/
def orRaise : Except ε α → Program W ε α
  | .ok a => .ret a
  | .error e => .raise e

/-- One transaction whose answer may be an exception. -/
def attempt (f : W → Except ε β × W) : Program W ε β :=
  .atomic f orRaise

/-- A good computation is its value. -/
theorem orRaise_ok_bind (a : α) (g : α → Program W ε β) :
    ((orRaise (.ok a) : Program W ε α) >>= g) = g a := rfl

/-- Sequencing is associative. -/
theorem bind_assoc (p : Program W ε α) (g : α → Program W ε β) (h : β → Program W ε γ) :
    p >>= g >>= h = p >>= fun a => g a >>= h := by
  induction p with
  | ret a => rfl
  | raise e => rfl
  | atomic f next ih => exact congrArg (Program.atomic f) (funext ih)

/-- A value that is returned is handed on. -/
theorem pure_bind (a : α) (g : α → Program W ε β) :
    (Pure.pure a : Program W ε α) >>= g = g a := rfl

/-- A function of what a sequence returns is a function of what its last part returns. -/
theorem map_bind {γ : Type} (h : β → γ) (p : Program W ε α) (g : α → Program W ε β) :
    h <$> (p >>= g) = p >>= fun a => h <$> g a := by
  induction p with
  | ret a => rfl
  | raise e => rfl
  | atomic f next ih => exact congrArg (Program.atomic f) (funext ih)

/-! ## Running to the end -/

/-- The outcome of the whole program and the state it leaves. -/
def run : Program W ε α → W → Except ε α × W
  | .ret a, w => (.ok a, w)
  | .raise e, w => (.error e, w)
  | .atomic f next, w => (next (f w).1).run (f w).2

@[simp] theorem run_pure (a : α) (w : W) :
    (pure a : Program W ε α).run w = (.ok a, w) := rfl

@[simp] theorem run_throw (e : ε) (w : W) :
    (throw e : Program W ε α).run w = (.error e, w) := rfl

@[simp] theorem run_step (f : W → β × W) (w : W) :
    (step f : Program W ε β).run w = (.ok (f w).1, (f w).2) := rfl

@[simp] theorem run_read (f : W → β) (w : W) :
    (read f : Program W ε β).run w = (.ok (f w), w) := rfl

@[simp] theorem run_write (f : W → W) (w : W) :
    (write f : Program W ε Unit).run w = (.ok (), f w) := rfl

@[simp] theorem run_orRaise (x : Except ε α) (w : W) :
    (orRaise x : Program W ε α).run w = (x, w) := by
  cases x <;> rfl

@[simp] theorem run_attempt (f : W → Except ε β × W) (w : W) :
    (attempt f).run w = f w := by
  show (orRaise (f w).1 : Program W ε β).run (f w).2 = f w
  rw [run_orRaise]

/-- Sequencing runs the continuation on the value, in the state left behind. -/
@[simp] theorem run_bind (p : Program W ε α) (g : α → Program W ε β) (w : W) :
    (p >>= g).run w =
      match p.run w with
      | (.ok a, w') => (g a).run w'
      | (.error e, w') => (.error e, w') := by
  induction p generalizing w with
  | ret a => rfl
  | raise e => rfl
  | atomic f next ih => exact ih (f w).1 (f w).2

theorem mem_toOption {answer : Except ε α} {a : α} : a ∈ answer.toOption ↔ answer = .ok a := by
  cases answer with
  | error e => simp [Except.toOption]
  | ok b => simp [Except.toOption]

/-- A sequence that returned did so through a value of its first part. -/
theorem run_bind_ok {p : Program W ε α} {g : α → Program W ε β} {w w' : W} {b : β}
    (h : (p >>= g).run w = (.ok b, w')) :
    ∃ a v, p.run w = (.ok a, v) ∧ (g a).run v = (.ok b, w') := by
  rw [run_bind] at h
  split at h
  · rename_i a v hp
    exact ⟨a, v, hp, h⟩
  · injection h with h
    cases h

/-- Mapping changes the answer alone. -/
@[simp] theorem run_map (f : α → β) (p : Program W ε α) (w : W) :
    (f <$> p).run w = (f <$> (p.run w).1, (p.run w).2) := by
  have hmap : (f <$> p) = p >>= fun a => pure (f a) := rfl
  rw [hmap, run_bind]
  cases p.run w with
  | mk answer w' => cases answer <;> rfl

theorem run_map_ok {f : α → β} {p : Program W ε α} {w : W} {b : β}
    (h : ((f <$> p).run w).1 = .ok b) : ∃ a, (p.run w).1 = .ok a ∧ b = f a := by
  rw [run_map] at h
  cases ha : (p.run w).1 with
  | error e =>
    rw [ha] at h
    cases h
  | ok a =>
    rw [ha] at h
    injection h with h
    exact ⟨a, rfl, h.symm⟩

/-- A handler sees the exception in the state the exception left. -/
@[simp] theorem run_tryCatch (p : Program W ε α) (h : ε → Program W ε α) (w : W) :
    (tryCatch p h).run w =
      match p.run w with
      | (.ok a, w') => (.ok a, w')
      | (.error e, w') => (h e).run w' := by
  show (p.handle h).run w = _
  induction p generalizing w with
  | ret a => rfl
  | raise e => rfl
  | atomic f next ih => exact ih (f w).1 (f w).2

/-! ## What a program may do to the state -/

/-- Whatever state the program starts in, `R` relates it to the state it leaves. -/
def Moves (R : W → W → Prop) (p : Program W ε α) : Prop :=
  ∀ w, R w (p.run w).2

namespace Moves

variable {R : W → W → Prop}

theorem pure [Std.Refl R] (a : α) : Moves R (Pure.pure a : Program W ε α) :=
  fun w => Std.Refl.refl w

theorem throw [Std.Refl R] (e : ε) : Moves R (MonadExcept.throw e : Program W ε α) :=
  fun w => Std.Refl.refl w

theorem orRaise [Std.Refl R] (x : Except ε α) : Moves R (Program.orRaise x : Program W ε α) := by
  intro w
  rw [run_orRaise]
  exact Std.Refl.refl w

theorem read [Std.Refl R] (f : W → α) : Moves R (Program.read f : Program W ε α) :=
  fun w => Std.Refl.refl w

theorem write {f : W → W} (h : ∀ w, R w (f w)) : Moves R (Program.write f : Program W ε Unit) :=
  fun w => h w

theorem attempt {f : W → Except ε α × W} (h : ∀ w, R w (f w).2) :
    Moves R (Program.attempt f) := by
  intro w
  rw [run_attempt]
  exact h w

/-- Sequencing composes the two parts. -/
theorem bind [IsTrans W R] {p : Program W ε α} {g : α → Program W ε β}
    (hp : Moves R p) (hg : ∀ a, Moves R (g a)) : Moves R (p >>= g) := by
  intro w
  rw [run_bind]
  split
  · rename_i a w' h
    have hfirst := hp w
    rw [h] at hfirst
    exact IsTrans.trans _ _ _ hfirst (hg a w')
  · rename_i e w' h
    have hfirst := hp w
    rw [h] at hfirst
    exact hfirst

/-- What a program does is also what any weaker relation allows. -/
theorem mono {R' : W → W → Prop} {p : Program W ε α} (hp : Moves R p)
    (h : ∀ w w', R w w' → R' w w') : Moves R' p :=
  fun w => h _ _ (hp w)

end Moves

/-! ## Dying on the way -/

/-- The states the program passes through, one after each transaction. -/
def cuts : Program W ε α → W → List W
  | .ret _, _ => []
  | .raise _, _ => []
  | .atomic f next, w => (f w).2 :: (next (f w).1).cuts (f w).2

@[simp] theorem cuts_pure (a : α) (w : W) :
    (pure a : Program W ε α).cuts w = [] := rfl

@[simp] theorem cuts_throw (e : ε) (w : W) :
    (throw e : Program W ε α).cuts w = [] := rfl

@[simp] theorem cuts_step (f : W → β × W) (w : W) :
    (step f : Program W ε β).cuts w = [(f w).2] := rfl

@[simp] theorem cuts_read (f : W → β) (w : W) :
    (read f : Program W ε β).cuts w = [w] := rfl

@[simp] theorem cuts_write (f : W → W) (w : W) :
    (write f : Program W ε Unit).cuts w = [f w] := rfl

@[simp] theorem cuts_orRaise (x : Except ε α) (w : W) :
    (orRaise x : Program W ε α).cuts w = [] := by
  cases x <;> rfl

@[simp] theorem cuts_attempt (f : W → Except ε β × W) (w : W) :
    (attempt f).cuts w = [(f w).2] := by
  show (f w).2 :: (orRaise (f w).1 : Program W ε β).cuts (f w).2 = _
  rw [cuts_orRaise]

/-- A sequence passes through the states of its first part, then those of its second. -/
@[simp] theorem cuts_bind (p : Program W ε α) (g : α → Program W ε β) (w : W) :
    (p >>= g).cuts w = p.cuts w ++
      match p.run w with
      | (.ok a, w') => (g a).cuts w'
      | (.error _, _) => [] := by
  induction p generalizing w with
  | ret a => rfl
  | raise e => rfl
  | atomic f next ih => exact congrArg ((f w).2 :: ·) (ih (f w).1 (f w).2)

@[simp] theorem cuts_map (f : α → β) (p : Program W ε α) (w : W) :
    (f <$> p).cuts w = p.cuts w := by
  have hmap : (f <$> p) = p >>= fun a => pure (f a) := rfl
  rw [hmap, cuts_bind]
  cases p.run w with
  | mk answer w' => cases answer <;> simp

@[simp] theorem cuts_tryCatch (p : Program W ε α) (h : ε → Program W ε α) (w : W) :
    (tryCatch p h).cuts w = p.cuts w ++
      match p.run w with
      | (.ok _, _) => []
      | (.error e, w') => (h e).cuts w' := by
  show (p.handle h).cuts w = _
  induction p generalizing w with
  | ret a => rfl
  | raise e => rfl
  | atomic f next ih => exact congrArg ((f w).2 :: ·) (ih (f w).1 (f w).2)

/-- The state after at most `n` transactions: what a process that dies there leaves. -/
def after : (n : Nat) → Program W ε α → W → W
  | 0, _, w => w
  | _ + 1, .ret _, w => w
  | _ + 1, .raise _, w => w
  | n + 1, .atomic f next, w => (next (f w).1).after n (f w).2

theorem after_mem_cuts (p : Program W ε α) (n : Nat) (w : W) :
    p.after n w = w ∨ p.after n w ∈ p.cuts w := by
  induction n generalizing p w with
  | zero => exact .inl rfl
  | succ n ih =>
    cases p with
    | ret a => exact .inl rfl
    | raise e => exact .inl rfl
    | atomic f next =>
      rcases ih (next (f w).1) (f w).2 with h | h
      · exact .inr (List.mem_cons.mpr (.inl h))
      · exact .inr (List.mem_cons_of_mem _ h)

/-- A process can die in each of these states. -/
theorem after_of_mem_cuts {p : Program W ε α} {w c : W} (h : c ∈ p.cuts w) :
    ∃ n, p.after n w = c := by
  induction p generalizing w with
  | ret a => exact absurd h List.not_mem_nil
  | raise e => exact absurd h List.not_mem_nil
  | atomic f next ih =>
    rcases List.mem_cons.mp h with hfirst | hlater
    · refine ⟨1, ?_⟩
      rw [hfirst]
      cases next (f w).1 <;> rfl
    · obtain ⟨n, hn⟩ := ih (f w).1 hlater
      exact ⟨n + 1, hn⟩

end Program

end PaymentRecovery.Lib

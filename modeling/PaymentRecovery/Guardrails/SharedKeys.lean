import PaymentRecovery.Guardrails.SharedLimits

/-!
# Keys among several workers

The stored result of a key is read before its handler runs and written after, so
workers that share a store can run the handler of one key beside each other. Each
of them does so once at most, and a key whose result is stored runs no more.
-/

namespace PaymentRecovery.Guardrails

open PaymentRecovery.Python PaymentRecovery.Lib Program LawfulGuardStore

variable {ι S σ : Type} {scope : Scope} {s s' : Snapshot} {c c' : Point}

/-- The effects of one key of a run. -/
def Snapshot.effectsUnder (s : Snapshot) (run key : String) : List Invocation :=
  s.effects.filter fun inv => inv.runKey = (run, key)

/-- 1 for a worker that has found the key without a result and may yet run its handler. -/
def Point.mayRun (run key : String) : Point → ℕ
  | .gated t | .cleared t | .counted t | .admitted t =>
    if t.runId = run ∧ t.key = key then 1 else 0
  | _ => 0

/-- 1 for a worker that has run the handler and not yet stored its result. -/
def Point.mustStore (run key : String) : Point → ℕ
  | .returned t | .charged t => if t.runId = run ∧ t.key = key then 1 else 0
  | _ => 0

theorem Point.mayRun_add_mustStore_le (run key : String) (c : Point) :
    c.mayRun run key + c.mustStore run key ≤ 1 := by
  cases c <;> unfold mayRun mustStore <;> dsimp only <;> first | omega | (split <;> omega)

theorem Snapshot.effectsUnder_congr {run key : String} (h : s'.invocations = s.invocations) :
    s'.effectsUnder run key = s.effectsUnder run key := by
  unfold effectsUnder effects
  rw [h]

/-- A handler run is an effect of its key if its result can be stored. -/
theorem Snapshot.effectsUnder_invoked (s : Snapshot) (inv : Invocation) (run key : String) :
    ((s.invoked inv).effectsUnder run key).length = (s.effectsUnder run key).length +
      if inv.resultJson.isSome ∧ inv.runKey = (run, key) then 1 else 0 := by
  unfold effectsUnder
  cases hjson : inv.resultJson with
  | none => simp [effects_invoked_none hjson]
  | some j =>
    rw [effects_invoked_some hjson, List.filter_append, List.length_append]
    by_cases hkey : inv.runKey = (run, key)
    · simp [hkey]
    · simp [hkey]

/-- A worker that comes to hold a fresh key found it without a result; no other move adds to the
effects and to what may yet run. -/
theorem Move.runs (h : Move scope s c c' s') (run key : String) :
    (s'.effectsUnder run key).length + c'.mayRun run key ≤
      (s.effectsUnder run key).length + c.mayRun run key ∨
    s.state.result run key = none ∧
      (s'.effectsUnder run key).length = (s.effectsUnder run key).length ∧
      c'.mustStore run key = c.mustStore run key := by
  cases h with
  | gated t hscope hfresh | passed t hscope hfresh =>
    by_cases hown : t.runId = run ∧ t.key = key
    · rw [hown.1, hown.2] at hfresh
      exact .inr ⟨hfresh, rfl, rfl⟩
    · refine .inl ?_
      unfold Point.mayRun
      dsimp only
      rw [if_neg hown]
  | called r action =>
    rw [Snapshot.effectsUnder_congr (Snapshot.invocations_called s r action)]
    exact .inl (le_refl _)
  | failed t inv hown hlost =>
    rw [Snapshot.effectsUnder_invoked, hlost]
    exact .inl (Nat.add_le_add_left (Nat.zero_le _) _)
  | returned t inv hown hstores =>
    refine .inl (le_of_eq ?_)
    rw [Snapshot.effectsUnder_invoked, Invocation.runKey, hown.1, hown.2.2, hstores, Nat.add_assoc]
    simp only [true_and, Prod.mk.injEq]
    rfl
  | ungated | held | spent | refused => exact .inl (Nat.add_le_add_left (Nat.zero_le _) _)
  | _ => exact .inl (le_refl _)

/-- As long as nothing is stored under the key, each effect of it is one that a worker must still
store. -/
theorem Move.stores (h : Move scope s c c' s') {run key : String}
    (hnone : s'.state.result run key = none) :
    s.state.result run key = none ∧
      (s'.effectsUnder run key).length + c.mustStore run key ≤
        (s.effectsUnder run key).length + c'.mustStore run key := by
  cases h with
  | called r action =>
    rw [Snapshot.effectsUnder_congr (Snapshot.invocations_called s r action)]
    exact ⟨hnone, le_refl _⟩
  | failed t inv hown hlost =>
    rw [Snapshot.effectsUnder_invoked, hlost]
    exact ⟨hnone, le_refl _⟩
  | returned t inv hown hstores =>
    refine ⟨hnone, le_of_eq ?_⟩
    rw [Snapshot.effectsUnder_invoked, Invocation.runKey, hown.1, hown.2.2, hstores]
    simp only [true_and, Prod.mk.injEq]
    rfl
  | stored t rec hown =>
    have hheld : (if run = rec.runId ∧ key = rec.idempotencyKey then some rec
        else s.state.result run key) = none := hnone
    split at hheld
    · cases hheld
    · rename_i hother
      rw [hown.1, hown.2] at hother
      refine ⟨hheld, ?_⟩
      rw [show (Point.charged t).mustStore run key = 0 from
        if_neg fun h => hother ⟨h.1.symm, h.2.symm⟩]
      exact le_refl _
  | _ => exact ⟨hnone, le_refl _⟩

/-- Since there were `base` effects of the key there has been room for as many more, one for each
worker if the key has no result. -/
structure OncePerWorker [Fintype ι] (run key : String) (base room : ℕ) (points : ι → Point)
    (s : Snapshot) : Prop where
  fresh : s.state.result run key = none → Fintype.card ι ≤ room ∧
    (s.effectsUnder run key).length ≤ base + ∑ i, (points i).mustStore run key
  runs : (s.effectsUnder run key).length + ∑ i, (points i).mayRun run key ≤ base + room

variable [Fintype ι] [DecidableEq ι]

theorem OncePerWorker.move {run key : String} {base room : ℕ} {points : ι → Point} {i : ι}
    (h : OncePerWorker run key base room points s) (hmove : Move scope s (points i) c' s') :
    OncePerWorker run key base room (Function.update points i c') s' := by
  have hstore := sum_update (Point.mustStore run key) points i c'
  have hrun := sum_update (Point.mayRun run key) points i c'
  constructor
  · intro hnone
    obtain ⟨hbefore, hstores⟩ := hmove.stores hnone
    obtain ⟨hroom, hunstored⟩ := h.fresh hbefore
    exact ⟨hroom, by omega⟩
  · rcases hmove.runs run key with hkept | ⟨hnone, hsame, howed⟩
    · have := h.runs
      omega
    · -- no worker both may run the handler and must store a result
      have hone : ∑ j, ((Function.update points i c' j).mayRun run key +
          (Function.update points i c' j).mustStore run key) ≤ Fintype.card ι :=
        (Finset.sum_le_card_nsmul _ _ 1 fun j _ => Point.mayRun_add_mustStore_le run key _).trans
          (by simp)
      rw [Finset.sum_add_distrib] at hone
      obtain ⟨hroom, hunstored⟩ := h.fresh hnone
      omega

variable [GuardStore S] [LawfulGuardStore S] [SharedGuardStore S]

/-- **An effect at most once for each worker.** However often the workers present an action, in
whatever order their transactions come: its handler runs to a result at most once for each worker,
and not once more if a result was stored under its key when they began. -/
theorem effects_among_workers (run key : String) (calls : ι → List (Call σ)) (w : World S σ)
    (schedule : List ι) :
    ((worldAfter calls w schedule).snapshot.effectsUnder run key).length ≤
      (w.snapshot.effectsUnder run key).length +
        if GuardStore.getResult w.store run key = none then Fintype.card ι else 0 := by
  rw [getResult_eq]
  obtain ⟨points, honce, _⟩ := workers_keep .all calls w
    (I := fun _ points s => OncePerWorker run key (w.snapshot.effectsUnder run key).length
      (if (view w.store).result run key = none then Fintype.card ι else 0) points s)
    (fun _ call _ => Scope.all_covers call) (fun _ _ _ _ => trivial)
    (by
      refine ⟨fun hnone => ?_, ?_⟩
      · exact ⟨le_of_eq (if_pos hnone).symm, Nat.le_add_right _ _⟩
      · simp only [Point.mayRun, Finset.sum_const_zero, Nat.add_zero]
        exact Nat.le_add_right _ _)
    (fun _ _ _ _ _ h hmove => h.move hmove) schedule
  exact (Nat.le_add_right _ _).trans honce.runs

namespace Sample

/-- Two workers are handed the same payment. -/
def handedTwice : Bool → List (Call Unit) := fun _ => [.execute executor (pay 100)]

end Sample

open Sample

theorem effects_among_two :
    ((worldAfter handedTwice (.fresh () : World InMemoryGuardStore Unit)
      inTurns).snapshot.effectsUnder "run" "key").length ≤ 0 + 2 :=
  effects_among_workers "run" "key" handedTwice (.fresh ()) inTurns

/-- Both find no result before either stores one. -/
example : ((worldAfter handedTwice (.fresh () : World InMemoryGuardStore Unit)
    inTurns).snapshot.effectsUnder "run" "key").length = 2 := by
  decide +kernel

end PaymentRecovery.Guardrails

import PaymentRecovery.Recovery.Distiller

/-!
# What the calls of the distiller are made of

Distilling, promoting and demoting change the world in four ways: the memory takes a note, the
proposer takes a turn, a rule is stored, or `set_status` moves one. A relation that each of these
keeps is kept by the call, however it ends.
-/

namespace PaymentRecovery.Recovery

open PaymentRecovery.Python PaymentRecovery.Lib PaymentRecovery.Distill Program

variable {σ : Type} {D : PaymentDistiller σ} {R : DistillerWorld σ → DistillerWorld σ → Prop}

/-- The relation is kept when the memory changes elsewhere than in its pool, statistics and
windows. -/
def KeptByNotes (R : DistillerWorld σ → DistillerWorld σ → Prop) : Prop :=
  ∀ f : DistillerState → DistillerState,
    (∀ s, (f s).pool = s.pool ∧ (f s).shadow = s.shadow ∧ (f s).recent = s.recent) →
      Moves R (remember f)

/-- What distilling is made of keeps the relation. -/
structure KeptByDistilling (D : PaymentDistiller σ)
    (R : DistillerWorld σ → DistillerWorld σ → Prop) : Prop where
  notes : KeptByNotes R
  asked : ∀ w env, R w { w with env := env }
  stored : ∀ ruleKey candidate definition, Moves R (D.store ruleKey candidate definition)

variable [Std.Refl R] [IsTrans (DistillerWorld σ) R]

namespace KeptByDistilling

theorem propose (h : KeptByDistilling D R) (keyFeatures : Situation) (action : String) :
    Moves R (D.propose keyFeatures action) := by
  unfold PaymentDistiller.propose
  refine .bind (.orRaise _) fun messages => .bind (.attempt fun w => h.asked w _) fun response => ?_
  cases D.readProposal response with
  | ok proposal => exact .pure _
  | error exc =>
    dsimp only
    split
    · exact .bind (h.notes _ fun _ => ⟨rfl, rfl, rfl⟩) fun _ => .pure _
    · exact .throw _

theorem distillOne (h : KeptByDistilling D R) (candidate : Situation × String × List String) :
    Moves R (D.distillOne candidate) := by
  unfold PaymentDistiller.distillOne
  refine .bind (.read _) fun created => ?_
  dsimp only
  split
  · exact .pure ()
  · refine .bind (h.propose _ _) fun definition => ?_
    cases definition with
    | none => exact .pure ()
    | some definition =>
      exact .bind (h.stored _ _ _) fun _ => h.notes _ fun _ => ⟨rfl, rfl, rfl⟩

theorem distillAll (h : KeptByDistilling D R)
    (candidates : List (Situation × String × List String)) : Moves R (D.distillAll candidates) := by
  induction candidates with
  | nil => exact .pure ()
  | cons candidate rest ih => exact .bind (h.distillOne candidate) fun _ => ih

theorem distill (h : KeptByDistilling D R) : Moves R D.distill :=
  .bind (.attempt fun w => Std.Refl.refl w) fun candidates => h.distillAll candidates

/-- `step` as far as `promote`. -/
theorem dueToPromote (h : KeptByDistilling D R) (casesSeen : Int) :
    Moves R (D.dueToPromote casesSeen) := by
  unfold PaymentDistiller.dueToPromote
  refine .bind (h.notes _ fun _ => ⟨rfl, rfl, rfl⟩) fun _ => ?_
  split
  · exact .throw _
  split
  · exact .pure _
  · exact .bind h.distill fun _ => .pure _

end KeptByDistilling

/-- `promote` makes notes and moves rules to ACTIVE. -/
theorem promote_moves (hnotes : KeptByNotes R) (hmove : ∀ l, Moves R (D.moveTo l .active "")) :
    Moves R D.promote := by
  refine .bind (.attempt fun w => Std.Refl.refl w) fun ls => ?_
  induction ls with
  | nil => exact .pure ()
  | cons l rest ih =>
    refine .bind ?_ fun _ => ih
    unfold PaymentDistiller.promoteOne
    refine .bind (.read _) fun stats => ?_
    cases stats with
    | none => exact .pure ()
    | some stats =>
      dsimp only
      split
      · exact .pure ()
      split
      · exact hnotes _ fun _ => ⟨rfl, rfl, rfl⟩
      · exact .bind (hmove l) fun _ => hnotes _ fun _ => ⟨rfl, rfl, rfl⟩

/-- `demote` moves rules to DEMOTED and clears their windows. -/
theorem demote_moves
    (hcleared : ∀ f : DistillerState → DistillerState,
      (∀ s, (f s).pool = s.pool ∧ (f s).shadow = s.shadow) → Moves R (remember f))
    (hmove : ∀ l reason, Moves R (D.moveTo l .demoted reason)) : Moves R D.demote := by
  refine .bind (.attempt fun w => Std.Refl.refl w) fun ls => ?_
  induction ls with
  | nil => exact .pure ()
  | cons l rest ih =>
    refine .bind ?_ fun _ => ih
    unfold PaymentDistiller.demoteOne
    refine .bind (.read _) fun window => ?_
    cases window with
    | none => exact .pure ()
    | some window =>
      dsimp only
      split
      · exact .bind (hmove l _) fun _ => hcleared _ fun _ => ⟨rfl, rfl⟩
      · exact .pure ()

end PaymentRecovery.Recovery

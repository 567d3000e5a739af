import PaymentRecovery.Guardrails.Crash
import PaymentRecovery.Guardrails.Parity

/-!
# Runs apart

Results, approvals, counts, spend, breaker and audit log are all kept by run. A
call writes the part of its own run only, so of the runs in `U` it leaves
everything as it was if its own is none of them.
-/

namespace PaymentRecovery.Guardrails

open PaymentRecovery.Python PaymentRecovery.Lib

namespace GuardState.Agree

variable {U : String → Prop} {g h i : GuardState}

theorem trans (hg : Agree U g h) (hh : Agree U h i) : Agree U g i :=
  ⟨fun r k hr => (hg.result r k hr).trans (hh.result r k hr),
    fun r k hr => (hg.approval r k hr).trans (hh.approval r k hr),
    fun r subject hr => (hg.count r subject hr).trans (hh.count r subject hr),
    fun r hr => (hg.spend r hr).trans (hh.spend r hr),
    fun r hr => (hg.breaker r hr).trans (hh.breaker r hr),
    fun r hr => (hg.audit r hr).trans (hh.audit r hr)⟩

/-! ## Writes to another run -/

theorem ne_apart {r run : String} (hr : U r) (hrun : ¬ U run) : r ≠ run := by
  intro hsame
  exact hrun (hsame ▸ hr)

theorem stored_apart (hg : Agree U g h) {rec : IdempotencyRecord} (hrun : ¬ U rec.runId) :
    Agree U g (h.stored rec) := by
  refine { hg with result := fun r k hr => ?_ }
  unfold GuardState.stored
  simp only [ne_apart hr hrun, false_and, if_false]
  exact hg.result r k hr

theorem held_apart (hg : Agree U g h) {rec : ApprovalRecord} (hrun : ¬ U rec.runId) :
    Agree U g (h.held rec) := by
  refine { hg with approval := fun r k hr => ?_ }
  unfold GuardState.held
  simp only [ne_apart hr hrun, false_and, if_false]
  exact hg.approval r k hr

theorem charged_apart (hg : Agree U g h) {run : String} (hrun : ¬ U run) (subject : String)
    (cost : ℚ) : Agree U g (h.charged run subject cost) := by
  refine { hg with count := fun r s hr => ?_, spend := fun r hr => ?_ }
  · unfold GuardState.charged
    simp only [ne_apart hr hrun, false_and, if_false]
    exact hg.count r s hr
  · unfold GuardState.charged
    dsimp only
    rw [if_neg (ne_apart hr hrun)]
    exact hg.spend r hr

theorem tripped_apart (hg : Agree U g h) {run : String} (hrun : ¬ U run) :
    Agree U g (h.tripped run) := by
  refine { hg with breaker := fun r hr => ?_ }
  unfold GuardState.tripped
  dsimp only
  rw [if_neg (ne_apart hr hrun)]
  exact hg.breaker r hr

theorem logged_apart (hg : Agree U g h) {entry : AuditEntry} (hrun : ¬ U entry.runId) :
    Agree U g (h.logged entry) := by
  refine { hg with audit := fun r hr => ?_ }
  unfold GuardState.logged
  dsimp only
  rw [if_neg (ne_apart hr hrun)]
  exact hg.audit r hr

end GuardState.Agree

/-! ## One call -/

variable {S σ : Type} {U : String → Prop} {ex : GuardedExecutor σ} {action : Action}

/-- Whatever way the call takes, it writes to its own run. -/
theorem ExecuteStep.agree_apart {s s' : Snapshot} {answer : Except PyExc ExecutionResult}
    (hstep : ExecuteStep ex action s answer s') (hU : ¬ U ex.runId) :
    s.state.Agree U s'.state := by
  have hsame := GuardState.Agree.refl (U := U) s.state
  cases hstep with
  | breakerOpen hopen => exact hsame.logged_apart hU
  | duplicate rec result hclosed hrec hload => exact hsame.logged_apart hU
  | corrupt rec exc hclosed hrec hload => exact hsame
  | unknownAction hclosed hfresh hunknown => exact hsame
  | unserialisable exc hclosed hfresh hgated hnone hdump => exact hsame
  | enqueued id paramsJson t hclosed hfresh hgated hnone hdump hid =>
    exact (hsame.held_apart hU).logged_apart hU
  | undecided rec detail hclosed hfresh hgated hrec hstate => exact hsame.logged_apart hU
  | overBudget detail hclear hbudget => exact hsame.logged_apart hU
  | overCap hclear hbudget hcap => exact (hsame.tripped_apart hU).logged_apart hU
  | raised exc hadm hyields => exact hsame.logged_apart hU
  | unstorable result exc hadm hyields hdump => exact hsame
  | executed result resultJson hadm hyields hdump =>
    exact ((hsame.charged_apart hU _ _).stored_apart hU).logged_apart hU

/-- The runs in `U` stay as they are in `g`. -/
theorem execute_apart [GuardStore S] [LawfulGuardStore S] {g : GuardState} (hU : ¬ U ex.runId) :
    Carries (fun _ => True) (fun w : World S σ => g.Agree U w.view) (ex.execute action) :=
  Triple.cuts (execute_carries (C := fun _ => True) (I := fun s => g.Agree U s.state)
    (fun _ _ _ _ _ => trivial) fun _ _ _ _ hI hstep => hI.trans (hstep.agree_apart hU))
    fun _ _ => trivial

end PaymentRecovery.Guardrails

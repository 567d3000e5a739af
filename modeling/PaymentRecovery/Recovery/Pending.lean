import PaymentRecovery.Guardrails.StoreParity
import PaymentRecovery.Recovery.Pipeline

/-!
# The newest pending approval

The row of an agent run names the newest pending approval of the run, whichever
the executor answered with. This is the right one if and only if the approval of
the action is newer than all others, when it is queued by the call, or is the
newest of all pending ones, when it was queued before.
-/

namespace PaymentRecovery.Recovery

open PaymentRecovery.Python PaymentRecovery.Guardrails PaymentRecovery.Lib Program

variable {S : Type}

/-! ## The newest of a list -/

namespace RecoveryPipeline

/-- The fold keeps the best so far or takes a later record. -/
theorem foldl_newest (rest : List ApprovalRecord) (first : ApprovalRecord) :
    rest.foldl (fun best rec => if best.createdAt < rec.createdAt then rec else best) first ∈
      first :: rest ∧
    ∀ rec ∈ first :: rest, rec.createdAt ≤ (rest.foldl
      (fun best rec => if best.createdAt < rec.createdAt then rec else best) first).createdAt := by
  induction rest generalizing first with
  | nil => simp
  | cons rec rest ih =>
    rw [List.foldl_cons]
    obtain ⟨hmem, hmax⟩ := ih (if first.createdAt < rec.createdAt then rec else first)
    have hfirst := hmax _ List.mem_cons_self
    constructor
    · rcases List.mem_cons.mp hmem with heq | hmem
      · rw [heq]
        split
        · exact List.mem_cons_of_mem _ List.mem_cons_self
        · exact List.mem_cons_self
      · exact List.mem_cons_of_mem _ (List.mem_cons_of_mem _ hmem)
    · intro r hr
      rcases List.mem_cons.mp hr with rfl | hr
      · refine le_trans ?_ hfirst
        split
        · rename_i hlt
          exact le_of_lt hlt
        · exact le_refl _
      · rcases List.mem_cons.mp hr with rfl | hr
        · refine le_trans ?_ hfirst
          split
          · exact le_refl _
          · rename_i hlt
            exact not_lt.mp hlt
        · exact hmax r (List.mem_cons_of_mem _ hr)

theorem newest_mem {l : List ApprovalRecord} {rec : ApprovalRecord} (h : newest l = some rec) :
    rec ∈ l := by
  cases l with
  | nil => cases h
  | cons first rest =>
    injection h with h
    exact h ▸ (foldl_newest rest first).1

/-- A record put last is the newest if and only if it is newer than all others. -/
theorem newest_append {l : List ApprovalRecord} {rec : ApprovalRecord} (hnew : rec ∉ l) :
    newest (l ++ [rec]) = some rec ↔ ∀ r ∈ l, r.createdAt < rec.createdAt := by
  cases l with
  | nil => simp [newest]
  | cons first rest =>
    have hlast : newest (first :: rest ++ [rec]) = some (if (rest.foldl (fun best rec =>
        if best.createdAt < rec.createdAt then rec else best) first).createdAt < rec.createdAt
        then rec else rest.foldl (fun best rec =>
          if best.createdAt < rec.createdAt then rec else best) first) := by
      show some ((rest ++ [rec]).foldl _ first) = _
      rw [List.foldl_append]
      rfl
    obtain ⟨hmem, hmax⟩ := foldl_newest rest first
    rw [hlast]
    constructor
    · intro h r hr
      split at h
      · rename_i hlt
        exact lt_of_le_of_lt (hmax r hr) hlt
      · injection h with h
        exact absurd (h ▸ hmem) hnew
    · intro h
      rw [if_pos (h _ hmem)]

end RecoveryPipeline

open RecoveryPipeline

/-! ## What is pending after a call that the gate stopped -/

section Pending

open LawfulGuardStore

variable {σ : Type} [GuardStore S] [LawfulGuardStore S] [OrderedGuardStore S]
  {ex : GuardedExecutor σ} {action : Action}

/-- A record that is there already is named, and nothing is queued. -/
theorem execute_waiting {w : World S σ} (hheld : HeldBack ex action w.view)
    {handler : EffectHandler σ} (hhandler : ex.handlers.get? action.name = some handler)
    {rec : ApprovalRecord} (hrec : w.view.approval ex.runId action.idempotencyKey = some rec) :
    (∃ detail, ((ex.execute action).run w).1 =
      .ok ⟨.pendingApproval, action.idempotencyKey, .none, some rec.approvalId, detail⟩) ∧
    GuardStore.listPending ((ex.execute action).run w).2.store ex.runId =
      GuardStore.listPending w.store ex.runId := by
  unfold GuardedExecutor.execute GuardedExecutor.approvalGate
  simp only [run_bind, run_step, isBreakerOpen_eq, hheld.closed, Bool.false_eq_true, if_false,
    run_read, getResult_eq, hheld.fresh, hhandler, if_pos hheld.gated, getApproval_eq, hrec,
    run_pure, if_neg (hheld.unapproved rec hrec), run_finish]
  exact ⟨⟨_, rfl⟩, OrderedGuardStore.listPending_appendAudit _ _ _ _ _ _ _ _ _⟩

/-- A new record is queued last, with the time on the clock. -/
theorem execute_queues {w : World S σ} (hheld : HeldBack ex action w.view)
    {handler : EffectHandler σ} (hhandler : ex.handlers.get? action.name = some handler)
    (hnone : w.view.approval ex.runId action.idempotencyKey = none)
    (hparams : action.params.Encodable) :
    ∃ rec : ApprovalRecord, w.view.approvalKey rec.approvalId = none ∧
      rec.createdAt = (ex.now w.env).1 ∧
      (∃ detail, ((ex.execute action).run w).1 =
        .ok ⟨.pendingApproval, action.idempotencyKey, .none, some rec.approvalId, detail⟩) ∧
      GuardStore.listPending ((ex.execute action).run w).2.store ex.runId =
        GuardStore.listPending w.store ex.runId ++ [rec] := by
  obtain ⟨paramsJson, hdump⟩ := hparams.dumps
  obtain ⟨id, store, hid, hcreate, _⟩ := view_createPending w.store ex.runId
    action.idempotencyKey action.name action.subjectId action.cost paramsJson (ex.now w.env).1 hnone
  have hlist := OrderedGuardStore.listPending_createPending w.store ex.runId action.idempotencyKey
    action.name action.subjectId action.cost paramsJson (ex.now w.env).1
    ((getApproval_eq _ _ _).trans hnone)
  rw [hcreate] at hlist
  refine ⟨⟨id, ex.runId, action.idempotencyKey, action.name, action.subjectId, action.cost,
    paramsJson, .pending, (ex.now w.env).1⟩, hid, rfl, ?_⟩
  unfold GuardedExecutor.execute GuardedExecutor.approvalGate GuardedExecutor.createPending
  simp only [run_bind, run_step, isBreakerOpen_eq, hheld.closed, Bool.false_eq_true, if_false,
    run_read, getResult_eq, hheld.fresh, hhandler, if_pos hheld.gated, getApproval_eq, hnone,
    run_orRaise, hdump, hcreate, reduceCtorEq, run_pure, run_finish]
  exact ⟨⟨_, rfl⟩, (OrderedGuardStore.listPending_appendAudit _ _ _ _ _ _ _ _ _).trans hlist⟩

/-- The guard store does not let the two paths tell different stories: the run is halted, or the
key has no result that can be read, and if the gate stops the action, the approval it is given
is the newest of the run. -/
inductive Indistinct (ex : GuardedExecutor σ) (action : Action) (store : S) (reading : Time) : Prop
  | halted (hopen : GuardStore.isBreakerOpen store ex.runId = true)
  | unreadable (rec : IdempotencyRecord) (exc : PyExc)
    (hrec : GuardStore.getResult store ex.runId action.idempotencyKey = some rec)
    (hload : jsonLoads rec.resultJson = .error exc)
  | passed (hfresh : GuardStore.getResult store ex.runId action.idempotencyKey = none)
    (happroved : ex.policy.approvalThreshold < action.cost → ∃ rec,
      GuardStore.getApproval store ex.runId action.idempotencyKey = some rec ∧
      rec.state = .approved)
  | waiting (rec : ApprovalRecord)
    (hfresh : GuardStore.getResult store ex.runId action.idempotencyKey = none)
    (hrec : GuardStore.getApproval store ex.runId action.idempotencyKey = some rec)
    (hnewest : newest (GuardStore.listPending store ex.runId) = some rec)
  | queued (hfresh : GuardStore.getResult store ex.runId action.idempotencyKey = none)
    (hnone : GuardStore.getApproval store ex.runId action.idempotencyKey = none)
    (hnewest : ∀ rec ∈ GuardStore.listPending store ex.runId, rec.createdAt < reading)

omit [OrderedGuardStore S] in
/-- What is listed is found under its id. -/
theorem listPending_byId {w : World S σ} {run : String} {rec : ApprovalRecord}
    (h : rec ∈ GuardStore.listPending w.store run) :
    w.view.approvalById rec.approvalId = some rec := by
  obtain ⟨key, hrec, _⟩ := (mem_listPending w.store run rec).mp h
  exact (view_wf w.store).approvalById_of_approval hrec

omit [OrderedGuardStore S] in
/-- The newest has the id of a record that is there if and only if it is that record. -/
theorem newest_waiting {w : World S σ} {run key : String} {rec : ApprovalRecord}
    (hrec : w.view.approval run key = some rec) :
    (newest (GuardStore.listPending w.store run)).map (·.approvalId) = some rec.approvalId ↔
      newest (GuardStore.listPending w.store run) = some rec := by
  refine ⟨fun h => ?_, fun h => by rw [h]; rfl⟩
  obtain ⟨best, hbest, hid⟩ := Option.map_eq_some_iff.mp h
  have hsame := listPending_byId (newest_mem hbest)
  rw [hid, (view_wf w.store).approvalById_of_approval hrec] at hsame
  exact hbest.trans hsame.symm

omit [OrderedGuardStore S] in
/-- The newest has a new id if and only if all others are older. -/
theorem newest_queued {w : World S σ} {run : String} {rec : ApprovalRecord}
    (hid : w.view.approvalKey rec.approvalId = none) :
    (newest (GuardStore.listPending w.store run ++ [rec])).map (·.approvalId) =
        some rec.approvalId ↔
      ∀ r ∈ GuardStore.listPending w.store run, r.createdAt < rec.createdAt := by
  have hnew : ∀ r ∈ GuardStore.listPending w.store run, r.approvalId ≠ rec.approvalId := by
    intro r hr heq
    have hfound := listPending_byId hr
    unfold GuardState.approvalById at hfound
    rw [heq, hid] at hfound
    cases hfound
  rw [← newest_append fun hmem => hnew rec hmem rfl]
  refine ⟨fun h => ?_, fun h => by rw [h]; rfl⟩
  obtain ⟨best, hbest, hsame⟩ := Option.map_eq_some_iff.mp h
  rcases List.mem_append.mp (newest_mem hbest) with hmem | hmem
  · exact absurd hsame (hnew best hmem)
  · rw [hbest, List.mem_singleton.mp hmem]

omit [OrderedGuardStore S] in
/-- Of the ways to tell alike, only those of a held action are left. -/
theorem indistinct_iff_of_held {w : World S σ} (hheld : HeldBack ex action w.view)
    (reading : Time) : Indistinct ex action w.store reading ↔
      (∃ rec, w.view.approval ex.runId action.idempotencyKey = some rec ∧
        newest (GuardStore.listPending w.store ex.runId) = some rec) ∨
      (w.view.approval ex.runId action.idempotencyKey = none ∧
        ∀ rec ∈ GuardStore.listPending w.store ex.runId, rec.createdAt < reading) := by
  have hfresh := (getResult_eq w.store ex.runId action.idempotencyKey).trans hheld.fresh
  constructor
  · intro h
    cases h with
    | halted hopen =>
      rw [isBreakerOpen_eq, hheld.closed] at hopen
      cases hopen
    | unreadable rec exc hrec =>
      rw [hfresh] at hrec
      cases hrec
    | passed _ happroved =>
      obtain ⟨rec, hrec, hstate⟩ := happroved hheld.gated
      rw [getApproval_eq] at hrec
      exact absurd hstate (hheld.unapproved rec hrec)
    | waiting rec _ hrec hnewest =>
      exact .inl ⟨rec, (getApproval_eq w.store _ _).symm.trans hrec, hnewest⟩
    | queued _ hnone hnewest =>
      exact .inr ⟨(getApproval_eq w.store _ _).symm.trans hnone, hnewest⟩
  · rintro (⟨rec, hrec, hnewest⟩ | ⟨hnone, hnewest⟩)
    · exact .waiting rec hfresh ((getApproval_eq _ _ _).trans hrec) hnewest
    · exact .queued hfresh ((getApproval_eq _ _ _).trans hnone) hnewest

/-- A held action is told alike if and only if its approval is the newest after the call. -/
theorem held_indistinct {w : World S σ} (hheld : HeldBack ex action w.view)
    {handler : EffectHandler σ} (hhandler : ex.handlers.get? action.name = some handler)
    (hparams : action.params.Encodable) {result : ExecutionResult}
    (hresult : ((ex.execute action).run w).1 = .ok result) :
    (newest (GuardStore.listPending ((ex.execute action).run w).2.store ex.runId)).map
        (·.approvalId) = result.approvalId ↔
      Indistinct ex action w.store (ex.now w.env).1 := by
  rw [indistinct_iff_of_held hheld]
  cases hrec : w.view.approval ex.runId action.idempotencyKey with
  | some rec =>
    obtain ⟨⟨detail, hanswer⟩, hlist⟩ := execute_waiting hheld hhandler hrec
    rw [hresult] at hanswer
    injection hanswer with hanswer
    rw [hlist, hanswer, newest_waiting hrec]
    constructor
    · exact fun h => .inl ⟨rec, rfl, h⟩
    · rintro (⟨_, hsame, hnewest⟩ | ⟨hnone, _⟩)
      · injection hsame with hsame
        rw [hsame, hnewest]
      · cases hnone
  | none =>
    obtain ⟨rec, hid, htime, ⟨detail, hanswer⟩, hlist⟩ :=
      execute_queues hheld hhandler hrec hparams
    rw [hresult] at hanswer
    injection hanswer with hanswer
    rw [hlist, hanswer, newest_queued hid, ← htime]
    constructor
    · exact fun h => .inr ⟨rfl, h⟩
    · rintro (⟨_, hsome, _⟩ | ⟨_, hall⟩)
      · cases hsome
      · exact hall

/-- A call that returns is told alike unless it was a duplicate, or was held with another
approval than the newest. -/
theorem answered_indistinct {w : World S σ} {handler : EffectHandler σ}
    (hhandler : ex.handlers.get? action.name = some handler) (hparams : action.params.Encodable)
    {result : ExecutionResult} (hresult : ((ex.execute action).run w).1 = .ok result) :
    (result.status ≠ .duplicate ∧ (result.status = .pendingApproval →
      (newest (GuardStore.listPending ((ex.execute action).run w).2.store ex.runId)).map
        (·.approvalId) = result.approvalId)) ↔
      Indistinct ex action w.store (ex.now w.env).1 := by
  have hstep := execute_step ex action w
  rw [hresult] at hstep
  have hholds := hstep.held_iff
  by_cases hheld : HeldBack ex action w.view
  · have hstatus := hholds.mpr hheld
    rw [← held_indistinct hheld hhandler hparams hresult, hstatus]
    exact ⟨fun h => h.2 rfl, fun h => ⟨by decide, fun _ => h⟩⟩
  · have hstatus : result.status ≠ .pendingApproval := mt hholds.mp hheld
    have hrest : (result.status ≠ .duplicate ∧ (result.status = .pendingApproval →
        (newest (GuardStore.listPending ((ex.execute action).run w).2.store ex.runId)).map
          (·.approvalId) = result.approvalId)) ↔ result.status ≠ .duplicate :=
      and_iff_left fun h => absurd h hstatus
    rw [hrest]
    have hpassed : Cleared ex action w.view → Indistinct ex action w.store (ex.now w.env).1 :=
      fun hclear => .passed ((getResult_eq _ _ _).trans hclear.fresh) fun hgated => by
        obtain ⟨rec, hrec, hstate⟩ := hclear.approved hgated
        exact ⟨rec, (getApproval_eq _ _ _).trans hrec, hstate⟩
    generalize ((ex.execute action).run w).2.snapshot = after at hstep
    cases hstep with
    | breakerOpen hopen =>
      exact ⟨fun _ => .halted ((isBreakerOpen_eq _ _).trans hopen), fun _ => by simp⟩
    | duplicate rec value hclosed hrec hload =>
      have hstored := (getResult_eq w.store ex.runId action.idempotencyKey).trans hrec
      refine ⟨fun h => absurd rfl h, fun h => ?_⟩
      cases h with
      | halted hopen =>
        rw [isBreakerOpen_eq] at hopen
        exact absurd (hopen.symm.trans hclosed) (by decide)
      | unreadable rec' exc hrec' hload' =>
        rw [hstored] at hrec'
        injection hrec' with hrec'
        rw [← hrec', hload] at hload'
        cases hload'
      | passed hfresh => rw [hstored] at hfresh; cases hfresh
      | waiting _ hfresh => rw [hstored] at hfresh; cases hfresh
      | queued hfresh => rw [hstored] at hfresh; cases hfresh
    | enqueued => exact absurd rfl hstatus
    | undecided => exact absurd rfl hstatus
    | overBudget detail hclear => exact ⟨fun _ => hpassed hclear, fun _ => by simp⟩
    | overCap hclear => exact ⟨fun _ => hpassed hclear, fun _ => by simp⟩
    | executed value text hadm => exact ⟨fun _ => hpassed hadm.toCleared, fun _ => by simp⟩

omit [OrderedGuardStore S] in
/-- A call that raises found a result it could not read, or had passed the gate. -/
theorem raised_indistinct {w : World S σ} {handler : EffectHandler σ}
    (hhandler : ex.handlers.get? action.name = some handler) (hparams : action.params.Encodable)
    {exc : PyExc} (hraised : ((ex.execute action).run w).1 = .error exc) :
    Indistinct ex action w.store (ex.now w.env).1 := by
  have hstep := execute_step ex action w
  rw [hraised] at hstep
  have hpassed : Admitted ex action w.view → Indistinct ex action w.store (ex.now w.env).1 :=
    fun hadm => .passed ((getResult_eq _ _ _).trans hadm.fresh) fun hgated => by
      obtain ⟨rec, hrec, hstate⟩ := hadm.approved hgated
      exact ⟨rec, (getApproval_eq _ _ _).trans hrec, hstate⟩
  generalize ((ex.execute action).run w).2.snapshot = after at hstep
  cases hstep with
  | corrupt rec exc hclosed hrec hload =>
    exact .unreadable rec exc ((getResult_eq _ _ _).trans hrec) hload
  | unknownAction hclosed hfresh hunknown =>
    rw [hhandler] at hunknown
    cases hunknown
  | unserialisable exc hclosed hfresh hgated hnone hdump =>
    obtain ⟨text, htext⟩ := hparams.dumps
    rw [htext] at hdump
    cases hdump
  | raised exc hadm => exact hpassed hadm
  | unstorable value exc hadm => exact hpassed hadm

end Pending

end PaymentRecovery.Recovery

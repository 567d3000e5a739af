import PaymentRecovery.Guardrails.InMemoryStore
import PaymentRecovery.Guardrails.Isolated

/-!
# One audit entry per call

`execute` writes its entry when it returns and when a handler raises. Four other
exceptions leave it without one: a stored result that cannot be decoded, an action
without a handler, parameters without a JSON text, and a handler's result without one.
The last of them is raised after the effect.
-/

namespace PaymentRecovery.Guardrails

open PaymentRecovery.Python PaymentRecovery.Lib Program

variable {S σ : Type} [GuardStore S] [LawfulGuardStore S]

/-- The call appends one entry to the audit log of its run, and the entry says `executed` or
`error` if a handler ran. -/
def OneEntry (ex : GuardedExecutor σ) (action : Action) (w : World S σ) : Prop :=
  let w' := ((ex.execute action).run w).2
  ∃ entry, GuardStore.readAudit w'.store ex.runId =
      GuardStore.readAudit w.store ex.runId ++ [entry] ∧
    (w'.snapshot.invocations ≠ w.snapshot.invocations →
      entry.decision = "executed" ∨ entry.decision = "error")

/-- What a call under a new key has to encode has a JSON text, and its action is registered, as
far as the call gets that far. -/
def Encodes (ex : GuardedExecutor σ) (action : Action) (w : World S σ) : Prop :=
  ∃ handler, ex.handlers.get? action.name = some handler ∧
    (ex.policy.approvalThreshold < action.cost →
      w.view.approval ex.runId action.idempotencyKey = none →
      ∃ text, jsonDumps action.params = .ok text) ∧
    (Admitted ex action w.view → ∀ value, (handler action w.env).1 = .ok value →
      ∃ text, jsonDumps value = .ok text)

/-- Unless the breaker is open, a result stored under the key can be decoded, and under a new
key what the call meets can be resolved and encoded. -/
def Accountable (ex : GuardedExecutor σ) (action : Action) (w : World S σ) : Prop :=
  w.view.breaker ex.runId = false →
    match w.view.result ex.runId action.idempotencyKey with
    | some rec => ∃ value, jsonLoads rec.resultJson = .ok value
    | none => Encodes ex action w

variable {ex : GuardedExecutor σ} {action : Action} {w : World S σ}

/-- The outcome in the journal is what the handler answers where the call is made. -/
theorem handler_outcome (hadm : Admitted ex action w.view) {handler : EffectHandler σ}
    (hhandler : ex.handlers.get? action.name = some handler) {outcome : Except PyExc PyVal}
    (hran : ((ex.execute action).run w).2.snapshot.invocations =
      w.snapshot.invocations ++ [invocationIn ex action w.snapshot.state outcome]) :
    (handler action w.env).1 = outcome := by
  have hinvokes := execute_invokes hadm hhandler
  rw [hran, List.append_cancel_left_eq] at hinvokes
  injection hinvokes with hinvokes _
  injection hinvokes with _ _ _ _ houtcome
  exact houtcome.symm

theorem accountable_stored (hclosed : w.view.breaker ex.runId = false) {rec : IdempotencyRecord}
    (hrec : w.view.result ex.runId action.idempotencyKey = some rec) :
    Accountable ex action w ↔ ∃ value, jsonLoads rec.resultJson = .ok value := by
  unfold Accountable
  rw [hrec]
  exact forall_prop_of_true hclosed

theorem accountable_fresh (hclosed : w.view.breaker ex.runId = false)
    (hfresh : w.view.result ex.runId action.idempotencyKey = none) :
    Accountable ex action w ↔ Encodes ex action w := by
  unfold Accountable
  rw [hfresh]
  exact forall_prop_of_true hclosed

/-- An action without a handler is not answered, unless its result is stored. -/
theorem known_of_answered (hclosed : w.view.breaker ex.runId = false)
    (hfresh : w.view.result ex.runId action.idempotencyKey = none) {result : ExecutionResult}
    (hanswer : ((ex.execute action).run w).1 = .ok result) :
    ∃ handler, ex.handlers.get? action.name = some handler := by
  cases hhandler : ex.handlers.get? action.name with
  | some handler => exact ⟨handler, rfl⟩
  | none =>
    exfalso
    unfold GuardedExecutor.execute at hanswer
    simp only [run_bind, run_step, run_read, LawfulGuardStore.isBreakerOpen_eq,
      LawfulGuardStore.getResult_eq, hclosed, Bool.false_eq_true, if_false, hfresh, hhandler,
      run_throw] at hanswer
    cases hanswer

/-- A refused action has nothing to encode but its parameters, when it is queued. -/
theorem encodes_of_refused (hknown : ∃ handler, ex.handlers.get? action.name = some handler)
    (hrefused : ¬ Admitted ex action w.view)
    (hqueued : ex.policy.approvalThreshold < action.cost →
      w.view.approval ex.runId action.idempotencyKey = none →
      ∃ text, jsonDumps action.params = .ok text) : Encodes ex action w := by
  obtain ⟨handler, hhandler⟩ := hknown
  exact ⟨handler, hhandler, hqueued, fun hadm => absurd hadm hrefused⟩

/-- An action the gate has let pass was not queued by this call. -/
theorem Cleared.not_queued (hclear : Cleared ex action w.view)
    (hgated : ex.policy.approvalThreshold < action.cost) :
    w.view.approval ex.runId action.idempotencyKey ≠ none := by
  obtain ⟨rec, hrec, _⟩ := hclear.approved hgated
  rw [hrec]
  exact Option.some_ne_none rec

/-- An admitted action has the handler's result to encode. -/
theorem encodes_of_admitted (hadm : Admitted ex action w.view) {handler : EffectHandler σ}
    (hhandler : ex.handlers.get? action.name = some handler)
    (hstorable : ∀ value, (handler action w.env).1 = .ok value →
      ∃ text, jsonDumps value = .ok text) : Encodes ex action w :=
  ⟨handler, hhandler, fun hgated hnone => absurd hnone (hadm.toCleared.not_queued hgated),
    fun _ => hstorable⟩

/-! ## What the log shows -/

/-- A call that logs nothing has no entry. -/
theorem not_oneEntry (h : ((ex.execute action).run w).2.view.audit ex.runId =
    w.view.audit ex.runId) : ¬ OneEntry ex action w := by
  rintro ⟨entry, hentry, _⟩
  rw [LawfulGuardStore.readAudit_eq, LawfulGuardStore.readAudit_eq, h] at hentry
  simp at hentry

/-- A call that logs a decision has its entry. -/
theorem oneEntry_of_logged {s : Snapshot} {decision detail : String}
    (h : ((ex.execute action).run w).2.snapshot = s.logged ex.runId action decision detail)
    (haudit : s.state.audit ex.runId = w.view.audit ex.runId)
    (hran : s.invocations = w.snapshot.invocations ∨ decision = "executed" ∨ decision = "error") :
    OneEntry ex action w := by
  have hstate : LawfulGuardStore.view ((ex.execute action).run w).2.store =
      (s.logged ex.runId action decision detail).state := congrArg Snapshot.state h
  refine ⟨w.view.nextEntry ex.runId action.name action.subjectId action.idempotencyKey
    action.cost decision detail, ?_, fun hchanged => ?_⟩
  · rw [LawfulGuardStore.readAudit_eq, LawfulGuardStore.readAudit_eq, hstate,
      Audited.audit_logged, if_pos rfl, haudit]
    rfl
  · rcases hran with hquiet | hdecision
    · rw [h, Snapshot.invocations_logged] at hchanged
      exact absurd hquiet hchanged
    · exact hdecision

/-- **One audit entry per call.** Over any store, policy and registry, and whatever the handler
does: the call appends exactly one entry to its run, one that says `executed` or `error` if the
handler ran, if and only if what it meets can be decoded, resolved and encoded. -/
theorem one_entry_iff (ex : GuardedExecutor σ) (action : Action) (w : World S σ) :
    OneEntry ex action w ↔ Accountable ex action w := by
  have hstep := execute_step ex action w
  generalize hanswer : ((ex.execute action).run w).1 = answer at hstep
  generalize hsnap : ((ex.execute action).run w).2.snapshot = s' at hstep
  have hstate : ((ex.execute action).run w).2.view = s'.state := congrArg Snapshot.state hsnap
  cases hstep with
  | breakerOpen hopen =>
    refine iff_of_true (oneEntry_of_logged hsnap rfl (.inl (by simp))) fun hclosed => ?_
    rw [show w.view.breaker ex.runId = true from hopen] at hclosed
    cases hclosed
  | duplicate rec result hclosed hrec hload =>
    exact iff_of_true (oneEntry_of_logged hsnap rfl (.inl (by simp)))
      ((accountable_stored hclosed hrec).mpr ⟨result, hload⟩)
  | corrupt rec exc hclosed hrec hload =>
    refine iff_of_false (not_oneEntry (by rw [hstate]; rfl)) fun h => ?_
    obtain ⟨value, hvalue⟩ := (accountable_stored hclosed hrec).mp h
    rw [hload] at hvalue
    cases hvalue
  | unknownAction hclosed hfresh hunknown =>
    refine iff_of_false (not_oneEntry (by rw [hstate]; rfl)) fun h => ?_
    obtain ⟨handler, hhandler, _⟩ := (accountable_fresh hclosed hfresh).mp h
    rw [hunknown] at hhandler
    cases hhandler
  | unserialisable exc hclosed hfresh hgated hnone hdump =>
    refine iff_of_false (not_oneEntry (by rw [hstate]; rfl)) fun h => ?_
    obtain ⟨handler, _, hqueued, _⟩ := (accountable_fresh hclosed hfresh).mp h
    obtain ⟨text, htext⟩ := hqueued hgated hnone
    rw [hdump] at htext
    cases htext
  | enqueued id paramsJson t hclosed hfresh hgated hnone hdump hid =>
    exact iff_of_true (oneEntry_of_logged hsnap rfl (.inl (by simp)))
      ((accountable_fresh hclosed hfresh).mpr (encodes_of_refused
        (known_of_answered hclosed hfresh hanswer)
        (fun hadm => hadm.toCleared.not_queued hgated hnone) fun _ _ => ⟨paramsJson, hdump⟩))
  | undecided rec detail hclosed hfresh hgated hrec hundecided =>
    refine iff_of_true (oneEntry_of_logged hsnap rfl (.inl (by simp)))
      ((accountable_fresh hclosed hfresh).mpr (encodes_of_refused
        (known_of_answered hclosed hfresh hanswer) (fun hadm => ?_) fun _ hnone => ?_))
    · obtain ⟨rec', hrec', happroved⟩ := hadm.approved hgated
      exact hundecided (Option.some.inj (hrec.symm.trans hrec') ▸ happroved)
    · cases hrec.symm.trans hnone
  | overBudget detail hclear hbudget =>
    exact iff_of_true (oneEntry_of_logged hsnap rfl (.inl (by simp)))
      ((accountable_fresh hclear.closed hclear.fresh).mpr (encodes_of_refused hclear.known
        (fun hadm => absurd hadm.budget (Int.not_lt.mpr hbudget))
        fun hgated hnone => absurd hnone (hclear.not_queued hgated)))
  | overCap hclear hbudget hcap =>
    exact iff_of_true (oneEntry_of_logged hsnap rfl (.inl (by simp)))
      ((accountable_fresh hclear.closed hclear.fresh).mpr (encodes_of_refused hclear.known
        (fun hadm => absurd hadm.cap (Rat.not_le.mpr hcap))
        fun hgated hnone => absurd hnone (hclear.not_queued hgated)))
  | raised exc hadm hyields =>
    obtain ⟨handler, _, hhandler, _⟩ := hyields
    have houtcome : (handler action w.env).1 = .error exc :=
      handler_outcome hadm hhandler (by rw [hsnap]; simp)
    refine iff_of_true (oneEntry_of_logged hsnap rfl (.inr (.inr rfl)))
      ((accountable_fresh hadm.closed hadm.fresh).mpr (encodes_of_admitted hadm hhandler
        fun value hvalue => ?_))
    -- the handler raised, so there is no value
    rw [houtcome] at hvalue
    cases hvalue
  | unstorable result exc hadm hyields hdump =>
    refine iff_of_false (not_oneEntry (by rw [hstate]; rfl)) fun h => ?_
    obtain ⟨handler, hhandler, _, hstorable⟩ := (accountable_fresh hadm.closed hadm.fresh).mp h
    obtain ⟨text, htext⟩ := hstorable hadm result
      (handler_outcome hadm hhandler (by rw [hsnap]; simp))
    rw [hdump] at htext
    cases htext
  | executed result resultJson hadm hyields hdump =>
    obtain ⟨handler, _, hhandler, _⟩ := hyields
    have houtcome : (handler action w.env).1 = .ok result :=
      handler_outcome hadm hhandler (by rw [hsnap]; simp)
    refine iff_of_true (oneEntry_of_logged hsnap rfl (.inr (.inl rfl)))
      ((accountable_fresh hadm.closed hadm.fresh).mpr (encodes_of_admitted hadm hhandler
        fun value hvalue => ⟨resultJson, ?_⟩))
    rw [houtcome] at hvalue
    injection hvalue with hvalue
    exact hvalue ▸ hdump

/-- A handler whose answer holds a value that JSON has no text for. -/
def Sample.dated : GuardedExecutor Unit :=
  (GuardedExecutor.new "pay_1" ⟨5000, 5, 100000⟩ fun env => (0, env)).register "send_payment_link"
    fun _ env => (.ok (.record [("id", .str "plink_1"),
      ("created_at", .object "datetime" "2026-01-01 00:00:00")]), env)

/-- The link is sent, `json.dumps` raises, and the audit log of the run stays empty. -/
theorem sent_without_entry :
    ¬ OneEntry Sample.dated ⟨"send_payment_link", "cust_1", "link:pay_1", 0, .record []⟩
      (World.fresh () : World InMemoryGuardStore Unit) := by
  rintro ⟨entry, hentry, _⟩
  have hempty : (GuardStore.readAudit ((Sample.dated.execute ⟨"send_payment_link", "cust_1",
      "link:pay_1", 0, .record []⟩).run (World.fresh () : World InMemoryGuardStore Unit)).2.store
        "pay_1").length = 0 := by
    decide +kernel
  have hone := congrArg List.length hentry
  rw [List.length_append, List.length_singleton] at hone
  exact absurd (hone.symm.trans hempty) (Nat.succ_ne_zero _)

end PaymentRecovery.Guardrails

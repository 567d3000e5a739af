import PaymentRecovery.Guardrails.Idempotency
import PaymentRecovery.Recovery.Effects

/-!
# At most one effect for each key

The provider applies an effect before anything is recorded, and the result of its
handler is stored only if the handler returned. Between the two nothing stops a
retry from applying the effect again: not after a handler that raised although
the provider had applied its effect, and not after a process that died before
the result was stored. Histories without these two faults apply at most one
effect for each payment and key, however often the payment is retried.
-/

namespace PaymentRecovery.Recovery

open PaymentRecovery.Python PaymentRecovery.Guardrails PaymentRecovery.Providers
open PaymentRecovery.Lib Program

variable {S τ : Type} [GuardStore S]

/-! ## Effects and results -/

/-- The payment an effect is for and the key it was asked for under. -/
def AppliedEffect.runKey (e : AppliedEffect) : String × String :=
  (e.paymentId, e.key)

/-- No effect follows one of its own key whose handler returned. -/
def Apart (applied : List AppliedEffect) : Prop :=
  applied.Pairwise fun a b => a.returned = true → a.runKey ≠ b.runKey

/-- Every effect whose handler returned has its result in the store. -/
def Settled (w : World S (Env τ)) : Prop :=
  ∀ e ∈ w.env.applied, e.returned = true → GuardStore.getResult w.store e.paymentId e.key ≠ none

theorem Apart.append {applied : List AppliedEffect} {e : AppliedEffect} (h : Apart applied)
    (hnew : ∀ a ∈ applied, a.returned = true → a.runKey ≠ e.runKey) : Apart (applied ++ [e]) := by
  refine List.pairwise_append.mpr ⟨h, List.pairwise_singleton _ _, fun a ha b hb => ?_⟩
  rw [List.mem_singleton.mp hb]
  exact hnew a ha

/-- Where all handlers but the last returned, each key has at most one effect. -/
theorem Apart.once {applied : List AppliedEffect} (h : Apart applied)
    (hreturned : ∀ e ∈ applied.dropLast, e.returned = true) (paymentId key : String) :
    (applied.filter fun e => e.paymentId = paymentId ∧ e.key = key).length ≤ 1 := by
  have hnodup : (applied.map AppliedEffect.runKey).Nodup := by
    cases hlast : applied.getLast? with
    | none =>
      rw [List.getLast?_eq_none_iff.mp hlast]
      exact List.nodup_nil
    | some last =>
      obtain ⟨before, happlied⟩ := List.getLast?_eq_some_iff.mp hlast
      rw [happlied, List.dropLast_concat] at hreturned
      refine List.pairwise_map.mpr ?_
      rw [happlied] at h ⊢
      -- only the last handler may have raised, and nothing follows it
      obtain ⟨hbefore, _, hcross⟩ := List.pairwise_append.mp h
      refine List.pairwise_append.mpr ⟨?_, List.pairwise_singleton _ _, fun a ha b hb =>
        hcross a ha b hb (hreturned a ha)⟩
      exact hbefore.imp_of_mem fun ha _ hab => hab (hreturned _ ha)
  have hcount := List.nodup_iff_count_le_one.mp hnodup (paymentId, key)
  rw [List.count, List.countP_map, List.countP_eq_length_filter] at hcount
  refine le_of_eq_of_le (congrArg List.length (List.filter_congr fun e _ => ?_)) hcount
  rw [Bool.eq_iff_iff]
  simp [AppliedEffect.runKey]

/-! ## One call to the executor -/

/-- The effects applied since `w` are among the handler runs since `w`, in order. -/
def AppliedSince (w : World S (Env τ)) (env : Env τ) (journal : List GuardEvent) : Prop :=
  ∃ effects invocations, env.applied = w.env.applied ++ effects ∧
    (Snapshot.mk .init journal).invocations =
      (Snapshot.mk .init w.journal).invocations ++ invocations ∧
    (effects.map fun e => (e.runKey, e.returned)).Sublist
      (invocations.map fun inv => (inv.runKey, inv.outcome.toOption.isSome))

theorem appliedSince_execute (p : RecoveryPipeline τ) {case : RecoveryCase}
    (provider : PaymentProvider τ) {action : Action} (hbuilt : BuiltFor case action)
    (w : World S (Env τ)) :
    Carries (fun v : World S (Env τ) => AppliedSince w v.env v.journal)
      (fun v => AppliedSince w v.env v.journal)
      ((p.caseExecutor case provider).execute action) := by
  refine execute_carries_outside (fun env journal h => ?_) (fun env journal h => h)
    fun handler hhandler env journal approval h => ?_
  · obtain ⟨effects, invocations, happlied, hinvocations, hsub⟩ := h
    exact ⟨effects, invocations, happlied,
      (Snapshot.invocations_called ⟨.init, journal⟩ _ _).trans hinvocations, hsub⟩
  · obtain ⟨effects, invocations, happlied, hinvocations, hsub⟩ := h
    have hrun := handler_run hbuilt hhandler env
    have hjournal := Snapshot.invocations_invoked ⟨.init, journal⟩
      ⟨(p.caseExecutor case provider).runId, (p.caseExecutor case provider).policy, action, approval,
        (handler action env).1⟩
    rw [hinvocations, List.append_assoc] at hjournal
    rcases hrun.applied with hsame | ⟨e, hnew, hpayment, hkey, hreturned⟩
    · refine ⟨effects, _, hsame.trans happlied, hjournal, ?_⟩
      rw [List.map_append]
      exact hsub.trans (List.sublist_append_left _ _)
    · refine ⟨effects ++ [e], _, ?_, hjournal, ?_⟩
      · rw [hnew, happlied, List.append_assoc]
      · rw [List.map_append, List.map_append]
        refine hsub.append ?_
        rw [List.map_singleton, List.map_singleton, AppliedEffect.runKey, hpayment, hkey, hreturned]
        exact List.Sublist.refl _

omit [GuardStore S] in
/-- Nothing was applied where no handler ran. -/
theorem AppliedSince.quiet {w v : World S (Env τ)} (h : AppliedSince w v.env v.journal)
    (hsame : (Snapshot.mk .init v.journal).invocations =
      (Snapshot.mk .init w.journal).invocations) : v.env.applied = w.env.applied := by
  obtain ⟨effects, invocations, happlied, hinvocations, hsub⟩ := h
  have hnil : invocations = [] :=
    List.append_right_eq_self.mp (hinvocations.symm.trans hsame)
  rw [hnil, List.map_nil, List.sublist_nil, List.map_eq_nil_iff] at hsub
  rw [happlied, hsub, List.append_nil]

omit [GuardStore S] in
/-- One effect at most was applied where one handler ran, and it was that of the handler. -/
theorem AppliedSince.ran {w v : World S (Env τ)} (h : AppliedSince w v.env v.journal)
    {inv : Invocation} (hran : (Snapshot.mk .init v.journal).invocations =
      (Snapshot.mk .init w.journal).invocations ++ [inv]) :
    v.env.applied = w.env.applied ∨ ∃ e, v.env.applied = w.env.applied ++ [e] ∧
      e.runKey = inv.runKey ∧ e.returned = inv.outcome.toOption.isSome := by
  obtain ⟨effects, invocations, happlied, hinvocations, hsub⟩ := h
  have hone : invocations = [inv] := List.append_cancel_left (hinvocations.symm.trans hran)
  rw [hone, List.map_singleton, List.sublist_singleton] at hsub
  rcases hsub with hnil | hsingle
  · rw [List.map_eq_nil_iff] at hnil
    exact .inl (by rw [happlied, hnil, List.append_nil])
  · obtain ⟨e, rest, heffects, hpair, hrest⟩ := List.map_eq_cons_iff.mp hsingle
    rw [List.map_eq_nil_iff] at hrest
    injection hpair with hkey hreturned
    exact .inr ⟨e, by rw [happlied, heffects, hrest], hkey, hreturned⟩

variable [LawfulGuardStore S]

/-- A key whose effect's handler returned lets no action pass. -/
theorem Settled.apart {w : World S (Env τ)} (h : Settled w) {σ : Type} {ex : GuardedExecutor σ}
    {action : Action} (hadm : Admitted ex action w.snapshot.state) {e : AppliedEffect}
    (hkey : e.runKey = (ex.runId, action.idempotencyKey)) :
    ∀ a ∈ w.env.applied, a.returned = true → a.runKey ≠ e.runKey := by
  intro a ha hreturned hsame
  have hstored := h a ha hreturned
  rw [hkey] at hsame
  injection hsame with hrun hown
  rw [LawfulGuardStore.getResult_eq, hrun, hown] at hstored
  exact hstored hadm.fresh

/-- The results of settled effects are kept by every call. -/
theorem Settled.kept {w v : World S (Env τ)} (h : Settled w) {σ : Type} {ex : GuardedExecutor σ}
    {action : Action} {answer : Except PyExc ExecutionResult}
    (hstep : ExecuteStep ex action w.snapshot answer v.snapshot) {e : AppliedEffect}
    (he : e ∈ w.env.applied) (hreturned : e.returned = true) :
    GuardStore.getResult v.store e.paymentId e.key ≠ none := by
  have hstored := h e he hreturned
  rw [LawfulGuardStore.getResult_eq] at hstored ⊢
  obtain ⟨rec, hrec⟩ := Option.ne_none_iff_exists'.mp hstored
  intro hnone
  exact absurd ((hstep.result_kept hrec).symm.trans hnone) (Option.some_ne_none _)

/-- From a settled world one handler run at most leaves the effects apart: it was let pass,
so no effect of its key had returned. -/
theorem Settled.apart_since {w v : World S (Env τ)} (h : Settled w)
    (hapart : Apart w.env.applied) {ex : GuardedExecutor (Env τ)} {action : Action}
    (hsince : AppliedSince w v.env v.journal)
    (hran : v.snapshot.invocations = w.snapshot.invocations ∨ ∃ outcome,
      Admitted ex action w.snapshot.state ∧ Yields ex action outcome ∧
      v.snapshot.invocations = w.snapshot.invocations ++
        [invocationIn ex action w.snapshot.state outcome]) : Apart v.env.applied := by
  rcases hran with hsame | ⟨outcome, hadm, _, hran⟩
  · rw [hsince.quiet hsame]
    exact hapart
  · rcases hsince.ran hran with hsame | ⟨e, hnew, hkey, _⟩
    · rw [hsame]
      exact hapart
    · rw [hnew]
      exact hapart.append (h.apart hadm hkey)

/-- In a world in which every returned effect has its result, a call to the executor keeps
the effects apart on its way, and at its end the new one has its result, if its handler
returned. -/
theorem apart_execute (p : RecoveryPipeline τ) {case : RecoveryCase}
    {provider : PaymentProvider τ} {action : Action} (hbuilt : BuiltFor case action) :
    Carries (fun v : World S (Env τ) => Apart v.env.applied)
      (fun v => Apart v.env.applied ∧ Settled v)
      ((p.caseExecutor case provider).execute action) := by
  rintro w ⟨hapart, hsettled⟩
  have hstart : AppliedSince w w.env w.journal :=
    ⟨[], [], (List.append_nil _).symm, (List.append_nil _).symm, List.Sublist.refl _⟩
  obtain ⟨hcuts, hend⟩ := appliedSince_execute p provider hbuilt w w hstart
  have hstep := execute_step (p.caseExecutor case provider) action w
  refine ⟨fun c hc => hsettled.apart_since hapart (hcuts c hc)
      (execute_cut _ action w c hc).quiet_or_ran,
    hsettled.apart_since hapart hend (hstep.quiet_or_ran.imp (·.2) id), ?_⟩
  intro e he hreturned
  rcases hstep.quiet_or_ran with ⟨_, hsame⟩ | ⟨outcome, hadm, hyields, hran⟩
  · rw [hend.quiet hsame] at he
    exact hsettled.kept hstep he hreturned
  · rcases hend.ran hran with hsame | ⟨new, hnew, hkey, hok⟩
    · rw [hsame] at he
      exact hsettled.kept hstep he hreturned
    · rw [hnew] at he
      rcases List.mem_append.mp he with hmem | hmem
      · exact hsettled.kept hstep hmem hreturned
      · -- the new effect's handler returned a value with a text, so it was stored
        rw [List.mem_singleton.mp hmem] at hreturned ⊢
        obtain ⟨handler, env, hhandler, hvalue⟩ := hyields
        cases outcome with
        | error exc =>
          rw [hok] at hreturned
          cases hreturned
        | ok value =>
          obtain ⟨text, htext⟩ := ((handler_run hbuilt hhandler env).encodable value hvalue).dumps
          injection hkey with hrun hown
          rw [LawfulGuardStore.getResult_eq, hrun, hown]
          exact hstep.result_of_ran htext hran

/-! ## Histories -/

/-- Acting on an event keeps the effects apart, and settles them if it comes to its end. -/
theorem apart_keeps (p : RecoveryPipeline τ) :
    p.Keeps (fun v : World S (Env τ) => Apart v.env.applied)
      (fun v => Apart v.env.applied ∧ Settled v) where
  outside w env _ happlied hw := by
    have hapart : Apart env.applied := happlied ▸ hw.1
    exact ⟨hapart, hapart, fun e he => hw.2 e (happlied ▸ he)⟩
  execute hbuilt := apart_execute p hbuilt
  saved w rows hw := ⟨hw.1, hw⟩

/-- The process dies in this step. -/
def Op.Dies : Op τ → Prop
  | .process _ _ (.dies _) | .drain _ _ (.dies _) => True
  | _ => False

/-- One step from a settled world keeps the effects apart, and leaves a settled world unless
the process dies in it. -/
theorem runOp_apart (op : Op τ) {w : World S (Env τ)}
    (hw : Apart w.env.applied ∧ Settled w) :
    Apart (op.run w).2.env.applied ∧ (¬ op.Dies → Settled (op.run w).2) := by
  have hprocess : ∀ (p : RecoveryPipeline τ) id, Carries
      (fun v : World S (Env τ) => Apart v.env.applied) (fun v => Apart v.env.applied ∧ Settled v)
      (p.process id) :=
    fun p id => p.process_carries (apart_keeps p) (fun _ _ h => ⟨h.1, h⟩) id
  cases op with
  | deliver event => exact ⟨hw.1, fun _ => hw.2⟩
  | changeRules rules => exact ⟨hw.1, fun _ => hw.2⟩
  | outside f => exact ⟨hw.1, fun _ => hw.2⟩
  | process p id fate =>
    cases fate with
    | lives =>
      have hend := (hprocess p id).run hw
      exact ⟨hend.1, fun _ => hend.2⟩
    | dies n =>
      exact ⟨Triple.after (hprocess p id) hw hw.1 n, fun hlives => absurd trivial hlives⟩
  | drain p limit fate =>
    have hdrain := p.processPending_carries (fun _ h => h.1) (hprocess p) limit
    cases fate with
    | lives =>
      have hend := hdrain.run hw
      exact ⟨hend.1, fun _ => hend.2⟩
    | dies n => exact ⟨Triple.after hdrain hw hw.1 n, fun hlives => absurd trivial hlives⟩

/-- **At most one effect for each payment and key.** Take any history in which every process
that died left all returned effects with their results, and let one more step follow, which
may die anywhere. If all handlers that applied an effect returned, but for the last effect of
all, then each payment has at most one effect under each key. -/
theorem effect_applied_at_most_once (store : S) (outer : τ) (rules : List RuleRow)
    (ops : List (Op τ)) (last : Op τ)
    (hcrash : Run.Along Op.run (fun (w : World S (Env τ)) op => op.Dies → Settled (op.run w).2)
      ops (World.opened store outer rules))
    (hraise : ∀ e ∈ (last.run (runOps ops (World.opened store outer rules))).2.env.applied.dropLast,
      e.returned = true) (paymentId key : String) :
    ((last.run (runOps ops (World.opened store outer rules))).2.env.applied.filter fun e =>
      e.paymentId = paymentId ∧ e.key = key).length ≤ 1 := by
  have hsettled : Apart (runOps ops (World.opened store outer rules)).env.applied ∧
      Settled (runOps ops (World.opened store outer rules)) := by
    refine Run.exec_inv_along (P := fun w : World S (Env τ) => Apart w.env.applied ∧ Settled w)
      (fun w op hw hdies => ?_) ?_ hcrash
    · obtain ⟨hapart, hlives⟩ := runOp_apart op hw
      by_cases h : op.Dies
      · exact ⟨hapart, hdies h⟩
      · exact ⟨hapart, hlives h⟩
    · exact ⟨List.Pairwise.nil, fun e he => absurd he List.not_mem_nil⟩
  exact (runOp_apart last hsettled).1.once hraise paymentId key

/-- The world outside when the LLM asks for the link twice. -/
def Sample.askedTwice : Sample.Outside :=
  ⟨[Sample.sendLink, Sample.sendLink, Sample.finish], false⟩

/-- An event arrives, and the process dies after some transactions of its processing. -/
def Sample.died (n : Nat) : List (Op Sample.Outside) :=
  [.deliver (Sample.failed "evt_1" .unknown), .process Sample.pipeline 1 (.dies n)]

/-- The link is sent and its result stored; then the process dies, and the drain finds the
event again. -/
theorem effect_applied_at_most_once_sample :
    ((Op.run (.drain Sample.pipeline 500 .lives) (runOps (Sample.died 19)
      (World.opened (GuardStore.empty : SqlGuardStore) Sample.askedTwice []))).2.env.applied.filter
      fun e => e.paymentId = "pay_1" ∧ e.key = "link:pay_1").length ≤ 1 := by
  have hsettled : Settled (runOps (Sample.died 19)
      (World.opened (GuardStore.empty : SqlGuardStore) Sample.askedTwice [])) := by
    unfold Settled
    decide +kernel
  have hreturned : ∀ e ∈ (Op.run (.drain Sample.pipeline 500 .lives) (runOps (Sample.died 19)
      (World.opened (GuardStore.empty : SqlGuardStore) Sample.askedTwice []))).2.env.applied.dropLast,
      e.returned = true := by
    decide +kernel
  exact effect_applied_at_most_once _ _ _ (Sample.died 19) _
    ⟨fun h => h.elim, fun _ => hsettled, trivial⟩ hreturned "pay_1" "link:pay_1"

/-- The provider sends the link, and its answer is lost; then a second event about the payment
arrives. -/
def Sample.answerLost : World SqlGuardStore (Env Sample.Outside) :=
  runOps [.deliver (Sample.failed "evt_1" .unknown), .process Sample.pipeline 1 .lives,
      .outside fun _ => ⟨[Sample.sendLink, Sample.finish], false⟩,
      .deliver (Sample.failed "evt_2" .unknown), .process Sample.pipeline 2 .lives]
    (World.opened GuardStore.empty ⟨[Sample.sendLink], true⟩ [])

/-- The process dies after the link was sent and before its result is stored; the drain finds
the event again. -/
def Sample.diedBetween : World SqlGuardStore (Env Sample.Outside) :=
  runOps (Sample.died 17 ++ [.drain Sample.pipeline 500 .lives])
    (World.opened GuardStore.empty Sample.askedTwice [])

/-- Either way the payment has two links under one key. -/
theorem effect_applied_twice :
    (Sample.answerLost.env.applied.filter fun e =>
      e.paymentId = "pay_1" ∧ e.key = "link:pay_1").length = 2 ∧
    (Sample.diedBetween.env.applied.filter fun e =>
      e.paymentId = "pay_1" ∧ e.key = "link:pay_1").length = 2 := by
  constructor
  · decide +kernel
  · decide +kernel

end PaymentRecovery.Recovery

import PaymentRecovery.Recovery.Recounts
import PaymentRecovery.Recovery.Served

/-!
# What the playground tells

The answer of a run is read off the ledger row, the stored trajectory and the audit log, after
other threads did what they liked. It tells the row of its own event, as many calls of the LLM as
were made, and no audit entry less than its own; and no other provider was asked anything.
-/

namespace PaymentRecovery.Recovery

open PaymentRecovery.Python PaymentRecovery.Guardrails PaymentRecovery.Providers
open PaymentRecovery.Agent PaymentRecovery.Lib PaymentRecovery.Lib.Table Program
open RecoveryPipeline

variable {S σ : Type}

/-! ## Nobody else is asked -/

/-- A call to a provider that is not the demo provider. -/
def elsewhere : OuterCall → Bool
  | .llm => false
  | .provider name => name ≠ demoProvider

/-- Nothing was asked elsewhere, and no effect was made there. -/
structure NothingElsewhere (w v : World S (Env (FakeProvider × σ))) : Prop where
  calls : v.env.calls.filter elsewhere = w.env.calls.filter elsewhere
  applied : (v.env.applied.filter fun e => elsewhere (.provider e.provider)) =
    w.env.applied.filter fun e => elsewhere (.provider e.provider)

/-- The demo provider is not elsewhere. -/
theorem demo_foreign : Foreign (fun _ : FakeProvider × σ => ()) elsewhere
    (FakeProvider.adapter demoProvider) where
  unseen := by simp [elsewhere, FakeProvider.adapter]
  getPayment _ _ := rfl
  getOrder _ _ := rfl
  getCustomerHistory _ _ := rfl
  createPaymentLink _ _ _ := rfl
  refundPayment _ _ _ _ := rfl

theorem live_discreet (d : Deployment σ) :
    Discreet (fun _ : FakeProvider × σ => ()) elsewhere d.live where
  unseen := rfl
  llm _ _ := rfl
  monotonic _ := rfl
  now _ := rfl
  isoNow _ := rfl

section Process

variable [GuardStore S] [LawfulGuardStore S]

/-- An event of the demo provider is processed with the demo provider alone. -/
theorem process_nothingElsewhere (d : Deployment σ) {id : Nat} {event : NormalisedEvent}
    {w v : World S (Env (FakeProvider × σ))} {row : LedgerEntry}
    (h : d.live.Ends id event w v row) (hdemo : event.provider = demoProvider) :
    NothingElsewhere w v := by
  cases h with
  | duplicate earlier hre hcalls happlied => exact ⟨by rw [hcalls], by rw [happlied]⟩
  | acted latency hdue hcalls happlied =>
    have hforeign : ∀ provider, d.live.registry.get? event.provider = some provider →
        Foreign (fun _ : FakeProvider × σ => ()) elsewhere provider := by
      intro provider hprovider
      rw [hdemo] at hprovider
      replace hprovider := (Dict.get?_set_self ..).symm.trans hprovider
      rw [← Option.some.inj hprovider]
      exact demo_foreign
    have huntouched : Untouched (fun _ => False) (fun _ => ()) elsewhere w
        (d.live.acted event w).2 :=
      acted_untouched (live_discreet d) hforeign (Untouched.refl w) fun _ _ _ _ _ => not_false
    exact ⟨by rw [hcalls]; exact huntouched.env.calls.symm,
      by rw [happlied]; exact huntouched.env.applied.symm⟩

end Process

/-! ## While other threads go on -/

/-- The process lives on, and the run of the thread stands still. -/
def Step.spares (thread : Nat) : Step σ → Bool
  | .boot .. | .crash => false
  | .webhook _ _ _ _ cut => !cut
  | .task _ .lives => true
  | .task _ (.dies _) => false
  | .advance other .lives => other ≠ thread
  | .advance _ (.dies _) => false
  | .play .. | .changeRules _ | .outside _ => true

/-- The process is up, of this deployment, and its thread has this run. -/
def App.Holds (app : App S σ) (d : Deployment σ) (thread : Nat) (run : PlayRun) : Prop :=
  ∃ proc, app.process = some proc ∧ proc.deployment = d ∧ proc.playing thread = some run

section Steps

variable [GuardStore S] {app : App S σ} {d : Deployment σ} {thread : Nat} {run : PlayRun}

/-- Others cannot touch the run of a thread. -/
theorem App.Holds.step (h : app.Holds d thread run) {step : Step σ}
    (hspares : step.spares thread = true) : (step.run app).2.Holds d thread run := by
  obtain ⟨proc, hproc, hd, hrun⟩ := h
  have hserve := App.serve_up hproc
  -- putting a run on another thread leaves this one
  have hother : ∀ (proc' : Process σ) {other : Nat} (run' : Option PlayRun), other ≠ thread →
      proc'.playing thread = some run → (proc'.onThread other run').playing thread = some run := by
    intro proc' other run' hne hrun'
    rw [proc'.onThread_of_ne (Ne.symm hne)]
    exact hrun'
  cases step with
  | boot d now fate => cases hspares
  | crash => cases hspares
  | changeRules rows => exact ⟨proc, hproc, hd, hrun⟩
  | outside f => exact ⟨proc, hproc, hd, hrun⟩
  | webhook rt answers name request cut =>
    cases cut with
    | true => cases hspares
    | false =>
      simp only [Step.run, hserve]
      exact ⟨_, rfl, hd, hrun⟩
  | task id fate =>
    cases fate with
    | dies n => cases hspares
    | lives =>
      simp only [Step.run, hserve, App.task]
      split
      · exact ⟨_, rfl, hd, hrun⟩
      · exact ⟨proc, hproc, hd, hrun⟩
  | play other scenario now token =>
    simp only [Step.run, hserve, App.play]
    split
    · exact ⟨proc, hproc, hd, hrun⟩
    · rename_i hfree
      have hne : other ≠ thread := by
        intro hsame
        rw [hsame, hrun] at hfree
        cases hfree
      split
      · exact ⟨_, rfl, hd, hrun⟩
      · exact ⟨_, rfl, hd, hother _ _ hne hrun⟩
  | advance other fate =>
    cases fate with
    | dies n => cases hspares
    | lives =>
      have hne : other ≠ thread := of_decide_eq_true hspares
      simp only [Step.run, hserve, App.advance]
      split
      · exact ⟨proc, hproc, hd, hrun⟩
      · exact ⟨_, rfl, hd, hother _ _ hne hrun⟩

/-- However long they go on. -/
theorem App.Holds.steps (h : app.Holds d thread run) {steps : List (Step σ)}
    (hspares : ∀ step ∈ steps, step.spares thread = true) :
    (runApp steps app).Holds d thread run :=
  Run.exec_inv_along (P := fun a : App S σ => a.Holds d thread run)
    (C := fun _ step => step.spares thread = true) (fun _ _ ha hstep => ha.step hstep) h
    (Run.along_of_forall hspares app)

/-- A thread whose event is processed holds the number of its row. -/
theorem App.Holds.process (h : app.Holds d thread run) {id auditBefore ledgerId : Nat}
    (hphase : run.phase = .counted id auditBefore) {v : World S (Env (FakeProvider × σ))}
    (hprocess : (d.live.process id).run app.world = (.ok (some ledgerId), v)) :
    ((Step.advance thread .lives).run app).2.world = v ∧
    ((Step.advance thread .lives).run app).2.Holds d thread
      { run with phase := .processed auditBefore ledgerId } := by
  obtain ⟨proc, hproc, rfl, hrun⟩ := h
  have hpart : (run.next proc.deployment.live proc.deployment.llmModel).run app.world =
      (.ok (.inl { run with phase := .processed auditBefore ledgerId }), v) := by
    unfold PlayRun.next processDemoEvent
    rw [hphase]
    dsimp only
    rw [run_bind, run_bind, hprocess]
    rfl
  have hadvance : (Step.advance thread .lives).run app = app.advance proc thread .lives :=
    App.serve_up hproc _
  rw [hadvance]
  unfold App.advance
  rw [hrun]
  dsimp only
  rw [hpart]
  refine ⟨?_, ⟨_, rfl, rfl, Process.onThread_self ..⟩⟩
  show ((run.next proc.deployment.live proc.deployment.llmModel).run app.world).2 = v
  rw [hpart]

/-- A thread whose row is there answers. -/
theorem App.Holds.answer (h : app.Holds d thread run) {auditBefore ledgerId : Nat}
    (hphase : run.phase = .processed auditBefore ledgerId) {result : PlayResult}
    (hresult : ((readResult run.scenario.paymentId auditBefore ledgerId d.llmModel).run
      app.world).1 = .ok result) :
    ((Step.advance thread .lives).run app).1 = .play (.ok result) := by
  obtain ⟨proc, hproc, rfl, hrun⟩ := h
  have hpart : ((run.next proc.deployment.live proc.deployment.llmModel).run app.world).1 =
      .ok (.inr result) := by
    unfold PlayRun.next
    rw [hphase]
    dsimp only
    rw [run_bind]
    revert hresult
    cases (readResult run.scenario.paymentId auditBefore ledgerId
      proc.deployment.llmModel).run app.world with
    | mk answer v =>
      intro hresult
      dsimp only at hresult
      subst hresult
      rfl
  have hadvance : (Step.advance thread .lives).run app = app.advance proc thread .lives :=
    App.serve_up hproc _
  rw [hadvance]
  unfold App.advance
  rw [hrun]
  dsimp only
  rw [hpart]

end Steps

/-! ## The answer of a run -/

/-- What an answer tells of its run, whose event was processed between `before` and `processed`,
and which was answered in `last`. -/
structure PlayRun.Answered [GuardStore S] (run : PlayRun) (id auditBefore : Nat)
    (llmModel : String) (before processed last : World S (Env (FakeProvider × σ)))
    (row : LedgerEntry) (result : PlayResult) : Prop where
  added : processed.env.db.ledger.rows = before.env.db.ledger.rows ++ [row]
  kept : row ∈ last.env.db.ledger.rows
  base : row.toLedgerBase = ⟨id, demoProvider, "demo_evt_" ++ run.token, run.scenario.paymentId,
    run.scenario.amountInr, some run.scenario.failureReason.value⟩
  told : result = resultOf row result.trajectory
    ((GuardStore.readAudit last.store run.scenario.paymentId).drop auditBefore) llmModel
  agent : result.trajectory.isSome ↔ row.path = .llm
  asked : row.path ≠ .failed → llmCalls processed.env = llmCalls before.env + result.llmCalls
  audit : ∃ own later,
    GuardStore.readAudit processed.store run.scenario.paymentId =
      GuardStore.readAudit before.store run.scenario.paymentId ++ own ∧
    GuardStore.readAudit last.store run.scenario.paymentId =
      GuardStore.readAudit processed.store run.scenario.paymentId ++ later ∧
    result.audit = ((GuardStore.readAudit before.store run.scenario.paymentId).drop auditBefore ++
      own ++ later).map auditView
  elsewhere : NothingElsewhere before processed

section Answers

variable [GuardStore S] [LawfulGuardStore S]

omit [LawfulGuardStore S] in
/-- The answer is there as long as the row and its trajectory are. -/
theorem readResult_run (paymentId : String) (auditBefore : Nat) (llmModel : String)
    {w v u : World S (Env (FakeProvider × σ))} {row : LedgerEntry} {view : Option TrajectoryView}
    (hrow : row ∈ u.env.db.ledger.rows) (hnumbered : RowsNumbered u)
    (hkept : v.env.db.trajectories <+: u.env.db.trajectories) (hrecounts : Recounts w v row view) :
    ((readResult paymentId auditBefore row.id llmModel).run u).1 =
      .ok (resultOf row view ((GuardStore.readAudit u.store paymentId).drop auditBefore)
        llmModel) := by
  have hnodup : (u.env.db.ledger.rows.map LedgerEntry.id).Nodup := by
    rw [hnumbered]
    exact List.nodup_range'
  have hget : u.env.db.ledger.get row.id = some row := selectBy_of_mem hnodup hrow
  unfold readResult buildResult readDb
  rw [run_bind, run_read]
  dsimp only
  rw [run_bind, run_read]
  dsimp only
  rw [hget]
  dsimp only
  rw [run_bind, hrecounts.shown u hkept]
  rfl

/-- **The playground tells the truth.** However the application got to where a run has counted its
audit entries, and whatever its other threads and background tasks do before the run is answered:
the run is answered, from the one row its event got. -/
theorem play_tells (store : S) (outer : σ) (rules : List RuleRow) (steps : List (Step σ))
    (d : Deployment σ) (thread : Nat) (run : PlayRun) (id auditBefore : Nat)
    (hholds : (runApp steps (App.fresh store outer rules)).Holds d thread run)
    (hphase : run.phase = .counted id auditBefore)
    (during : List (Step σ)) (hduring : ∀ step ∈ during, step.spares thread = true) :
    let app := runApp steps (App.fresh store outer rules)
    let processed := ((Step.advance thread .lives).run app).2
    let last := runApp during processed
    ∃ row result, ((Step.advance thread .lives).run last).1 = .play (.ok result) ∧
      run.Answered id auditBefore d.llmModel app.world processed.world last.world row result := by
  intro app processed last
  have hserved : Served app := .run store outer rules steps
  obtain ⟨proc, hproc, hd, hrun⟩ := hholds
  have hrelies := (hserved.serves hproc).relies hrun
  have howes : run.owes = some id := by simp [PlayRun.owes, hphase]
  obtain ⟨now, hun⟩ := hrelies.unrecorded hserved.numbered howes
  -- the event is processed, and gets its row
  obtain ⟨row, v, hprocess, hadded, hbase, hends⟩ := process_ends d.live hun
  obtain ⟨view, hrecounts⟩ := process_recounts d.live hends hserved.trajectories.1
  have helsewhere := process_nothingElsewhere d hends rfl
  obtain ⟨hworld, hnext⟩ := App.Holds.process ⟨proc, hproc, hd, hrun⟩ hphase hprocess
  replace hworld : processed.world = v := hworld
  have hprocessed : LeadsTo app.world processed.world :=
    step_refines (.advance thread .lives) app
  have hlast : LeadsTo processed.world last.world := run_refines during processed
  have hthere : last.Holds d thread _ := hnext.steps hduring
  -- the row, the trajectory and the entries are still there when the run is answered
  have hreached : LeadsTo (World.opened store (FakeProvider.new, outer) rules) processed.world :=
    (run_refines steps (App.fresh store outer rules)).trans hprocessed
  have hrow : row ∈ last.world.env.db.ledger.rows := by
    refine LeadsTo.keepsRow hreached hlast ?_
    rw [hworld, hadded]
    exact List.mem_append_right _ (List.mem_singleton_self row)
  have hserved' : Served processed := hserved.step (.advance thread .lives)
  have htrajectories : TrajectoriesFrom processed.world.env.db.trajectories last.world :=
    hlast.trajectoriesFrom ⟨hserved'.trajectories.1, List.prefix_rfl⟩
  have hnumbered : RowsNumbered last.world := hlast.rowsNumbered hserved'.rows
  rw [← hworld] at hadded hrecounts helsewhere
  have hresult := readResult_run run.scenario.paymentId auditBefore d.llmModel hrow hnumbered
    htrajectories.2 hrecounts
  refine ⟨row, _, hthere.answer rfl hresult, ?_⟩
  have hbefore : AuditFrom (GuardStore.readAudit app.world.store) processed.world :=
    hprocessed.auditFrom fun _ => List.prefix_rfl
  have hafter : AuditFrom (GuardStore.readAudit processed.world.store) last.world :=
    hlast.auditFrom fun _ => List.prefix_rfl
  obtain ⟨own, hown⟩ := hbefore run.scenario.paymentId
  obtain ⟨later, hlater⟩ := hafter run.scenario.paymentId
  have hcounted := hrelies.counted id auditBefore hphase
  exact
    { added := hadded
      kept := hrow
      base := hbase
      told := rfl
      agent := hrecounts.path
      asked := fun hne => hrecounts.calls hne
      audit := by
        refine ⟨own, later, hown.symm, hlater.symm, ?_⟩
        show ((GuardStore.readAudit last.world.store run.scenario.paymentId).drop auditBefore).map
          auditView = _
        rw [← hlater, ← hown, List.append_assoc, List.drop_append_of_le_length hcounted,
          List.append_assoc]
      elsewhere := helsewhere }

end Answers

namespace Sample

/-- The LLM sends the visitor a link, and finishes. -/
def sendsVisitor : List Json := [.obj [("action", .obj [("tool", .str "create_payment_link"),
  ("args", .obj [("amount_inr", .int 499)])])], finish]

/-- A visitor's run, up to where it has counted its audit entries. -/
def posted : List (Step Outside) := [.boot deployed id .lives, .play 0 scenario 0 "a1",
  .advance 0 .lives, .advance 0 .lives, .advance 0 .lives]

/-- While the run waits for its answer, another visitor comes. -/
def meanwhile : List (Step Outside) := [.play 1 scenario 1 "b2", .advance 1 .lives]

end Sample

/-- The visitor is told of the link. -/
theorem visitor_told : ∃ (d : Deployment Sample.Outside) (run : PlayRun) (row : LedgerEntry)
    (result : PlayResult),
    let app := runApp Sample.posted (Sample.installed Sample.sendsVisitor)
    let processed := ((Step.advance 0 .lives).run app).2
    let last := runApp Sample.meanwhile processed
    run.phase = .counted 1 0 ∧ ((Step.advance 0 .lives).run last).1 = .play (.ok result) ∧
      run.Answered 1 0 d.llmModel app.world processed.world last.world row result ∧
      (processed.world.env.db.ledger.rows.map fun r => r.path) = [.llm] := by
  have hphase : ((runApp Sample.posted (Sample.installed Sample.sendsVisitor)).process.bind
      fun proc => (proc.playing 0).map PlayRun.phase) = some (.counted 1 0) := by decide +kernel
  obtain ⟨proc, hproc, hphase⟩ := Option.bind_eq_some_iff.mp hphase
  obtain ⟨run, hrun, hphase⟩ := Option.map_eq_some_iff.mp hphase
  obtain ⟨row, result, hanswer, hanswered⟩ := play_tells (S := SqlGuardStore) GuardStore.empty
    (⟨Sample.sendsVisitor, false⟩ : Sample.Outside) [] Sample.posted proc.deployment 0 run 1 0
    ⟨proc, hproc, rfl, hrun⟩ hphase Sample.meanwhile (by decide)
  exact ⟨proc.deployment, run, row, result, hphase, hanswer, hanswered, by decide +kernel⟩

end PaymentRecovery.Recovery

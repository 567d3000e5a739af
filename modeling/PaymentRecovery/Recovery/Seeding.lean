import PaymentRecovery.Recovery.Application

/-!
# Seeding over restarts

The seed rules go into a rule store that lists no rule, one transaction each. Once one of them is
in, no boot adds or changes a rule again: a process that dies between the two leaves one for good.
-/

namespace PaymentRecovery.Recovery

open PaymentRecovery.Python PaymentRecovery.Guardrails PaymentRecovery.Providers
open PaymentRecovery.Agent PaymentRecovery.Lib PaymentRecovery.Rules Program

variable {S σ τ : Type}

/-- The rows of the seed rules, in order. -/
def seedRows (now : String → String) : List RuleRow := [
  seedRow "seed-risk-blocked-escalate" 10 "risk_blocked" "escalate_to_human"
    (now "seed-risk-blocked-escalate"),
  seedRow "seed-invalid-details-resend-link" 20 "invalid_details" "send_payment_link"
    (now "seed-invalid-details-resend-link")]

/-- The first seeds were inserted, none, one or both. -/
def SeededBy (now : String → String) (rows : List RuleRow) : Prop :=
  ∃ n, rows = (seedRows now).take n

theorem empty_store : ruleStoreIsEmpty paymentRuleSchema [] = .ok true := by
  with_unfolding_all rfl

/-- With its first seed a rule store is no longer empty. -/
theorem seeded_store (now : String → String) {rows : List RuleRow} (h : SeededBy now rows)
    (hne : rows ≠ []) : ruleStoreIsEmpty paymentRuleSchema rows = .ok false := by
  obtain ⟨n, rfl⟩ := h
  match n with
  | 0 => exact absurd rfl hne
  | 1 => with_unfolding_all rfl
  | n + 2 =>
    rw [List.take_of_length_le (Nat.le_add_left 2 n)]
    with_unfolding_all rfl

/-- The two transactions of `seed` on an empty table. -/
theorem seedAll_empty (now : String → String) :
    Triple (fun v : World S (Env τ) => SeededBy now v.env.db.rules)
      (fun v => v.env.db.rules = []) (seedAll now seedRules : Pipe S τ Unit)
      fun answer v => answer = .ok () ∧ v.env.db.rules = seedRows now := by
  have hfirst : ∀ db : Database, db.rules = [] →
      seedOne now ⟨"seed-risk-blocked-escalate", 10,
        seedDefinition "risk_blocked" RecoveryAction.escalateToHuman.value⟩ db =
        (.ok 1, { db with rules := (seedRows now).take 1 }) := by
    rintro ⟨events, ledger, trajectories, rules⟩ rfl
    with_unfolding_all rfl
  have hsecond : ∀ db : Database, db.rules = (seedRows now).take 1 →
      seedOne now ⟨"seed-invalid-details-resend-link", 20,
        seedDefinition "invalid_details" RecoveryAction.sendPaymentLink.value⟩ db =
        (.ok 1, { db with rules := seedRows now }) := by
    rintro ⟨events, ledger, trajectories, rules⟩ rfl
    with_unfolding_all rfl
  refine Triple.bind (Q := fun answer v => v.env.db.rules = (seedRows now).take 1 ∧ answer = .ok 1)
    (Triple.attempt fun v hv => ?_) (fun _ => ?_) fun exc v hv => absurd hv.2 (by simp)
  · rw [hfirst v.env.db hv]
    exact ⟨⟨1, rfl⟩, rfl, rfl⟩
  · refine Triple.bind (Q := fun answer v => v.env.db.rules = seedRows now ∧ answer = .ok 1)
      (Triple.attempt fun v hv => ?_) (fun _ => Triple.pure fun v hv => ⟨rfl, hv.1⟩)
      fun exc v hv => absurd hv.2 (by simp)
    rw [hsecond v.env.db hv.1]
    exact ⟨⟨2, rfl⟩, rfl, rfl⟩

/-! ## One boot -/

section Boot

variable [GuardStore S] (d : Deployment σ) (now : String → String)

/-- The drain leaves the rules as they are. -/
theorem drain_rules (rules : List RuleRow) :
    Carries (fun v : World S (Env (FakeProvider × σ)) => v.env.db.rules = rules)
      (fun v => v.env.db.rules = rules) d.drain := by
  unfold Deployment.drain
  split
  · refine Carries.bind ?_ fun _ => .pure _
    exact d.live.processPending_carries (fun _ h => h) (fun id => d.live.process_rules rules id) _
  · exact .pure _

/-- Nothing is seeded into a rule store that lists a rule, or cannot be listed. -/
theorem lifespan_kept {rules : List RuleRow}
    (hrules : ruleStoreIsEmpty paymentRuleSchema rules ≠ .ok true) :
    Carries (fun v : World S (Env (FakeProvider × σ)) => v.env.db.rules = rules)
      (fun v => v.env.db.rules = rules) (d.lifespan now) := by
  refine Carries.bind ?_ fun _ => drain_rules d rules
  unfold Deployment.seeds
  split
  · refine Triple.bind (Q := fun answer v => v.env.db.rules = rules ∧
        answer = ruleStoreIsEmpty paymentRuleSchema rules)
      (Triple.attempt fun v hv => ⟨hv, hv, by rw [hv]⟩) (fun empty => ?_) fun _ _ hv => hv.1
    cases empty with
    | true => exact fun v hv => absurd hv.2.symm hrules
    | false => exact Triple.pure fun v hv => hv.1
  · exact .pure _

/-- Into an empty one both seeds are, in order, unless the process dies in between. -/
theorem lifespan_seeded :
    Triple (fun v : World S (Env (FakeProvider × σ)) => SeededBy now v.env.db.rules)
      (fun v => v.env.db.rules = []) (d.lifespan now)
      fun _ v => SeededBy now v.env.db.rules ∧
        (d.seedRulesOnStartup = true → v.env.db.rules = seedRows now) := by
  have hfull : ∀ v : World S (Env (FakeProvider × σ)), v.env.db.rules = seedRows now →
      SeededBy now v.env.db.rules := fun v hv => ⟨2, hv⟩
  refine Triple.bind (Q := fun _ v => SeededBy now v.env.db.rules ∧
      (d.seedRulesOnStartup = true → v.env.db.rules = seedRows now)) ?_ (fun _ => ?_)
    fun _ _ hv => hv
  · unfold Deployment.seeds
    split
    · refine Triple.bind (Q := fun answer v => v.env.db.rules = [] ∧ answer = .ok true)
        (Triple.attempt fun v hv => ?_) (fun empty => ?_) fun exc v hv => absurd hv.2 (by simp)
      · refine ⟨⟨0, hv⟩, hv, ?_⟩
        dsimp only
        rw [hv, empty_store]
      · cases empty with
        | false => exact fun v hv => absurd hv.2 (by simp)
        | true =>
          intro v hv
          obtain ⟨hcuts, hend⟩ := seedAll_empty now v hv.1
          exact ⟨hcuts, hfull _ hend.2, fun _ => hend.2⟩
    · rename_i hoff
      exact Triple.pure fun v hv => ⟨⟨0, hv⟩, fun hon => absurd hon hoff⟩
  · intro v hv
    obtain ⟨hcuts, hend⟩ := drain_rules (S := S) d v.env.db.rules v rfl
    dsimp only at hcuts hend ⊢
    rw [hend]
    refine ⟨fun c hc => ?_, hv⟩
    rw [hcuts c hc]
    exact hv.1

end Boot

/-! ## Whole runs -/

section Runs

variable [GuardStore S]

/-- Requests, tasks and runs leave the rules as they are. -/
theorem step_rules {step : Step σ} (hboot : step.isBoot = false)
    (hrules : step.changesRules = false) (app : App S σ) :
    (step.run app).2.world.env.db.rules = app.world.env.db.rules := by
  cases step with
  | boot d now fate => cases hboot
  | changeRules rows => cases hrules
  | crash => rfl
  | outside f => rfl
  | webhook rt answers name request cut =>
    refine App.serve_elim (P := fun a => a.world.env.db.rules = app.world.env.db.rules) rfl
      fun proc _ => ?_
    have htook := receiveWebhook_took rt answers proc.deployment.adapters name request
      ⟨app.raw, app.world.env.db, proc.scheduled⟩
    unfold App.receive
    cases cut with
    | true => rfl
    | false =>
      cases htook with
      | nothing hdb => exact congrArg Database.rules hdb
      | event event hdb =>
        have hsame := congrArg Database.rules hdb
        exact hsame
  | task id fate =>
    refine App.serve_elim (P := fun a => a.world.env.db.rules = app.world.env.db.rules) rfl
      fun proc _ => ?_
    dsimp only
    unfold App.task
    split
    · exact fate.leaves_of_carries
        (proc.deployment.live.process_rules app.world.env.db.rules id) rfl
    · rfl
  | play thread scenario now token =>
    refine App.serve_elim (P := fun a => a.world.env.db.rules = app.world.env.db.rules) rfl
      fun proc _ => ?_
    unfold App.play
    split
    · rfl
    · split <;> rfl
  | advance thread fate =>
    refine App.serve_elim (P := fun a => a.world.env.db.rules = app.world.env.db.rules) rfl
      fun proc _ => ?_
    unfold App.advance
    split
    · rfl
    · refine fate.leaves_of_carries (PlayRun.next_carries (fun _ h => h) ?_ ?_
        (proc.deployment.live.process_rules app.world.env.db.rules) _) rfl
      · exact Carries.bind (Carries.step fun _ h => ⟨h, h⟩) fun _ => .step fun _ h => ⟨h, h⟩
      · exact Carries.bind (Carries.step fun _ h => ⟨h, h⟩) fun _ => .attempt fun _ h => ⟨h, h⟩

/-- A boot over a rule store that lists a rule, or cannot be listed, leaves it as it is. -/
theorem boot_kept {app : App S σ}
    (h : ruleStoreIsEmpty paymentRuleSchema app.world.env.db.rules ≠ .ok true) (d : Deployment σ)
    (now : String → String) (fate : Fate) :
    (app.boot d now fate).world.env.db.rules = app.world.env.db.rules :=
  fate.leaves_of_carries (lifespan_kept d now h) rfl

/-- A boot over an empty one leaves the first seeds there; both, if it comes up and is to seed. -/
theorem boot_seeded {app : App S σ} (h : app.world.env.db.rules = []) (d : Deployment σ)
    (now : String → String) (fate : Fate) :
    SeededBy now (app.boot d now fate).world.env.db.rules ∧
    ((app.boot d now fate).process ≠ none → d.seedRulesOnStartup = true →
      (app.boot d now fate).world.env.db.rules = seedRows now) := by
  unfold App.boot
  dsimp only
  generalize hopened : ({ app.world with env := { app.world.env with
    outer := (FakeProvider.new, app.world.env.outer.2) } } : World S (Env (FakeProvider × σ))) =
      opened
  have hstart : opened.env.db.rules = [] := hopened ▸ h
  obtain ⟨hcuts, hend⟩ := lifespan_seeded d now opened hstart
  refine ⟨fate.leaves_of_cuts ⟨0, hstart⟩ hcuts hend.1, fun hup hon => ?_⟩
  cases fate with
  | lives => exact hend.2 hon
  | dies n => split at hup <;> exact absurd rfl hup

/-- No step but an operator's touches rules that are there. -/
theorem rules_kept {later : List (Step σ)} (hlater : ∀ step ∈ later, step.changesRules = false)
    {app : App S σ} {now : String → String} (hseeded : SeededBy now app.world.env.db.rules)
    (hne : app.world.env.db.rules ≠ []) :
    (runApp later app).world.env.db.rules = app.world.env.db.rules := by
  have hlisted := seeded_store now hseeded hne
  refine Run.exec_inv_along (C := fun _ step => step.changesRules = false)
    (P := fun a : App S σ => a.world.env.db.rules = app.world.env.db.rules)
    (fun a step ha hstep => ?_) rfl (Run.along_of_forall hlater app)
  cases hboot : step.isBoot with
  | false => exact (step_rules hboot hstep a).trans ha
  | true =>
    cases step with
    | boot d moment fate =>
      refine (boot_kept ?_ d moment fate).trans ha
      rw [ha, hlisted]
      simp
    | _ => cases hboot

/-- **Rules are seeded once.** Over any steps from an empty rule store in which no operator changes
the rules, with processes dying anywhere: the store holds none of the seed rules, the first one, or
both, as one boot inserted them; once it holds one, no later step changes the rules; and a boot
that comes up and is to seed leaves both in a store that was empty. -/
theorem rules_seeded_once (store : S) (outer : σ) (steps : List (Step σ))
    (hsteps : ∀ step ∈ steps, step.changesRules = false) :
    let app := runApp steps (App.fresh store outer [])
    (∃ now, SeededBy now app.world.env.db.rules) ∧
    (app.world.env.db.rules ≠ [] → ∀ later : List (Step σ),
      (∀ step ∈ later, step.changesRules = false) →
      (runApp later app).world.env.db.rules = app.world.env.db.rules) ∧
    ∀ (d : Deployment σ) now fate, d.seedRulesOnStartup = true →
      (app.boot d now fate).process ≠ none → app.world.env.db.rules = [] →
      (app.boot d now fate).world.env.db.rules = seedRows now := by
  intro app
  have hseeded : ∃ now, SeededBy now app.world.env.db.rules := by
    refine Run.exec_inv_along (C := fun _ step => step.changesRules = false)
      (P := fun a : App S σ => ∃ now, SeededBy now a.world.env.db.rules)
      (fun a step ha hstep => ?_) ⟨id, 0, rfl⟩ (Run.along_of_forall hsteps _)
    obtain ⟨now, hnow⟩ := ha
    by_cases hempty : a.world.env.db.rules = []
    · cases hboot : step.isBoot with
      | false => exact ⟨now, (step_rules hboot hstep a).symm ▸ hnow⟩
      | true =>
        cases step with
        | boot d moment fate => exact ⟨moment, (boot_seeded hempty d moment fate).1⟩
        | _ => cases hboot
    · have hlater : ∀ later ∈ [step], later.changesRules = false := by simpa using hstep
      have hkept := rules_kept hlater hnow hempty
      exact ⟨now, hkept.symm ▸ hnow⟩
  obtain ⟨now, hnow⟩ := hseeded
  exact ⟨⟨now, hnow⟩, fun hne later hlater => rules_kept hlater hnow hne,
    fun d moment fate hon hup hempty => (boot_seeded hempty d moment fate).2 hup hon⟩

end Runs

/-- The first boot dies between the two seeds. -/
def Sample.halfSeeded : App SqlGuardStore Sample.Outside :=
  runApp [.boot Sample.deployed id (.dies 2)] (Sample.installed [])

/-- It stays at one of them, whatever boots come after. -/
theorem half_seeded_stays : Sample.halfSeeded.world.env.db.rules = (seedRows id).take 1 ∧
    ∀ later : List (Step Sample.Outside), (∀ step ∈ later, step.changesRules = false) →
      (runApp later Sample.halfSeeded).world.env.db.rules =
        Sample.halfSeeded.world.env.db.rules := by
  have hone : Sample.halfSeeded.world.env.db.rules = (seedRows id).take 1 := by
    with_unfolding_all rfl
  have hne : Sample.halfSeeded.world.env.db.rules ≠ [] := by
    rw [hone]
    simp [seedRows]
  obtain ⟨_, hkept, _⟩ := rules_seeded_once (S := SqlGuardStore) GuardStore.empty
    (⟨[], false⟩ : Sample.Outside) [.boot Sample.deployed id (.dies 2)]
    (by simp [Step.changesRules])
  exact ⟨hone, hkept hne⟩

end PaymentRecovery.Recovery

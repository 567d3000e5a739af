import PaymentRecovery.Recovery.Routing
import PaymentRecovery.Recovery.RuleLives
import PaymentRecovery.Recovery.SeedRules

/-!
# Rules that tie

The query leaves open in which order rows of equal priority come. Distilled rules all have one
priority, and nothing compares a rule that goes ACTIVE with those that already are. The order
is without effect exactly as long as no two ACTIVE rules of different actions match a common
context that the seed rules leave to them.
-/

namespace PaymentRecovery.Recovery

open PaymentRecovery.Python PaymentRecovery.Lib PaymentRecovery.Lib.Table
open PaymentRecovery.Rules PaymentRecovery.Distill PaymentRecovery.Agent Program

variable {σ : Type}

/-! ## Routing in any order -/

/-- The rule applies, and none of a smaller priority number does. -/
structure Leads (rows : List RuleRow) (context : List (String × PyVal)) (row : RuleRow)
    (rule : Rule) : Prop where
  mem : row ∈ rows
  applies : Applies context row rule
  least : ∀ other ∈ rows, ∀ rule', Applies context other rule' → row.priority ≤ other.priority

/-- The routed action does not depend on the order of rows of equal priority: rules that tie for
the lowest priority number have the same action. -/
structure OrderFree (rows : List RuleRow) : Prop where
  action : ∀ context returned returned', Returned .active rows returned →
    Returned .active rows returned' → ∃ decision decision', route returned context = .ok decision ∧
      route returned' context = .ok decision' ∧ decision.action = decision'.action
  tied : ∀ context row row' rule rule', Leads rows context row rule → Leads rows context row' rule' →
    rule.action.name = rule'.action.name

/-- Where the JSON decodes, what ties is all that matters. -/
theorem orderFree_of_tied {rows : List RuleRow} (hdecodes : Decodes rows)
    (h : ∀ context row row' rule rule', Leads rows context row rule →
      Leads rows context row' rule' → rule.action.name = rule'.action.name) : OrderFree rows := by
  refine ⟨fun context returned returned' hreturned hreturned' => ?_, h⟩
  refine ⟨_, _, route_returned hreturned hdecodes.legible, route_returned hreturned' hdecodes.legible,
    ?_⟩
  have hrouted : RoutedBy rows context _ := routedBy_offers hreturned
  have hrouted' : RoutedBy rows context _ := routedBy_offers hreturned'
  generalize (returned.findSome? (offer context)).getD { route := .escalateToAgent } =
    decision at hrouted ⊢
  generalize (returned'.findSome? (offer context)).getD { route := .escalateToAgent } =
    decision' at hrouted' ⊢
  cases hroute : decision.route with
  | escalateToAgent =>
    have hroute' := hrouted'.escalated.mpr (hrouted.escalated.mp hroute)
    rw [hrouted.bare hroute, hrouted'.bare hroute']
  | deterministic =>
    cases hroute' : decision'.route with
    | escalateToAgent =>
      rw [hrouted.escalated.mpr (hrouted'.escalated.mp hroute')] at hroute
      cases hroute
    | deterministic =>
      obtain ⟨row, hrow, rule, happlies, hleast, rfl⟩ := hrouted.chosen hroute
      obtain ⟨row', hrow', rule', happlies', hleast', rfl⟩ := hrouted'.chosen hroute'
      exact congrArg some
        (h context row row' rule rule' ⟨hrow, happlies, hleast⟩ ⟨hrow', happlies', hleast'⟩)

/-! ## What the distiller keeps of a table -/

/-- The texts still decode, and a row is an old one, moved or not, or one of the distiller's. -/
structure Carried (rows rows' : List RuleRow) : Prop where
  decodes : Decodes rows → Decodes rows'
  descends : ∀ row' ∈ rows', row'.priority = 50 ∨
    ∃ row ∈ rows, ruleId row' = ruleId row ∧ row'.priority = row.priority

theorem Carried.refl (rows : List RuleRow) : Carried rows rows :=
  ⟨id, fun row' hrow' => .inr ⟨row', hrow', rfl, rfl⟩⟩

theorem Carried.trans {rows rows' rows'' : List RuleRow} (h : Carried rows rows')
    (h' : Carried rows' rows'') : Carried rows rows'' := by
  refine ⟨fun hdecodes => h'.decodes (h.decodes hdecodes), fun row'' hrow'' => ?_⟩
  rcases h'.descends row'' hrow'' with hborn | ⟨row', hrow', hid', hpriority'⟩
  · exact .inl hborn
  · rcases h.descends row' hrow' with hborn | ⟨row, hrow, hid, hpriority⟩
    · exact .inl (hpriority'.trans hborn)
    · exact .inr ⟨row, hrow, hid'.trans hid, hpriority'.trans hpriority⟩

/-- `set_status` writes one provenance, as JSON. -/
theorem setStatus_carried (ruleKey : String) (version : Int) (status : RuleStatus)
    (reason now : String) (rows : List RuleRow) :
    Carried rows (setStatus ruleKey version status reason now rows).2 := by
  unfold setStatus
  split
  · exact .refl rows
  dsimp only
  split
  · exact .refl rows
  · rename_i provenanceJson hwritten
    obtain ⟨_, _, hwritten⟩ := bind_ok hwritten
    obtain ⟨_, _, hdumps⟩ := bind_ok hwritten
    refine ⟨fun hdecodes row' hrow' => ?_, fun row' hrow' => ?_⟩
    · obtain ⟨row, hrow, rfl⟩ := mem_updateBy hrow'
      split
      · exact ⟨(hdecodes row hrow).1, jsonLoads_of_jsonDumps hdumps⟩
      · exact hdecodes row hrow
    · obtain ⟨row, hrow, rfl⟩ := mem_updateBy hrow'
      refine .inr ⟨row, hrow, ?_⟩
      split <;> exact ⟨rfl, rfl⟩

/-- `add_rule` writes one row, as JSON. -/
theorem addRule_carried (schema : Schema) (ruleKey : String) (definition : PyVal)
    (status : RuleStatus) (provenance : Option PyVal) (version : Option Int) (now : String)
    (rows : List RuleRow) :
    Carried rows (addRule schema ruleKey definition status provenance 50 version now rows).2 := by
  unfold addRule
  dsimp only
  split
  · exact .refl rows
  · rename_i assigned row hinserted
    split
    · exact .refl rows
    · obtain ⟨_, _, hinserted⟩ := bind_ok hinserted
      obtain ⟨_, hdefinition, hinserted⟩ := bind_ok hinserted
      obtain ⟨_, hprovenance, hinserted⟩ := bind_ok hinserted
      injection hinserted with hinserted
      injection hinserted with _ hrow
      refine ⟨fun hdecodes => ?_, fun row' hrow' => ?_⟩
      · refine List.forall_mem_append.mpr ⟨hdecodes, List.forall_mem_singleton.mpr ?_⟩
        rw [← hrow]
        exact ⟨jsonLoads_of_jsonDumps hdefinition, jsonLoads_of_jsonDumps hprovenance⟩
      · rcases List.mem_append.mp hrow' with hold | hnew
        · exact .inr ⟨row', hold, rfl, rfl⟩
        · rw [List.mem_singleton.mp hnew, ← hrow]
          exact .inl rfl

/-- The same between two worlds. -/
def CarriesRules (w w' : DistillerWorld σ) : Prop := Carried w.rows w'.rows

instance : Std.Refl (CarriesRules (σ := σ)) := ⟨fun w => .refl w.rows⟩

instance : IsTrans (DistillerWorld σ) CarriesRules := ⟨fun _ _ _ h h' => h.trans h'⟩

section Calls

variable {D : PaymentDistiller σ}

theorem KeepsRules.carries {w w' : DistillerWorld σ} (h : KeepsRules w w') : CarriesRules w w' := by
  unfold CarriesRules
  rw [show w'.rows = w.rows from h]
  exact .refl w.rows

theorem moveTo_carries (l : LoadedRule) (status : RuleStatus) (reason : String) :
    Moves CarriesRules (D.moveTo l status reason) :=
  .attempt fun w => setStatus_carried l.ruleKey l.version status reason (D.now w.env).1 w.rows

/-- Distilling keeps that much. -/
theorem carries_kept (D : PaymentDistiller σ) : KeptByDistilling D CarriesRules where
  notes f _ := (remember_keepsRules f).mono fun _ _ => KeepsRules.carries
  asked w _ := KeepsRules.carries (w := w) rfl
  stored _ _ definition := .attempt fun w => addRule_carried D.schema _ definition .shadow _ none _ w.rows

theorem promote_carries (D : PaymentDistiller σ) : Moves CarriesRules D.promote :=
  promote_moves (carries_kept D).notes fun l => moveTo_carries l .active ""

theorem demote_carries (D : PaymentDistiller σ) : Moves CarriesRules D.demote :=
  demote_moves (fun f _ => (remember_keepsRules f).mono fun _ _ => KeepsRules.carries)
    fun l reason => moveTo_carries l .demoted reason

end Calls

/-! ## Tables grown from the seed rules -/

/-- What the seed rules of a table are like. -/
structure Seeded (seeds : List RuleRow) : Prop where
  active : ∀ row ∈ seeds, row.status = RuleStatus.active.value
  before : ∀ row ∈ seeds, row.priority < 50
  distinct : ∀ row ∈ seeds, ∀ row' ∈ seeds, row.priority = row'.priority → row = row'
  other : ∀ row ∈ seeds, ¬ FromDistiller row

theorem seed_seeded (now : String → String) : Seeded (seed paymentRuleSchema now []).2 := by
  rw [seed_empty]
  refine ⟨fun row hrow => ?_, fun row hrow => ?_, fun row hrow row' hrow' hpriority => ?_,
    fun row hrow horigin => ?_⟩
  · simp only [List.mem_cons, List.not_mem_nil, or_false] at hrow
    rcases hrow with rfl | rfl <;> rfl
  · simp only [List.mem_cons, List.not_mem_nil, or_false] at hrow
    rcases hrow with rfl | rfl
    · show (10 : Int) < 50
      decide
    · show (20 : Int) < 50
      decide
  · simp only [List.mem_cons, List.not_mem_nil, or_false] at hrow hrow'
    rcases hrow with rfl | rfl <;> rcases hrow' with rfl | rfl
    · rfl
    · cases hpriority
    · cases hpriority
    · rfl
  · have hseed : itemGet? (provenanceOf row) "origin" = some (.str "seed") := by
      simp only [List.mem_cons, List.not_mem_nil, or_false] at hrow
      rcases hrow with rfl | rfl <;> rfl
    unfold FromDistiller at horigin
    rw [hseed] at horigin
    injection horigin with horigin
    injection horigin with horigin
    exact absurd horigin (by decide)

/-- The table holds the seed rules as they were, and besides them rules of the distiller. -/
structure GrownFrom (seeds rows : List RuleRow) : Prop where
  unique : UniqueRules rows
  decodes : Decodes rows
  ranked : ∀ row ∈ rows, row.priority = 50 ∨ row ∈ seeds
  seeded : ∀ row ∈ seeds, row ∈ rows

theorem seed_grown (now : String → String) :
    GrownFrom (seed paymentRuleSchema now []).2 (seed paymentRuleSchema now []).2 := by
  refine ⟨?_, ?_, fun row hrow => .inr hrow, fun row hrow => hrow⟩
  · rw [seed_empty]
    refine List.nodup_cons.mpr ⟨fun hmem => ?_, List.nodup_singleton _⟩
    rw [List.map_singleton, List.mem_singleton] at hmem
    injection hmem with hkey
    have hsame : "seed-risk-blocked-escalate" = "seed-invalid-details-resend-link" := hkey
    exact absurd hsame (by decide)
  · rw [seed_empty]
    intro row hrow
    simp only [List.mem_cons, List.not_mem_nil, or_false] at hrow
    rcases hrow with rfl | rfl <;> exact ⟨⟨_, rfl⟩, ⟨_, rfl⟩⟩

section Grown

variable {seeds rows : List RuleRow} {w w' : DistillerWorld σ}

/-- Rules of another origin live on as they are. -/
theorem Lives.keeps_others {rows' : List RuleRow} (h : Lives rows rows') {row : RuleRow}
    (hrow : row ∈ rows) (horigin : ¬ FromDistiller row) : row ∈ rows' := by
  obtain ⟨grown, born, rfl, hgrown, _⟩ := h
  obtain ⟨row', hrow', hlived⟩ := forall₂_mem hgrown hrow
  rcases Relation.ReflTransGen.cases_head hlived with rfl | ⟨next, hmove, _⟩
  · exact List.mem_append_left _ hrow'
  · exact absurd hmove.fromDistiller.1 horigin

theorem GrownFrom.next (h : GrownFrom seeds w.rows) (hseeds : Seeded seeds) (hlives : LivesOn w w')
    (hcarried : CarriesRules w w') : GrownFrom seeds w'.rows := by
  obtain ⟨hlived, hunique⟩ := hlives h.unique
  have hseeded : ∀ row ∈ seeds, row ∈ w'.rows := fun row hrow =>
    hlived.keeps_others (h.seeded row hrow) (hseeds.other row hrow)
  refine ⟨hunique, hcarried.decodes h.decodes, fun row' hrow' => ?_, hseeded⟩
  rcases hcarried.descends row' hrow' with hborn | ⟨row, hrow, hid, hpriority⟩
  · exact .inl hborn
  · rcases h.ranked row hrow with hdistilled | hseed
    · exact .inl (hpriority.trans hdistilled)
    · have hsame : row' = row := List.inj_on_of_nodup_map hunique hrow' (hseeded row hseed) hid
      exact .inr (hsame ▸ hseed)

/-- No seed rule matches the context. -/
def Unseeded (seeds : List RuleRow) (context : List (String × PyVal)) : Prop :=
  ∀ row ∈ seeds, ∀ rule, ¬ Applies context row rule

/-- Rules that apply where no seed rule does have one action. -/
def TiesAgree (seeds rows : List RuleRow) : Prop :=
  ∀ context, Unseeded seeds context → ∀ row ∈ rows, ∀ row' ∈ rows, ∀ rule rule',
    Applies context row rule → Applies context row' rule' → rule.action.name = rule'.action.name

/-- In such a table, that is what makes the order irrelevant: among the distiller's rules there is
one priority, and a seed rule comes before them all. -/
theorem GrownFrom.orderFree_iff (h : GrownFrom seeds rows) (hseeds : Seeded seeds) :
    OrderFree rows ↔ TiesAgree seeds rows := by
  constructor
  · intro hfree context hunseeded row hrow row' hrow' rule rule' happlies happlies'
    have hdistilled : ∀ other ∈ rows, ∀ rule, Applies context other rule → other.priority = 50 := by
      intro other hother rule hother'
      rcases h.ranked other hother with hdistilled | hseed
      · exact hdistilled
      · exact absurd hother' (hunseeded other hseed rule)
    have hleads : ∀ {row rule}, row ∈ rows → Applies context row rule →
        Leads rows context row rule := by
      intro row rule hrow happlies
      refine ⟨hrow, happlies, fun other hother rule' hother' => ?_⟩
      rw [hdistilled row hrow rule happlies, hdistilled other hother rule' hother']
    exact hfree.tied context row row' rule rule' (hleads hrow happlies) (hleads hrow' happlies')
  · intro hagree
    refine orderFree_of_tied h.decodes fun context row row' rule rule' hleads hleads' => ?_
    by_cases hunseeded : Unseeded seeds context
    · exact hagree context hunseeded row hleads.mem row' hleads'.mem rule rule' hleads.applies
        hleads'.applies
    · -- a seed rule applies, so only seed rules lead
      unfold Unseeded at hunseeded
      push Not at hunseeded
      obtain ⟨seed, hseed, rule'', hseedApplies⟩ := hunseeded
      have hin : ∀ {row rule}, Leads rows context row rule → row ∈ seeds := by
        intro row rule hleads
        have hle := hleads.least seed (h.seeded seed hseed) rule'' hseedApplies
        rcases h.ranked row hleads.mem with hdistilled | hmem
        · have hlt := hseeds.before seed hseed
          omega
        · exact hmem
      have hpriority : row.priority = row'.priority :=
        le_antisymm (hleads.least row' hleads'.mem rule' hleads'.applies)
          (hleads'.least row hleads.mem rule hleads.applies)
      have hsame := hseeds.distinct row (hin hleads) row' (hin hleads') hpriority
      subst hsame
      have hrule := acceptedRule_iff.mpr hleads.applies.2.1
      rw [acceptedRule_iff.mpr hleads'.applies.2.1] at hrule
      rw [Option.some.inj hrule]

end Grown

/-! ## Runs of the distiller -/

/-- The world that `promote` leaves in the call, if the call comes to it. -/
def PaymentDistiller.promoted (D : PaymentDistiller σ) (op : DistillerOp) (w : DistillerWorld σ) :
    Option (DistillerWorld σ) :=
  (D.promotesFrom op w).map fun before => (D.promote.run before).2

/-- Every world a run comes by: between its calls, and after the `promote` of each. -/
def PaymentDistiller.moments (D : PaymentDistiller σ) :
    List DistillerOp → DistillerWorld σ → List (DistillerWorld σ)
  | [], w => [w]
  | op :: rest, w => w :: ((D.promoted op w).toList ++ moments D rest (D.runOp op w).2)

/-- Whatever the call makes ACTIVE agrees with every rule that is ACTIVE, or goes ACTIVE with it,
wherever both match and no seed rule does. -/
def PromotesAgreeing (D : PaymentDistiller σ) (seeds : List RuleRow) (w : DistillerWorld σ)
    (op : DistillerOp) : Prop :=
  ∀ before, D.promotesFrom op w = some before → ∀ row, D.Promotes before row →
    ∀ row' ∈ before.rows, (row'.status = RuleStatus.active.value ∨ D.Promotes before row') →
      ∀ context, Unseeded seeds context → ∀ rule rule', HoldsRule row rule → HoldsRule row' rule' →
        Matches rule context → Matches rule' context → rule.action.name = rule'.action.name

section Runs

variable {D : PaymentDistiller σ} {seeds : List RuleRow} {w before : DistillerWorld σ}
  {op : DistillerOp}

theorem holdsRule_moved {row : RuleRow} {status : String} {provenance : JsonText} {rule : Rule} :
    HoldsRule { row with status := status, provenanceJson := provenance } rule ↔
      HoldsRule row rule := Iff.rfl

/-- A rule that applies after `promote` was ACTIVE before it, or went ACTIVE. -/
theorem applies_promoted (hunique : UniqueRules before.rows) {context : List (String × PyVal)}
    {row : RuleRow} {rule : Rule} (hrow : row ∈ (D.promote.run before).2.rows)
    (happlies : Applies context row rule) :
    ∃ old ∈ before.rows, HoldsRule old rule ∧ Matches rule context ∧
      (D.Promotes before old ∨ (old = row ∧ Applies context old rule)) := by
  obtain ⟨old, hold, hmoved⟩ := forall₂_mem (promote_rows hunique).flip hrow
  rcases hmoved with rfl | ⟨hpromotes, provenance, rfl⟩
  · exact ⟨row, hold, happlies.2.1, happlies.2.2, .inr ⟨rfl, happlies⟩⟩
  · exact ⟨old, hold, holdsRule_moved.mp happlies.2.1, happlies.2.2, .inl hpromotes⟩

/-- What is ACTIVE, or goes ACTIVE, is ACTIVE after `promote`, with the rule it had. -/
theorem promoted_applies (hunique : UniqueRules before.rows) {context : List (String × PyVal)}
    {row : RuleRow} {rule : Rule} (hrow : row ∈ before.rows) (hrule : HoldsRule row rule)
    (hmatches : Matches rule context)
    (h : row.status = RuleStatus.active.value ∨ D.Promotes before row) :
    ∃ row' ∈ (D.promote.run before).2.rows, Applies context row' rule := by
  obtain ⟨row', hrow', hmoved⟩ := forall₂_mem (promote_rows (D := D) hunique) hrow
  refine ⟨row', hrow', ?_⟩
  rcases hmoved with rfl | ⟨_, provenance, rfl⟩
  · refine ⟨?_, hrule, hmatches⟩
    rcases h with hactive | hpromotes
    · exact hactive
    · obtain ⟨other, hother, hid, hactive⟩ := hpromotes.active
      have hunique' := promote_staysUnique D before hunique
      rw [← List.inj_on_of_nodup_map hunique' hother hrow' hid]
      exact hactive
  · exact ⟨rfl, holdsRule_moved.mpr hrule, hmatches⟩

/-- After `promote`, ties agree if and only if what it promoted agrees. -/
theorem tiesAgree_promoted (hunique : UniqueRules before.rows) (h : TiesAgree seeds before.rows)
    (hbefore : D.promotesFrom op w = some before) :
    TiesAgree seeds (D.promote.run before).2.rows ↔ PromotesAgreeing D seeds w op := by
  constructor
  · intro hagree other hother row hpromotes row' hrow' hactive context hunseeded rule rule' hrule
      hrule' hmatches hmatches'
    rw [hbefore] at hother
    injection hother with hother
    subst hother
    obtain ⟨a, ha, happlies⟩ :=
      promoted_applies hunique hpromotes.mem hrule hmatches (.inr hpromotes)
    obtain ⟨b, hb, happlies'⟩ := promoted_applies hunique hrow' hrule' hmatches' hactive
    exact hagree context hunseeded a ha b hb rule rule' happlies happlies'
  · intro hagreeing context hunseeded a ha b hb rule rule' happlies happlies'
    obtain ⟨old, hold, hrule, hmatches, hcase⟩ := applies_promoted hunique ha happlies
    obtain ⟨old', hold', hrule', hmatches', hcase'⟩ := applies_promoted hunique hb happlies'
    have hpair := hagreeing before hbefore
    rcases hcase with hpromotes | ⟨_, hactive⟩
    · refine hpair old hpromotes old' hold' ?_ context hunseeded rule rule' hrule hrule' hmatches
        hmatches'
      exact hcase'.symm.imp_left fun hactive' => hactive'.2.1
    · rcases hcase' with hpromotes' | ⟨_, hactive'⟩
      · exact (hpair old' hpromotes' old hold (.inl hactive.1) context hunseeded rule' rule hrule'
          hrule hmatches' hmatches).symm
      · exact h context hunseeded old hold old' hold' rule rule' hactive hactive'

/-- Ties agree on if no row goes ACTIVE. -/
theorem TiesAgree.mono {rows rows' : List RuleRow} (h : TiesAgree seeds rows)
    (hactive : ∀ row ∈ rows', row.status = RuleStatus.active.value → row ∈ rows) :
    TiesAgree seeds rows' :=
  fun context hunseeded row hrow row' hrow' rule rule' happlies happlies' =>
    h context hunseeded row (hactive row hrow happlies.1) row' (hactive row' hrow' happlies'.1)
      rule rule' happlies happlies'

/-- Every call of the distiller. -/
theorem perform_carries (D : PaymentDistiller σ) (op : DistillerOp) :
    Moves CarriesRules (D.perform op) :=
  perform_moves
    (fun context action recovered fromAgent sourceId =>
      (observe_keepsRules context action recovered fromAgent sourceId).mono
        fun _ _ => KeepsRules.carries)
    (carries_kept D) (promote_carries D) (demote_carries D) op

/-- The world in which a call comes to `promote`. -/
theorem GrownFrom.promoting (h : GrownFrom seeds w.rows) (hseeds : Seeded seeds)
    (hagree : TiesAgree seeds w.rows) (hbefore : D.promotesFrom op w = some before) :
    GrownFrom seeds before.rows ∧ TiesAgree seeds before.rows :=
  ⟨h.next hseeds ((livesOn_kept D).promotesFrom hbefore) ((carries_kept D).promotesFrom hbefore),
    hagree.mono fun _ => ((creates_kept D).promotesFrom hbefore).active⟩

/-- After a call, ties agree if they agree after its `promote`. -/
theorem TiesAgree.runOp (hagree : TiesAgree seeds w.rows)
    (hpromoted : ∀ mid, D.promoted op w = some mid → TiesAgree seeds mid.rows) :
    TiesAgree seeds (D.runOp op w).2.rows := by
  unfold PaymentDistiller.promoted PaymentDistiller.promotesFrom at hpromoted
  unfold PaymentDistiller.runOp PaymentDistiller.perform
  cases op with
  | observe context action recovered fromAgent sourceId =>
    have hkeeps : KeepsRules w _ :=
      observe_keepsRules (D := D) context action recovered fromAgent sourceId w
    dsimp only
    rw [hkeeps]
    exact hagree
  | distill => exact hagree.mono fun _ => (distill_creates D w).active
  | demote => exact hagree.mono fun _ => demote_active
  | promote => exact hpromoted _ rfl
  | step casesSeen =>
    have hcreates := dueToPromote_creates (D := D) casesSeen w
    unfold PaymentDistiller.step
    dsimp only at hpromoted ⊢
    rw [run_bind]
    cases hrun : (D.dueToPromote casesSeen).run w with
    | mk answer v =>
      rw [hrun] at hcreates hpromoted
      cases answer with
      | error exc => exact hagree.mono fun _ => hcreates.active
      | ok due =>
        cases due with
        | false => exact hagree.mono fun _ => hcreates.active
        | true =>
          have hmid : TiesAgree seeds (D.promote.run v).2.rows := hpromoted _ rfl
          dsimp only
          rw [if_pos rfl, run_bind]
          cases hpromote : D.promote.run v with
          | mk answer mid =>
            rw [hpromote] at hmid
            cases answer with
            | error exc => exact hmid
            | ok _ => exact hmid.mono fun _ => demote_active

/-- The table that `promote` leaves in a call is free of the order if and only if what it promoted
agrees. -/
theorem promoted_orderFree_iff (hseeds : Seeded seeds) (h : GrownFrom seeds w.rows)
    (hagree : TiesAgree seeds w.rows) :
    (∀ mid, D.promoted op w = some mid → OrderFree mid.rows) ↔ PromotesAgreeing D seeds w op := by
  unfold PaymentDistiller.promoted
  cases hbefore : D.promotesFrom op w with
  | none =>
    refine ⟨fun _ before h => ?_, fun _ mid h => (by cases h)⟩
    rw [hbefore] at h
    cases h
  | some before =>
    obtain ⟨hgrown, hties⟩ := h.promoting hseeds hagree hbefore
    have hmid : GrownFrom seeds (D.promote.run before).2.rows :=
      hgrown.next hseeds (promote_livesOn D before) (promote_carries D before)
    rw [← tiesAgree_promoted hgrown.unique hties hbefore, ← hmid.orderFree_iff hseeds]
    refine ⟨fun hfree => hfree _ rfl, fun hfree mid hmid' => ?_⟩
    injection hmid' with hmid'
    exact hmid' ▸ hfree

/-- By induction on the calls: whatever they are, the table has grown from its seeds. -/
theorem moments_orderFree_iff (hseeds : Seeded seeds) (ops : List DistillerOp)
    {w : DistillerWorld σ} (h : GrownFrom seeds w.rows) (hagree : TiesAgree seeds w.rows) :
    (∀ m ∈ D.moments ops w, OrderFree m.rows) ↔
      Run.Along D.runOp (PromotesAgreeing D seeds) ops w := by
  induction ops generalizing w with
  | nil => simp [PaymentDistiller.moments, Run.Along, (h.orderFree_iff hseeds).mpr hagree]
  | cons op rest ih =>
    have hnext : GrownFrom seeds (D.runOp op w).2.rows :=
      h.next hseeds (perform_livesOn D op w) (perform_carries D op w)
    have hpromoted : _ ↔ PromotesAgreeing D seeds w op := promoted_orderFree_iff hseeds h hagree
    have hthen : PromotesAgreeing D seeds w op → TiesAgree seeds (D.runOp op w).2.rows := by
      intro hagreeing
      refine hagree.runOp fun mid hmid => ?_
      unfold PaymentDistiller.promoted at hmid
      obtain ⟨before, hbefore, rfl⟩ := Option.map_eq_some_iff.mp hmid
      exact (tiesAgree_promoted (h.promoting hseeds hagree hbefore).1.unique
        (h.promoting hseeds hagree hbefore).2 hbefore).mpr hagreeing
    show (∀ m ∈ w :: ((D.promoted op w).toList ++ D.moments rest (D.runOp op w).2),
      OrderFree m.rows) ↔ PromotesAgreeing D seeds w op ∧ Run.Along D.runOp _ rest (D.runOp op w).2
    rw [List.forall_mem_cons, List.forall_mem_append]
    constructor
    · rintro ⟨_, hmid, hrest⟩
      have hagreeing := hpromoted.mp fun mid hmid' => hmid mid (Option.mem_toList.mpr hmid')
      exact ⟨hagreeing, (ih hnext (hthen hagreeing)).mp hrest⟩
    · rintro ⟨hagreeing, halong⟩
      refine ⟨(h.orderFree_iff hseeds).mpr hagree, fun mid hmid => ?_,
        (ih hnext (hthen hagreeing)).mpr halong⟩
      exact hpromoted.mpr hagreeing mid (Option.mem_toList.mp hmid)

/-- The seed rules agree with each other: no context that they leave matches one. -/
theorem seeds_tiesAgree (seeds : List RuleRow) : TiesAgree seeds seeds :=
  fun _ hunseeded row hrow _ _ rule _ happlies _ => absurd happlies (hunseeded row hrow rule)

end Runs

/-- From a seeded table and in any run, the order in which rows of equal priority come is without
effect, at every moment, if and only if whatever `promote` makes ACTIVE agrees with the rules it
then shares a context with. -/
theorem routing_order_free_iff (D : PaymentDistiller σ) (now : String → String) (env : σ)
    (state : DistillerState) (ops : List DistillerOp) :
    (∀ m ∈ D.moments ops ⟨(seed paymentRuleSchema now []).2, env, state⟩, OrderFree m.rows) ↔
      Run.Along D.runOp (PromotesAgreeing D (seed paymentRuleSchema now []).2) ops
        ⟨(seed paymentRuleSchema now []).2, env, state⟩ :=
  moments_orderFree_iff (seed_seeded now) ops (seed_grown now) (seeds_tiesAgree _)

/-- A proposer that first repeats the suggestion and then answers with a broader rule. -/
def Sample.broadening : PaymentDistiller Nat where
  schema := paymentRuleSchema
  proposer := fun _ asked => (.ok (match asked with
    | 0 => Sample.proposal "failure_reason" "eq" (.str "expired_card") "send_payment_link" []
    | _ => Sample.proposal "amount_inr" "lt" (.int 2000) "wait_and_retry"
      [("delay_hours", .int 24)]), asked + 1)
  proposerModel := "none"
  settings := Sample.distiller.settings
  promotion := Sample.distiller.promotion
  demotion := Sample.distiller.demotion
  prompt := Sample.distiller.prompt
  sqrt := Sample.sqrt
  now := fun asked => ("2026-01-01T00:00:00+00:00", asked)
  floatOfText := Sample.distiller.floatOfText
  intOfText := Sample.distiller.intOfText

/-- Enough cases of two reasons to distill a rule for each, and enough more to promote both. -/
def Sample.twoReasons : List DistillerOp :=
  List.replicate 15 (Sample.handledOnce true "expired_card" 5000 "send_payment_link") ++
  List.replicate 15 (Sample.handledOnce true "processing_error" 500 "wait_and_retry") ++ [.distill] ++
  List.replicate 30 (Sample.handledOnce true "expired_card" 5000 "send_payment_link") ++
  List.replicate 30 (Sample.handledOnce true "processing_error" 500 "wait_and_retry") ++ [.promote]

/-- The table after them. -/
def Sample.conflicting : List RuleRow :=
  (Run.exec Sample.broadening.runOp Sample.twoReasons
    ⟨(seed paymentRuleSchema (fun _ => "2026-01-01T00:00:00+00:00") []).2, 0, {}⟩).rows

/-- Its ACTIVE rows, the two distilled ones the other way round. -/
def Sample.swapped : List RuleRow :=
  (rowsOf .active Sample.conflicting).take 2 ++ ((rowsOf .active Sample.conflicting).drop 2).reverse

theorem Sample.swapped_returned : Returned .active Sample.conflicting Sample.swapped := by
  refine ⟨?_, by decide +kernel⟩
  refine ((List.reverse_perm _).append_left _).trans ?_
  rw [List.take_append_drop]
  exact (returned_rowsOf .active Sample.conflicting).perm

/-- An expired card and a small amount: whichever rule comes first decides. -/
theorem routing_order_dependent : ¬ OrderFree Sample.conflicting := by
  intro hfree
  obtain ⟨decision, decision', hroute, hroute', haction⟩ := hfree.action
    [("failure_reason", .str "expired_card"), ("amount_inr", .int 500)] _ _
    (returned_rowsOf .active Sample.conflicting) Sample.swapped_returned
  have hlink : ((route (rowsOf .active Sample.conflicting)
      [("failure_reason", .str "expired_card"), ("amount_inr", .int 500)]).toOption.map
        RoutingDecision.action) = some (some "send_payment_link") := by decide +kernel
  have hwait : ((route Sample.swapped
      [("failure_reason", .str "expired_card"), ("amount_inr", .int 500)]).toOption.map
        RoutingDecision.action) = some (some "wait_and_retry") := by decide +kernel
  rw [hroute] at hlink
  rw [hroute'] at hwait
  injection hlink with hlink
  injection hwait with hwait
  rw [hlink, hwait] at haction
  injection haction with haction
  exact absurd haction (by decide)

end PaymentRecovery.Recovery

import PaymentRecovery.Evals.Harness
import PaymentRecovery.Recovery.SeedRules

/-!
# What a promotion rests on

The statistics of a rule are kept by key, over all cases any loaded version of
it matches, whoever handled them. They are the evidence for one version exactly
where no other version of the key and no other path gets in between.
-/

namespace PaymentRecovery.Evals

open PaymentRecovery.Python PaymentRecovery.Lib PaymentRecovery.Lib.Table PaymentRecovery.Rules
open PaymentRecovery.Recovery PaymentRecovery.Distill Program

variable {σ : Type}

/-! ## The evidence for one version -/

/-- The case, if it counts for the version: it is in SHADOW, its precondition matches, and the
agent handles the case. -/
def seen (schema : Schema) (id : String × Int) (rows : List RuleRow) (case : SyntheticCase) :
    Option (Option String × Bool) :=
  match process rows case with
  | .error _ => none
  | .ok record =>
    if record.path = .llm ∧ rows.any (fun row => ruleId row = id ∧
        row.status = RuleStatus.shadow.value ∧
        (acceptedRule schema row).any fun rule => evaluate rule case.observableContext) then
      some (record.action, record.recovered)
    else none

/-- The cases of a stream that count for the version, each once. -/
def evidence (D : PaymentDistiller σ) (id : String × Int) :
    List SyntheticCase → DistillerWorld σ → List (Option String × Bool)
  | [], _ => []
  | case :: rest, w =>
    (seen D.schema id w.rows case).toList ++ evidence D id rest ((runCase D case).run w).2

theorem evidence_gathered (D : PaymentDistiller σ) (id : String × Int)
    (cases : List SyntheticCase) (w : DistillerWorld σ) : evidence D id cases w =
      gathered D (fun rows case => (seen D.schema id rows case).toList) cases w := by
  induction cases generalizing w with
  | nil => rfl
  | cons case rest ih => rw [evidence, gathered, ih]

/-- Whenever a SHADOW version could be observed, the case is the agent's and no other version of
its key is looked at and matches; and a rule is only created under a key without statistics. -/
structure Undisturbed (D : PaymentDistiller σ) (w : DistillerWorld σ) (case : SyntheticCase) :
    Prop where
  observed : ∀ record ls, process w.rows case = .ok record → record.path ≠ .control →
    D.distilledRules [.shadow, .active] w.rows = .ok ls →
    ∀ s ∈ ls, s.status = RuleStatus.shadow.value → ∀ l ∈ ls, l.ruleKey = s.ruleKey →
      evaluate l.rule case.observableContext = true →
      record.path = .llm ∧ l.version = s.version
  created : ∀ due before, (beforePromote D case).run w = (.ok due, before) →
    ∀ row ∈ before.rows, ruleId row ∉ w.rows.map ruleId →
      before.state.shadow.get? row.ruleKey = none

/-- The condition speaks of what three calls return. -/
theorem undisturbed_iff {D : PaymentDistiller σ} {w : DistillerWorld σ} {case : SyntheticCase} :
    Undisturbed D w case ↔
      (∀ record ∈ (process w.rows case).toOption, record.path ≠ .control →
        ∀ ls ∈ (D.distilledRules [.shadow, .active] w.rows).toOption,
        ∀ s ∈ ls, s.status = RuleStatus.shadow.value → ∀ l ∈ ls, l.ruleKey = s.ruleKey →
          evaluate l.rule case.observableContext = true →
          record.path = .llm ∧ l.version = s.version) ∧
      ∀ _due ∈ ((beforePromote D case).run w).1.toOption,
        ∀ row ∈ ((beforePromote D case).run w).2.rows, ruleId row ∉ w.rows.map ruleId →
          (((beforePromote D case).run w).2.state.shadow.get? row.ruleKey).isNone = true := by
  refine ⟨fun h => ⟨fun record hrecord hpath ls hls => ?_, fun due hdue => ?_⟩,
    fun h => ⟨fun record ls hrecord hpath hls => ?_, fun due before hrun => ?_⟩⟩
  · exact h.observed record ls (mem_toOption.mp hrecord) hpath (mem_toOption.mp hls)
  · exact fun row hrow hnew => Option.isNone_iff_eq_none.mpr
      (h.created due _ (Prod.ext (mem_toOption.mp hdue) rfl) row hrow hnew)
  · exact h.1 record (mem_toOption.mpr hrecord) hpath ls (mem_toOption.mpr hls)
  · have hcreated := h.2 due (mem_toOption.mpr (congrArg Prod.fst hrun))
    rw [hrun] at hcreated
    exact fun row hrow hnew => Option.isNone_iff_eq_none.mp (hcreated row hrow hnew)

instance (D : PaymentDistiller σ) (w : DistillerWorld σ) (case : SyntheticCase) :
    Decidable (Undisturbed D w case) :=
  @decidable_of_iff' _ _ undisturbed_iff (@instDecidableAnd _ _ inferInstance inferInstance)

/-! ## The statistics of one key -/

section Watch

variable {D : PaymentDistiller σ} {context : List (String × PyVal)} {action : Option String}
  {recovered : Bool} {w w' : DistillerWorld σ}

/-- The rule is of that key and matches. -/
def hits (key : String) (context : List (String × PyVal)) (l : LoadedRule) : Bool :=
  l.ruleKey = key && evaluate l.rule context

/-- The statistics kept under a key. -/
def statsOf (w : DistillerWorld σ) (key : String) : ShadowStats :=
  (w.state.shadow.get? key).getD {}

/-- One loaded rule counts the case under its key if it matches. -/
theorem watched_stats (state : DistillerState) (l : LoadedRule) (key : String) :
    ((D.watched context action recovered state l).shadow.get? key).getD {} =
      if hits key context l then
        ((state.shadow.get? key).getD {}).record (some l.rule.action.name = action) recovered
      else (state.shadow.get? key).getD {} := by
  unfold PaymentDistiller.watched hits
  by_cases hmatch : evaluate l.rule context = true
  · rw [if_pos hmatch, hmatch, Bool.and_true]
    -- pushing a window leaves the statistics alone
    have hshadow : ∀ s : DistillerState, (if l.status = RuleStatus.active.value then
        s.pushed D.demotion.minRecent.toNat l.ruleKey recovered else s).shadow = s.shadow := by
      intro s
      split <;> rfl
    dsimp only
    rw [hshadow]
    show ((state.shadow.set l.ruleKey _).get? key).getD {} = _
    rw [Dict.get?_set]
    by_cases hkey : l.ruleKey = key
    · rw [if_pos hkey.symm, if_pos (decide_eq_true hkey), ← hkey]
      rfl
    · rw [if_neg (Ne.symm hkey), if_neg (by simpa using hkey)]
  · rw [if_neg hmatch, if_neg (by simp [hmatch])]

/-- The loop counts it once for every rule of the key that matches. -/
theorem foldl_watched_stats (ls : List LoadedRule) (state : DistillerState) (key : String) :
    ((ls.foldl (D.watched context action recovered) state).shadow.get? key).getD {} =
      (ls.filter (hits key context)).foldl
        (fun stats l => stats.record (some l.rule.action.name = action) recovered)
        ((state.shadow.get? key).getD {}) := by
  induction ls generalizing state with
  | nil => rfl
  | cons l rest ih =>
    rw [List.foldl_cons, ih, watched_stats]
    by_cases hhit : hits key context l = true
    · rw [if_pos hhit, List.filter_cons_of_pos hhit]
      rfl
    · rw [if_neg hhit, List.filter_cons_of_neg hhit]

/-- Observing a case: the pool aside, the loop over the rules loaded from the same table. -/
theorem observe_stats {fromAgent : Bool} {sourceId : String}
    (h : (D.observe context action recovered fromAgent sourceId).run w = (.ok (), w')) :
    ∃ ls, D.distilledRules [.shadow, .active] w.rows = .ok ls ∧
      ∀ key, statsOf w' key = (ls.filter (hits key context)).foldl
        (fun stats l => stats.record (some l.rule.action.name = action) recovered)
        (statsOf w key) := by
  obtain ⟨features, ls, hls, rfl, _⟩ := observe_run h
  refine ⟨ls, hls, fun key => ?_⟩
  unfold statsOf
  dsimp only
  rw [foldl_watched_stats]
  congr 1
  -- the pool is not the statistics
  unfold DistillerState.pooled
  split <;> rfl

end Watch

/-! ## Statistics and evidence along a stream -/

section Stream

variable {D : PaymentDistiller σ} {w v : DistillerWorld σ} {case : SyntheticCase}
  {ev : String × Int → List (Option String × Bool)}

/-- Of the rules looked at, only `s` itself hits its key. -/
theorem filter_hits {ls : List LoadedRule} {s : LoadedRule} {context : List (String × PyVal)}
    (hnodup : (ls.map LoadedRule.id).Nodup) (hs : s ∈ ls)
    (halone : ∀ l ∈ ls, l.ruleKey = s.ruleKey → evaluate l.rule context = true →
      l.version = s.version) :
    ls.filter (hits s.ruleKey context) = if evaluate s.rule context then [s] else [] := by
  have hself : ∀ l ∈ ls, l.id = s.id → l = s := fun l hl hid =>
    List.inj_on_of_nodup_map hnodup hl hs hid
  by_cases hmatch : evaluate s.rule context = true
  · rw [if_pos hmatch, ← filter_of_mem hnodup hs]
    refine List.filter_congr fun l hl => ?_
    rw [Bool.eq_iff_iff, decide_eq_true_iff, hits, Bool.and_eq_true, decide_eq_true_iff]
    refine ⟨fun ⟨hkey, hl'⟩ => Prod.ext hkey (halone l hl hkey hl'), fun hid => ?_⟩
    rw [hself l hl hid]
    exact ⟨rfl, hmatch⟩
  · rw [if_neg hmatch, List.filter_eq_nil_iff]
    intro l hl hhit
    rw [hits, Bool.and_eq_true, decide_eq_true_iff] at hhit
    have hid : l.id = s.id := Prod.ext hhit.1 (halone l hl hhit.1 hhit.2)
    exact hmatch (hself l hl hid ▸ hhit.2)

/-- For the version a row holds: the case counts if the agent handled it and the rule matches. -/
theorem seen_of_row {schema : Schema} {rows : List RuleRow} {row : RuleRow} {rule : Rule}
    {record : Record} (hunique : UniqueRules rows) (hrow : row ∈ rows)
    (hshadow : row.status = RuleStatus.shadow.value) (hrule : acceptedRule schema row = some rule)
    (hrecord : process rows case = .ok record) :
    seen schema (ruleId row) rows case =
      if record.path = .llm ∧ evaluate rule case.observableContext = true then
        some (record.action, record.recovered)
      else none := by
  unfold seen
  rw [hrecord]
  dsimp only
  congr 1
  refine propext (and_congr_right fun _ => ?_)
  rw [List.any_eq_true]
  refine ⟨?_, fun hmatch => ⟨row, hrow, ?_⟩⟩
  · rintro ⟨other, hother, hsame⟩
    rw [decide_eq_true_iff] at hsame
    obtain ⟨hid, _, hany⟩ := hsame
    rw [List.inj_on_of_nodup_map hunique hother hrow hid, hrule] at hany
    exact hany
  · rw [decide_eq_true_iff, hrule]
    exact ⟨rfl, hshadow, hmatch⟩

/-- A version that is not in the table is not observed. -/
theorem seen_of_not_mem {schema : Schema} {rows : List RuleRow} {id : String × Int}
    (h : id ∉ rows.map ruleId) : seen schema id rows case = none := by
  unfold seen
  split
  · rfl
  · rw [if_neg]
    rintro ⟨_, hany⟩
    obtain ⟨row, hrow, hsame⟩ := List.any_eq_true.mp hany
    exact h (List.mem_map.mpr ⟨row, hrow, (of_decide_eq_true hsame).1⟩)

/-- The statistics of every version in SHADOW are the tally of the evidence for it. -/
structure Tallied (D : PaymentDistiller σ) (ev : String × Int → List (Option String × Bool))
    (w : DistillerWorld σ) : Prop where
  unique : UniqueRules w.rows
  unseen : ∀ id, id ∉ w.rows.map ruleId → ev id = []
  stats : ∀ row ∈ w.rows, row.status = RuleStatus.shadow.value →
    ∀ rule, DistilledRow D.schema row rule →
      statsOf w row.ruleKey = tally rule.action.name (ev (ruleId row))

/-- Handling a case adds it to the evidence and to the statistics alike. -/
theorem Tallied.handled (h : Tallied D ev w) (hundisturbed : Undisturbed D w case)
    (hrun : (handleCase D case).run w = (.ok (), v)) :
    Tallied D (fun id => ev id ++ (seen D.schema id w.rows case).toList) v := by
  obtain ⟨record, hrecord, hrows, ⟨hcontrol, rfl⟩ | ⟨hcontrol, hrun⟩⟩ := handleCase_run hrun
  · have hnone : ∀ id, seen D.schema id v.rows case = none := by
      intro id
      unfold seen
      rw [hrecord]
      dsimp only
      rw [hcontrol, if_neg (fun h => by cases h.1)]
    simp only [hnone, Option.toList_none, List.append_nil]
    exact h
  · obtain ⟨ls, hls, hstats⟩ := observe_stats hrun
    refine ⟨hrows ▸ h.unique, fun id hid => ?_, fun row hrow hshadow rule hdistilled => ?_⟩
    · rw [hrows] at hid
      rw [h.unseen id hid, seen_of_not_mem hid]
      rfl
    · rw [hrows] at hrow
      obtain ⟨s, hs, hfrom⟩ := distilled_of_row hls hrow List.mem_cons_self hshadow hdistilled
      have hrule : s.rule = rule := by
        have hsome := hfrom.rule
        rw [hdistilled.rule] at hsome
        exact (Option.some.inj hsome).symm
      have halone := hundisturbed.observed record ls hrecord hcontrol hls s hs
        (hfrom.status.trans hshadow)
      rw [← hfrom.ruleKey, hstats s.ruleKey, filter_hits (distilledRules_nodup h.unique (by decide)
        hls) hs fun l hl hkey hl' => (halone l hl hkey hl').2, hfrom.ruleKey,
        h.stats row hrow hshadow rule hdistilled,
        seen_of_row h.unique hrow hshadow hdistilled.rule hrecord, hrule]
      by_cases hmatch : evaluate rule case.observableContext = true
      · -- the case is the agent's, since the version is in SHADOW
        have hllm := (halone s hs rfl (hrule ▸ hmatch)).1
        rw [if_pos hmatch, if_pos ⟨hllm, hmatch⟩]
        show ShadowStats.record _ (some s.rule.action.name = record.action) record.recovered = _
        rw [hrule]
        exact (tally_snoc _ _ _ _).symm
      · rw [if_neg hmatch, if_neg fun hboth => hmatch hboth.2]
        simp

/-- Distilling adds versions that were never observed, under keys without statistics. -/
theorem Tallied.created (h : Tallied D ev w) (hcreates : Creates w v)
    (hnew : ∀ row ∈ v.rows, ruleId row ∉ w.rows.map ruleId →
      v.state.shadow.get? row.ruleKey = none) : Tallied D ev v := by
  obtain ⟨added, hadded, hstatus⟩ := hcreates.rows
  have hstats : ∀ key, statsOf v key = statsOf w key := by
    intro key
    unfold statsOf
    rw [hcreates.shadow]
  refine ⟨hcreates.unique h.unique, fun id hid => h.unseen id fun hold => hid ?_,
    fun row hrow hshadow rule hdistilled => ?_⟩
  · rw [hadded, List.map_append]
    exact List.mem_append_left _ hold
  · by_cases hold : ruleId row ∈ w.rows.map ruleId
    · obtain ⟨old, hmem, hid⟩ := List.mem_map.mp hold
      have hsame : old = row := by
        refine List.inj_on_of_nodup_map (hcreates.unique h.unique) ?_ hrow hid
        rw [hadded]
        exact List.mem_append_left _ hmem
      rw [hstats]
      exact h.stats row (hsame ▸ hmem) hshadow rule hdistilled
    · have hnone := hnew row hrow hold
      rw [h.unseen _ hold, tally_nil]
      unfold statsOf
      rw [hnone]
      rfl

/-- Moving rows out of SHADOW keeps the others as they are. -/
theorem Tallied.shifted {allowed : Dict String ShadowStats → String × Int → RuleStatus → Prop}
    (h : Tallied D ev w) (hshifts : Shifts allowed w v)
    (hleave : ∀ stats id status, allowed stats id status → status ≠ .shadow) : Tallied D ev v := by
  refine ⟨hshifts.rows.unique h.unique, fun id hid => h.unseen id ?_,
    fun row hrow hshadow rule hdistilled => ?_⟩
  · rwa [hshifts.rows.ids] at hid
  · obtain ⟨old, hold, hmoved⟩ := hshifts.rows.origin hrow
    rcases hmoved with rfl | ⟨status, provenance, hallowed, rfl⟩
    · have hstats : statsOf v row.ruleKey = statsOf w row.ruleKey := by
        unfold statsOf
        rw [hshifts.shadow]
      rw [hstats]
      exact h.stats row hold hshadow rule hdistilled
    · exact absurd (RuleStatus.value_injective hshadow) (hleave _ _ _ hallowed)

/-- One turn as far as `promote`. -/
theorem Tallied.before {due : Bool} {before : DistillerWorld σ} (h : Tallied D ev w)
    (hundisturbed : Undisturbed D w case)
    (hrun : (beforePromote D case).run w = (.ok due, before)) :
    Tallied D (fun id => ev id ++ (seen D.schema id w.rows case).toList) before := by
  have hcreated := hundisturbed.created due before hrun
  unfold beforePromote at hrun
  obtain ⟨_, w₁, hhandle, hdue⟩ := run_bind_ok hrun
  have hcreates := dueToPromote_creates (D := D) (case.index + 1) w₁
  rw [hdue] at hcreates
  have hrows : w₁.rows = w.rows := by
    have hsame := handleCase_keepsRules D case w
    rw [hhandle] at hsame
    exact hsame
  refine (h.handled hundisturbed hhandle).created hcreates ?_
  rw [hrows]
  exact hcreated

/-- One whole turn. -/
theorem Tallied.turn (h : Tallied D ev w) (hundisturbed : Undisturbed D w case)
    (hrun : (runCase D case).run w = (.ok (), v)) :
    Tallied D (fun id => ev id ++ (seen D.schema id w.rows case).toList) v := by
  rw [runCase_run] at hrun
  split at hrun
  · rename_i before hbefore
    obtain ⟨_, w₁, hpromote, hdemote⟩ := run_bind_ok hrun
    obtain ⟨ls, _, hshifts⟩ := promote_shifts D before
    rw [hpromote] at hshifts
    have hshifts' := demote_shifts D w₁
    rw [hdemote] at hshifts'
    refine ((h.before hundisturbed hbefore).shifted hshifts ?_).shifted hshifts' ?_
    · rintro stats id status ⟨rfl, _⟩ heq
      cases heq
    · rintro stats id status hallowed heq
      rw [hallowed] at heq
      cases heq
  · rename_i w₁ hbefore
    injection hrun with _ hv
    exact hv ▸ h.before hundisturbed hbefore
  · injection hrun with hrun
    cases hrun

/-- Whole streams. -/
theorem Tallied.stream {cases : List SyntheticCase} (h : Tallied D ev w)
    (hundisturbed : Run.Along (fun case => (runCase D case).run) (Undisturbed D) cases w)
    (hrun : (runEvalDistilled D cases).run w = (.ok (), v)) :
    Tallied D (fun id => ev id ++ evidence D id cases w) v := by
  simp only [evidence_gathered]
  exact gathered_stream (fun ev w v case h hhere hrun => h.turn hhere hrun) h hundisturbed hrun

/-- The last case of a stream is observed in the world the others leave. -/
theorem evidence_snoc {cases : List SyntheticCase} (id : String × Int)
    (hrun : (runEvalDistilled D cases).run w = (.ok (), v)) :
    evidence D id (cases ++ [case]) w =
      evidence D id cases w ++ (seen D.schema id v.rows case).toList := by
  rw [evidence_gathered, evidence_gathered]
  exact gathered_snoc _ hrun

end Stream

/-- **Promotion soundness.** Over every stream on which no version in SHADOW is disturbed, from
every rule store and a new distiller: what `promote` makes ACTIVE has the support, the
agreement and the recovery among the agent's own cases that its precondition matched while
it was in SHADOW. -/
theorem promotion_supported (D : PaymentDistiller σ) (w v before : DistillerWorld σ)
    (cases : List SyntheticCase) (case : SyntheticCase) (row : RuleRow) (rule : Rule)
    (hunique : UniqueRules w.rows) (hnew : w.state.shadow = .empty)
    (hrun : (runEvalDistilled D cases).run w = (.ok (), v))
    (hundisturbed : Run.Along (fun case => (runCase D case).run) (Undisturbed D) cases w)
    (hlast : Undisturbed D v case)
    (hcall : (beforePromote D case).run v = (.ok true, before))
    (hpromotes : D.Promotes before row) (hrule : acceptedRule D.schema row = some rule) :
    Supported D.sqrt D.promotion
      (tally rule.action.name (evidence D (ruleId row) (cases ++ [case]) w)) := by
  have hstart : Tallied D (fun _ => []) w := by
    refine ⟨hunique, fun _ _ => rfl, fun row _ _ rule _ => ?_⟩
    unfold statsOf
    rw [hnew]
    rfl
  have hbefore := (hstart.stream hundisturbed hrun).before hlast hcall
  obtain ⟨l, stats, hfrom, hdistilled, hpasses⟩ := hpromotes.gate hbefore.unique
  have hsame : l.rule = rule := by
    have h := hfrom.rule
    rw [hrule] at h
    exact (Option.some.inj h).symm
  have hstats : stats = tally rule.action.name (evidence D (ruleId row) (cases ++ [case]) w) := by
    have h := hbefore.stats row hpromotes.mem hpromotes.shadow rule (hsame ▸ hdistilled)
    unfold statsOf at h
    rw [← hfrom.ruleKey, hpasses.seen] at h
    rw [evidence_snoc _ hrun]
    exact h
  rw [← hstats]
  exact qualifiesForPromotion_iff.mp hpasses.qualifies

/-! ## Two streams -/

/-- A rule for amounts below 2000. -/
def Sample.linkRow (ruleKey status origin : String) : RuleRow :=
  ⟨ruleKey, 1, status, 50,
    .doc (.obj [("precondition", .obj [("all", .arr [.obj
        [("field", .str "amount_inr"), ("op", .str "lt"), ("value", .int 2000)]])]),
      ("action", .obj [("name", .str "send_payment_link")])]),
    .doc (.obj [("origin", .str origin)])⟩

/-- A case the agent would resolve with a link. -/
def Sample.case (index : Nat) : SyntheticCase :=
  ⟨index, "pay_" ++ toString index, 500, "network_error", "card", 3, 1, 5, 1, false,
    .ok (some "send_payment_link"), fun _ => true⟩

def Sample.store (rows : List RuleRow) : DistillerWorld Unit := ⟨rows, (), {}⟩

/-- The row `promote` meets, up to what tells versions and rules apart. -/
def Sample.met (row : RuleRow) : (String × Int) × String × Option String :=
  (ruleId row, row.status, (acceptedRule paymentRuleSchema row).map (·.action.name))

/-- From a look at the tables before and after `promote`. -/
theorem Sample.promotes (D : PaymentDistiller Unit) (before : DistillerWorld Unit)
    (id : String × Int) (action : String) (hschema : D.schema = paymentRuleSchema)
    (hbefore : (id, "shadow", some action) ∈ before.rows.map Sample.met)
    (hafter : (id, "active") ∈ (D.promote.run before).2.rows.map fun row => (ruleId row, row.status)) :
    ∃ row rule, D.Promotes before row ∧ ruleId row = id ∧ acceptedRule D.schema row = some rule ∧
      rule.action.name = action := by
  obtain ⟨row, hrow, hmet⟩ := List.mem_map.mp hbefore
  obtain ⟨row', hrow', hactive⟩ := List.mem_map.mp hafter
  injection hmet with hid hmet
  injection hmet with hstatus haction
  injection hactive with hid' hstatus'
  obtain ⟨rule, hrule, hname⟩ := Option.map_eq_some_iff.mp haction
  exact ⟨row, rule, ⟨hrow, hstatus, row', hrow', hid'.trans hid.symm, hstatus'⟩, hid,
    hschema ▸ hrule, hname⟩

/-- A distiller that is always proposed a link after processing errors. -/
def Sample.learning : PaymentDistiller Unit :=
  { Recovery.Sample.distiller with
    proposer := fun _ env => (.ok (Recovery.Sample.proposal "failure_reason" "eq"
      (.str "processing_error") "send_payment_link" []), env) }

/-- A seed rule for invalid details, and nothing distilled yet. -/
def Sample.seeded : DistillerWorld Unit :=
  Sample.store [seedRow "seed-invalid-details-resend-link" 20 "invalid_details"
    "send_payment_link" "2026-01-01T00:00:00+00:00"]

/-- Every fifth case has invalid details. Of the others, that are the agent's, one in forty is
answered otherwise and one in ten does not recover. -/
def Sample.mixed (index : Nat) : SyntheticCase :=
  { Sample.case index with
    failureReason := if index % 5 = 4 then "invalid_details" else "processing_error"
    agentAction := .ok (some (if index % 40 = 7 then "wait_and_retry" else "send_payment_link"))
    recovered := fun _ => index % 10 ≠ 3 }

/-- The worlds after 74 cases, and as `promote` meets the next. -/
def Sample.taught : DistillerWorld Unit :=
  Recovery.Sample.left (runEvalDistilled Sample.learning ((List.range 74).map Sample.mixed))
    Sample.seeded

def Sample.gated : DistillerWorld Unit :=
  Recovery.Sample.left (beforePromote Sample.learning (Sample.mixed 74)) Sample.taught

/-- The stream returns undisturbed, and its last case comes to `promote`. -/
theorem Sample.learns :
    ((runEvalDistilled Sample.learning ((List.range 74).map Sample.mixed)).run
      Sample.seeded).1.toOption = some () ∧
    Run.Along (fun case => (runCase Sample.learning case).run) (Undisturbed Sample.learning)
      ((List.range 74).map Sample.mixed) Sample.seeded ∧
    Undisturbed Sample.learning Sample.taught (Sample.mixed 74) ∧
    ((beforePromote Sample.learning (Sample.mixed 74)).run Sample.taught).1.toOption = some true ∧
    (("distilled:failure_reason=processing_error", 1), "shadow", some "send_payment_link") ∈
      Sample.gated.rows.map Sample.met ∧
    (("distilled:failure_reason=processing_error", 1), "active") ∈
      (Sample.learning.promote.run Sample.gated).2.rows.map fun row => (ruleId row, row.status) := by
  decide +kernel

/-- The rule is created at the 25th case, has 20 cases at the 50th and goes ACTIVE at the 75th,
beside the seed rule. -/
theorem promotion_supported_sample :
    Supported Recovery.Sample.sqrt Sample.learning.promotion (tally "send_payment_link"
      (evidence Sample.learning ("distilled:failure_reason=processing_error", 1)
        ((List.range 74).map Sample.mixed ++ [Sample.mixed 74]) Sample.seeded)) := by
  obtain ⟨hrun, hundisturbed, hlast, hcall, hbefore, hafter⟩ := Sample.learns
  obtain ⟨row, rule, hpromotes, hid, hrule, haction⟩ := Sample.promotes Sample.learning
    Sample.gated ("distilled:failure_reason=processing_error", 1) "send_payment_link" rfl
    hbefore hafter
  have h := promotion_supported Sample.learning Sample.seeded Sample.taught Sample.gated
    ((List.range 74).map Sample.mixed) (Sample.mixed 74) row rule (List.nodup_singleton _) rfl
    (Recovery.Sample.returned_left hrun) hundisturbed hlast (Recovery.Sample.returned_left hcall)
    hpromotes hrule
  rw [hid, haction] at h
  exact h

/-- The same rule beside an ACTIVE seed rule for the same cases. -/
def Sample.shadowed : DistillerWorld Unit :=
  Sample.store [Sample.linkRow "seed:small_amounts" "active" "seed",
    Sample.linkRow "distilled:failure_reason=network_error" "shadow" "distilled"]

/-- Fifty cases, all of them resolved by the seed rule: the rule in SHADOW is promoted although
the agent has handled none. -/
theorem promoted_without_evidence :
    UniqueRules Sample.shadowed.rows ∧
    ∃ v before row rule,
      (runEvalDistilled Recovery.Sample.distiller ((List.range 49).map Sample.case)).run
        Sample.shadowed = (.ok (), v) ∧
      (beforePromote Recovery.Sample.distiller (Sample.case 49)).run v = (.ok true, before) ∧
      Recovery.Sample.distiller.Promotes before row ∧
      acceptedRule paymentRuleSchema row = some rule ∧
      ¬ Supported Recovery.Sample.sqrt Recovery.Sample.distiller.promotion (tally rule.action.name
        (evidence Recovery.Sample.distiller (ruleId row)
          ((List.range 49).map Sample.case ++ [Sample.case 49]) Sample.shadowed)) := by
  have hrun := Recovery.Sample.returned
    (p := runEvalDistilled Recovery.Sample.distiller ((List.range 49).map Sample.case))
    (w := Sample.shadowed) (a := ()) (by decide +kernel)
  have hcall := Recovery.Sample.returned
    (p := beforePromote Recovery.Sample.distiller (Sample.case 49))
    (w := ((runEvalDistilled Recovery.Sample.distiller ((List.range 49).map Sample.case)).run
      Sample.shadowed).2) (a := true) (by decide +kernel)
  obtain ⟨row, rule, hpromotes, hid, hrule, _⟩ := Sample.promotes Recovery.Sample.distiller
    ((beforePromote Recovery.Sample.distiller (Sample.case 49)).run
      ((runEvalDistilled Recovery.Sample.distiller ((List.range 49).map Sample.case)).run
        Sample.shadowed).2).2
    ("distilled:failure_reason=network_error", 1) "send_payment_link" rfl
    (by decide +kernel) (by decide +kernel)
  refine ⟨by unfold UniqueRules; decide +kernel, _, _, row, rule, hrun, hcall, hpromotes, hrule,
    fun hsupported => ?_⟩
  have hnone : (evidence Recovery.Sample.distiller ("distilled:failure_reason=network_error", 1)
      ((List.range 49).map Sample.case ++ [Sample.case 49]) Sample.shadowed).length = 0 := by
    decide +kernel
  have hsupport := hsupported.support
  rw [hid] at hsupport
  unfold tally at hsupport
  dsimp only at hsupport
  rw [hnone] at hsupport
  exact absurd hsupport (by decide)

end PaymentRecovery.Evals

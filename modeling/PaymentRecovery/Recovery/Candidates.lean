import PaymentRecovery.Distill.Clusters
import PaymentRecovery.Recovery.Preconditions

/-!
# Candidates without an order

The distiller clusters its pool twice, by reason and, where a reason has no candidate,
by reason and amount band. Which candidates come out is a statement about the
observations that project onto a key: the order of arrival does not enter it.
-/

namespace PaymentRecovery.Recovery

open PaymentRecovery.Python PaymentRecovery.Lib PaymentRecovery.Rules PaymentRecovery.Distill
open PaymentRecovery.Agent Program

/-! ## What a candidate is -/

/-- These observations are many, agree on the action and recover. -/
structure Warrants (members : List Observation) (action : String) : Prop where
  support : minClusterSupport ≤ members.length
  agreement : minClusterAgreement ≤ actionShare members action
  recovery : reasonRecoveryHint ≤ recoveryShare members

/-- The observations that project onto the features of the key. -/
def membersOf (pool : List Observation) (key : Situation) : List Observation :=
  group pool (key.map Prod.fst) key

/-- The group of a key of this reason warrants the action. With a band, the group of the reason
is large enough and warrants none. -/
def YieldsFor (pool : List Observation) (reason : String) (key : Situation) (action : String) :
    Prop :=
  ∃ band, key = keyOf reason band ∧ Warrants (membersOf pool key) action ∧
    ∀ b, band = some b → minClusterSupport ≤ (membersOf pool (keyOf reason none)).length ∧
      ∀ other, ¬ Warrants (membersOf pool (keyOf reason none)) other

def Yields (pool : List Observation) (key : Situation) (action : String) : Prop :=
  ∃ reason, YieldsFor pool reason key action

theorem membersOf_perm {pool pool' : List Observation} (h : pool.Perm pool') (key : Situation) :
    (membersOf pool key).Perm (membersOf pool' key) :=
  group_perm h _ key

theorem warrants_perm {members members' : List Observation} (h : members.Perm members')
    (action : String) : Warrants members action ↔ Warrants members' action := by
  have hone : ∀ {members members' : List Observation}, members.Perm members' →
      Warrants members action → Warrants members' action := by
    intro members members' h hw
    exact ⟨h.length_eq ▸ hw.support, actionShare_perm h action ▸ hw.agreement,
      recoveryShare_perm h ▸ hw.recovery⟩
  exact ⟨hone h, hone h.symm⟩

/-- What is yielded does not depend on the order of arrival. -/
theorem yields_perm {pool pool' : List Observation} (h : pool.Perm pool') (key : Situation)
    (action : String) : Yields pool key action ↔ Yields pool' key action := by
  unfold Yields YieldsFor
  simp only [warrants_perm (membersOf_perm h _), (membersOf_perm h _).length_eq]

/-- The agreement threshold is a majority, so only the dominant action is warranted. -/
theorem Warrants.dominant {members : List Observation} {action : String}
    (h : Warrants members action) (key : Situation) :
    (Cluster.ofMembers key members).dominantAction = .ok action ∧
      (Cluster.ofMembers key members).actionAgreement = .ok (actionShare members action) := by
  refine dominantAction_majority key (lt_of_lt_of_le ?_ h.agreement)
  norm_num [minClusterAgreement]

/-- A key with a large enough group occurs. -/
theorem exists_mem_of_support {observations : List Observation} {names : List String}
    {key : Situation} (h : minClusterSupport ≤ (group observations names key).length) :
    ∃ obs ∈ observations, obs.situation.project names = key := by
  have hmembers : group observations names key ≠ [] := by
    intro hnil
    rw [hnil] at h
    exact absurd h (by decide)
  obtain ⟨obs, hobs⟩ := List.exists_mem_of_ne_nil _ hmembers
  obtain ⟨hmem, hkey⟩ := List.mem_filter.mp hobs
  exact ⟨obs, hmem, by simpa using hkey⟩

/-! ## Collecting -/

/-- A loop that appends what each element contributes returns the contributions in order. -/
theorem foldlM_collect {α β ε : Type} {step : List β → α → Except ε (List β)}
    {f : α → List β} :
    ∀ {xs : List α}, (∀ x ∈ xs, ∀ out, step out x = .ok (out ++ f x)) →
      ∀ out, xs.foldlM step out = .ok (out ++ xs.flatMap f) := by
  intro xs
  induction xs with
  | nil =>
    intro _ out
    rw [List.flatMap_nil, List.append_nil]
    rfl
  | cons x rest ih =>
    intro h out
    rw [List.foldlM_cons, h x List.mem_cons_self, List.flatMap_cons, ← List.append_assoc]
    exact ih (fun y hy => h y (List.mem_cons_of_mem _ hy)) _

/-- What a cluster contributes: itself, with the action that its members warrant. -/
structure Contributes (key : Situation) (members : List Observation)
    (out : List (Situation × String × List String)) : Prop where
  warranted : ∀ candidate, candidate ∈ out ↔ candidate.1 = key ∧
    Warrants members candidate.2.1 ∧ candidate.2.2 = members.map Observation.sourceId
  once : (out.map Prod.fst).Nodup

theorem contributes_nil {key : Situation} {members : List Observation}
    (h : ∀ action, ¬ Warrants members action) : Contributes key members [] := by
  refine ⟨fun candidate => ?_, List.nodup_nil⟩
  exact ⟨fun hmem => absurd hmem List.not_mem_nil, fun hmem => absurd hmem.2.1 (h _)⟩

theorem contributes_one (key : Situation) {members : List Observation} {action : String}
    (h : Warrants members action) :
    Contributes key members [(key, action, members.map Observation.sourceId)] := by
  refine ⟨fun ⟨key', other, ids⟩ => ?_, List.nodup_singleton _⟩
  rw [List.mem_singleton]
  constructor
  · intro heq
    injection heq with hkey hrest
    injection hrest with haction hids
    subst hkey haction hids
    exact ⟨rfl, h, rfl⟩
  · rintro ⟨hkey, hother, hids⟩
    dsimp only at hkey hother hids
    have hsame : other = action := by
      have hdominant := (hother.dominant key).1
      rw [(h.dominant key).1] at hdominant
      injection hdominant with hdominant
      exact hdominant.symm
    rw [hkey, hsame, hids]

/-- The three thresholds of a cluster ask whether its members warrant the dominant action. -/
theorem cluster_thresholds (key : Situation) {members : List Observation} (h : members ≠ []) :
    ∃ action, (Cluster.ofMembers key members).dominantAction = .ok action ∧
      (Cluster.ofMembers key members).actionAgreement = .ok (actionShare members action) ∧
      ∀ other, Warrants members other → other = action := by
  obtain ⟨action, hdominant, hagreement, _⟩ := dominantAction_spec key h
  refine ⟨action, hdominant, hagreement, fun other hother => ?_⟩
  have hsame := (hother.dominant key).1
  rw [hdominant] at hsame
  injection hsame with hsame
  exact hsame.symm

/-- The loop of `_refine` at one cluster. -/
def refineStep (out : List (Situation × String × List String)) (cluster : Cluster) :
    Except PyExc (List (Situation × String × List String)) := do
  if minClusterSupport ≤ cluster.support then
    if minClusterAgreement ≤ (← cluster.actionAgreement) then
      if reasonRecoveryHint ≤ cluster.recoveryRate then
        return out ++ [(cluster.key, ← cluster.dominantAction, cluster.sourceIds)]
  return out

theorem consistent_eq (clusters : List Cluster) :
    consistent clusters = clusters.foldlM refineStep [] := rfl

theorem refineStep_contributes (key : Situation) {members : List Observation} (h : members ≠ []) :
    ∃ found, Contributes key members found ∧
      ∀ out, refineStep out (Cluster.ofMembers key members) = .ok (out ++ found) := by
  obtain ⟨action, hdominant, hagreement, honly⟩ := cluster_thresholds key h
  unfold refineStep
  rw [hdominant, hagreement, Cluster.recoveryRate_ofMembers, Cluster.ofMembers_support,
    Cluster.ofMembers_key, Cluster.ofMembers_sourceIds]
  by_cases hw : Warrants members action
  · refine ⟨_, contributes_one key hw, fun out => ?_⟩
    rw [if_pos hw.support]
    show (if minClusterAgreement ≤ actionShare members action then _ else _) = _
    rw [if_pos hw.agreement, if_pos hw.recovery]
    rfl
  · have hnone : ∀ other, ¬ Warrants members other :=
      fun other hother => hw (honly other hother ▸ hother)
    refine ⟨[], contributes_nil hnone, fun out => ?_⟩
    rw [List.append_nil]
    by_cases hsupport : minClusterSupport ≤ members.length
    · rw [if_pos hsupport]
      show (if minClusterAgreement ≤ actionShare members action then _ else _) = _
      by_cases hagree : minClusterAgreement ≤ actionShare members action
      · have hrecovery : ¬ reasonRecoveryHint ≤ recoveryShare members :=
          fun hrecovery => hw ⟨hsupport, hagree, hrecovery⟩
        rw [if_pos hagree, if_neg hrecovery]
        rfl
      · rw [if_neg hagree]
        rfl
    · rw [if_neg hsupport]
      rfl

/-- A loop over the clusters collects what each of them contributes, a key at a time. -/
theorem foldlM_clusters {β : Type} (observations : List Observation) (names : List String)
    (step : List β → Cluster → Except PyExc (List β)) {P : Situation → List β → Prop}
    (h : ∀ key ∈ observations.map (fun obs => obs.situation.project names), ∃ found, P key found ∧
      ∀ out, step out (Cluster.ofMembers key (group observations names key)) = .ok (out ++ found)) :
    ∃ (keys : List Situation) (f : Situation → List β), keys.Nodup ∧
      (∀ key, key ∈ keys ↔ key ∈ observations.map fun obs => obs.situation.project names) ∧
      (∀ key ∈ keys, P key (f key)) ∧
      (clusterObservations observations names).foldlM step [] = .ok (keys.flatMap f) := by
  choose! f hf hstep using h
  have hkeys : ∀ key, key ∈ (clusterObservations observations names).map Cluster.key ↔
      key ∈ observations.map fun obs => obs.situation.project names := by
    intro key
    constructor
    · intro hkey
      obtain ⟨cluster, hcluster, rfl⟩ := List.mem_map.mp hkey
      obtain ⟨key, hkey, rfl⟩ := mem_clusterObservations.mp hcluster
      rwa [Cluster.ofMembers_key]
    · intro hkey
      refine List.mem_map.mpr ⟨_, mem_clusterObservations.mpr ⟨key, hkey, rfl⟩, ?_⟩
      exact Cluster.ofMembers_key key _
  refine ⟨_, f, nodup_clusterObservations observations names, hkeys,
    fun key hkey => hf key ((hkeys key).mp hkey), ?_⟩
  rw [foldlM_collect (f := f ∘ Cluster.key), List.nil_append, List.flatMap_map]
  · rfl
  · intro cluster hcluster out
    obtain ⟨key, hkey, rfl⟩ := mem_clusterObservations.mp hcluster
    rw [hstep key hkey out, Function.comp_apply, Cluster.ofMembers_key]

/-- Contributions that can be told apart by their keys have each key once. -/
theorem nodup_contributions {α β κ : Type} {keys : List κ} (hkeys : keys.Nodup)
    {f : κ → List (α × β)} (honce : ∀ key ∈ keys, ((f key).map Prod.fst).Nodup) (origin : α → κ)
    (horigin : ∀ key ∈ keys, ∀ candidate ∈ f key, origin candidate.1 = key) :
    ((keys.flatMap f).map Prod.fst).Nodup := by
  rw [List.map_flatMap, List.nodup_flatMap]
  refine ⟨honce, hkeys.imp_of_mem fun {key key'} hkey hkey' hne => ?_⟩
  intro a ha ha'
  obtain ⟨candidate, hcandidate, rfl⟩ := List.mem_map.mp ha
  obtain ⟨candidate', hcandidate', heq⟩ := List.mem_map.mp ha'
  have hsame := horigin key' hkey' candidate' hcandidate'
  rw [heq, horigin key hkey candidate hcandidate] at hsame
  exact hne hsame

/-- The clusters that are frequent, agree and recover are the warranted groups. -/
theorem consistent_spec (observations : List Observation) (names : List String) :
    ∃ out, consistent (clusterObservations observations names) = .ok out ∧
      (∀ candidate, candidate ∈ out ↔
        Warrants (group observations names candidate.1) candidate.2.1 ∧
        candidate.2.2 = (group observations names candidate.1).map Observation.sourceId) ∧
      (out.map Prod.fst).Nodup := by
  obtain ⟨keys, f, hnodup, hkeys, hf, hout⟩ := foldlM_clusters observations names refineStep
    (P := fun key found => Contributes key (group observations names key) found)
    fun key hkey => refineStep_contributes key (group_ne_nil hkey)
  refine ⟨_, consistent_eq _ ▸ hout, fun candidate => ?_, ?_⟩
  · rw [List.mem_flatMap]
    constructor
    · rintro ⟨key, hkey, hmem⟩
      obtain ⟨hsame, hw⟩ := ((hf key hkey).warranted candidate).mp hmem
      exact hsame ▸ hw
    · intro h
      obtain ⟨obs, hobs, hproject⟩ := exists_mem_of_support h.1.support
      have hkey : candidate.1 ∈ keys := (hkeys _).mpr (List.mem_map.mpr ⟨obs, hobs, hproject⟩)
      exact ⟨candidate.1, hkey, ((hf _ hkey).warranted candidate).mpr ⟨rfl, h⟩⟩
  · exact nodup_contributions hnodup (fun key hkey => (hf key hkey).once) id
      fun key hkey c hc => (((hf key hkey).warranted c).mp hc).1

/-! ## Observed situations -/

/-- An observation as `observe` builds it. -/
def PaymentDistiller.Observed {σ : Type} (D : PaymentDistiller σ) (obs : Observation) : Prop :=
  ∃ context features, D.situationFeatures context = .ok features ∧
    obs.situation = Situation.fromMapping features

/-- The reason and the amount band that an observation is sorted by. -/
structure SortedBy (obs : Observation) (reason band : String) : Prop where
  byReason : obs.situation.project ["failure_reason"] = keyOf reason none
  byBand : obs.situation.project ["failure_reason", "amount_band"] = keyOf reason (some band)
  known : obs.situation.get? "failure_reason" = some reason

section OnePool

variable {σ : Type} {D : PaymentDistiller σ} {pool : List Observation}

theorem PaymentDistiller.Observed.sorted {obs : Observation} (h : D.Observed obs) :
    ∃ reason band, SortedBy obs reason band := by
  obtain ⟨context, features, hfeatures, hsituation⟩ := h
  unfold PaymentDistiller.situationFeatures at hfeatures
  obtain ⟨amount, _, hfeatures⟩ := bind_ok hfeatures
  obtain ⟨failed, _, hfeatures⟩ := bind_ok hfeatures
  obtain ⟨hours, _, hfeatures⟩ := bind_ok hfeatures
  injection hfeatures with hfeatures
  subst hfeatures
  obtain ⟨hreason, hband⟩ := project_features
    ((contextGet? context "failure_reason").getD (.str "unknown")).text _ _ _ _
  refine ⟨_, _, hsituation ▸ hreason, hsituation ▸ hband, ?_⟩
  rw [hsituation, fromMapping_features]
  rfl

/-- The pool has grown by observations of this kind only. -/
def Pools (D : PaymentDistiller σ) (w w' : DistillerWorld σ) : Prop :=
  ∀ obs ∈ w'.state.pool, obs ∈ w.state.pool ∨ D.Observed obs

instance : Std.Refl (Pools D) := ⟨fun _ _ h => .inl h⟩

instance : IsTrans (DistillerWorld σ) (Pools D) where
  trans _ _ _ h h' := fun obs hobs => (h' obs hobs).elim (h obs) .inr

theorem remember_pools {f : DistillerState → DistillerState} (hf : ∀ s, (f s).pool = s.pool) :
    Moves (Pools D) (remember f : Program (DistillerWorld σ) PyExc Unit) := by
  refine .write fun w obs hobs => .inl ?_
  rwa [hf] at hobs

theorem watch_pools (context : List (String × PyVal)) (action : Option String) (recovered : Bool)
    (l : LoadedRule) : Moves (Pools D) (D.watch context action recovered l) := by
  unfold PaymentDistiller.watch PaymentDistiller.pushRecent
  split
  · refine .bind (remember_pools fun _ => rfl) fun _ => ?_
    split
    · split
      · exact .throw _
      · exact remember_pools fun _ => rfl
    · exact .pure ()
  · exact .pure ()

theorem watchAll_pools (context : List (String × PyVal)) (action : Option String)
    (recovered : Bool) (ls : List LoadedRule) :
    Moves (Pools D) (D.watchAll context action recovered ls) := by
  induction ls with
  | nil => exact .pure ()
  | cons l rest ih => exact .bind (watch_pools context action recovered l) fun _ => ih

/-- Observing adds observations of this kind to the pool, and no others. -/
theorem observe_pools (context : List (String × PyVal)) (action : Option String)
    (recovered fromAgent : Bool) (sourceId : String) :
    Moves (Pools D) (D.observe context action recovered fromAgent sourceId) := by
  intro w
  unfold PaymentDistiller.observe
  rw [run_bind, run_orRaise]
  cases hfeatures : D.situationFeatures context with
  | error exc => exact Std.Refl.refl w
  | ok features =>
    refine Moves.bind (.write fun w obs hobs => ?_) (fun _ => Moves.bind (.attempt fun w => ?_)
      fun ls => watchAll_pools context action recovered ls) w
    · unfold DistillerState.pooled at hobs
      split at hobs
      · rcases List.mem_append.mp hobs with hold | hnew
        · exact .inl hold
        · rw [List.mem_singleton] at hnew
          exact .inr ⟨context, features, hfeatures, by rw [hnew]⟩
      · exact .inl hobs
    · exact Std.Refl.refl w

/-- Distilling leaves the pool alone. -/
theorem pools_kept (D : PaymentDistiller σ) : KeptByDistilling D (Pools D) where
  notes _ hf := remember_pools fun s => (hf s).1
  asked _ _ := fun _ hobs => .inl hobs
  stored _ _ _ := .attempt fun _ _ hobs => .inl hobs

theorem moveTo_pools (l : LoadedRule) (status : RuleStatus) (reason : String) :
    Moves (Pools D) (D.moveTo l status reason) :=
  .attempt fun _ _ hobs => .inl hobs

/-- What a call adds to the pool, it has observed. -/
theorem perform_pools (D : PaymentDistiller σ) (op : DistillerOp) :
    Moves (Pools D) (D.perform op) :=
  perform_moves observe_pools (pools_kept D)
    (promote_moves (pools_kept D).notes fun l => moveTo_pools l .active "")
    (demote_moves (fun _ hf => remember_pools fun s => (hf s).1)
      fun l reason => moveTo_pools l .demoted reason) op

/-- The pool of a run that starts without one holds what the run observed. -/
theorem pool_observed (ops : List DistillerOp) {w : DistillerWorld σ} (hempty : w.state.pool = []) :
    ∀ obs ∈ (Run.exec D.runOp ops w).state.pool, D.Observed obs := by
  have hstart : ∀ obs ∈ w.state.pool, D.Observed obs := by
    rw [hempty]
    exact List.forall_mem_nil _
  refine Run.exec_inv (P := fun w : DistillerWorld σ => ∀ obs ∈ w.state.pool, D.Observed obs)
    (fun w op hpool obs hobs => ?_) hstart
  exact (perform_pools D op w obs hobs).elim (hpool obs) id

theorem project_band (situation : Situation) :
    situation.project ["amount_band", "failure_reason"] =
      situation.project ["failure_reason", "amount_band"] := by
  unfold Situation.project
  refine List.filter_congr fun feature _ => ?_
  simp [or_comm]

/-- Refining looks at the members of the keys with that reason and a band. -/
theorem group_refined (hpool : ∀ obs ∈ pool, D.Observed obs) (reason band : String) :
    group (pool.filter fun obs => obs.situation.get? "failure_reason" = some reason)
        ["failure_reason", "amount_band"] (keyOf reason (some band)) =
      membersOf pool (keyOf reason (some band)) := by
  unfold membersOf group
  rw [List.filter_filter]
  refine List.filter_congr fun obs hobs => ?_
  obtain ⟨actual, actualBand, hsorted⟩ := (hpool obs hobs).sorted
  have hnames : (keyOf reason (some band)).map Prod.fst = ["amount_band", "failure_reason"] := rfl
  rw [hnames, project_band, hsorted.byBand, hsorted.known]
  simp [keyOf]

/-- `_refine` yields the warranted groups of a reason and a band. -/
theorem refine_spec (hpool : ∀ obs ∈ pool, D.Observed obs) (reason : String) :
    ∃ out, refine pool reason = .ok out ∧
      (∀ candidate, candidate ∈ out ↔ (∃ band, candidate.1 = keyOf reason (some band)) ∧
        Warrants (membersOf pool candidate.1) candidate.2.1 ∧
        candidate.2.2 = (membersOf pool candidate.1).map Observation.sourceId) ∧
      (out.map Prod.fst).Nodup := by
  obtain ⟨out, hout, hmem, hnodup⟩ := consistent_spec
    (pool.filter fun obs => obs.situation.get? "failure_reason" = some reason)
    ["failure_reason", "amount_band"]
  refine ⟨out, hout, fun candidate => ?_, hnodup⟩
  rw [hmem]
  constructor
  · intro h
    obtain ⟨obs, hobs, hkey⟩ := exists_mem_of_support h.1.support
    obtain ⟨hin, hreason⟩ := List.mem_filter.mp hobs
    obtain ⟨actual, band, hsorted⟩ := (hpool obs hin).sorted
    have hactual : actual = reason := by
      rw [hsorted.known] at hreason
      simpa using hreason
    subst hactual
    rw [hsorted.byBand] at hkey
    rw [← hkey, group_refined hpool] at h
    rw [← hkey]
    exact ⟨⟨band, rfl⟩, h⟩
  · rintro ⟨⟨band, hkey⟩, h⟩
    rw [hkey] at h ⊢
    rwa [group_refined hpool]

/-! ## Both granularities -/

/-- The loop of `_candidate_situations` at one cluster. -/
def candidateStep (pool : List Observation) (candidates : List (Situation × String × List String))
    (cluster : Cluster) : Except PyExc (List (Situation × String × List String)) := do
  if cluster.support < minClusterSupport then return candidates
  if (← cluster.actionAgreement) < minClusterAgreement then
    return candidates ++ (← refine pool (← reasonOf cluster.key))
  if reasonRecoveryHint ≤ cluster.recoveryRate then
    return candidates ++ [(cluster.key, ← cluster.dominantAction, cluster.sourceIds)]
  return candidates ++ (← refine pool (← reasonOf cluster.key))

theorem candidateSituations_eq (pool : List Observation) :
    candidateSituations pool =
      (clusterObservations pool ["failure_reason"]).foldlM (candidateStep pool) [] := rfl

theorem keyOf_reason (reason : String) (band : Option String) :
    (keyOf reason band).get? "failure_reason" = some reason := by
  cases band <;> rfl

theorem keyOf_inj {reason reason' : String} {band band' : Option String}
    (h : keyOf reason band = keyOf reason' band') : reason = reason' := by
  have hreason := keyOf_reason reason band
  rw [h, keyOf_reason] at hreason
  exact (Option.some.inj hreason).symm

/-- What the cluster of a reason contributes: the candidates of that reason, each key once. -/
structure YieldsReason (pool : List Observation) (reason : String)
    (out : List (Situation × String × List String)) : Prop where
  yields : ∀ candidate, candidate ∈ out ↔ YieldsFor pool reason candidate.1 candidate.2.1 ∧
    candidate.2.2 = (membersOf pool candidate.1).map Observation.sourceId
  once : (out.map Prod.fst).Nodup

/-- A rare reason yields nothing. -/
theorem yieldsReason_rare {reason : String}
    (h : (membersOf pool (keyOf reason none)).length < minClusterSupport) :
    YieldsReason pool reason [] := by
  refine ⟨fun candidate => ⟨fun hmem => absurd hmem List.not_mem_nil, ?_⟩, List.nodup_nil⟩
  rintro ⟨⟨band, hkey, hw, hband⟩, _⟩
  cases band with
  | none =>
    rw [hkey] at hw
    exact absurd hw.support (Nat.not_le.mpr h)
  | some band => exact absurd (hband band rfl).1 (Nat.not_le.mpr h)

/-- A reason that warrants an action yields it, and none of its bands. -/
theorem yieldsReason_whole {reason action : String}
    (h : Warrants (membersOf pool (keyOf reason none)) action) :
    YieldsReason pool reason [(keyOf reason none, action,
      (membersOf pool (keyOf reason none)).map Observation.sourceId)] := by
  have hone := contributes_one (keyOf reason none) h
  refine ⟨fun candidate => ?_, hone.once⟩
  rw [hone.warranted]
  constructor
  · rintro ⟨hkey, hw, hids⟩
    rw [hkey]
    exact ⟨⟨none, rfl, hw, by simp⟩, hids⟩
  · rintro ⟨⟨band, hkey, hw, hband⟩, hids⟩
    cases band with
    | none =>
      rw [hkey] at hw hids
      exact ⟨hkey, hw, hids⟩
    | some band => exact absurd h ((hband band rfl).2 action)

/-- A frequent reason that warrants no action yields what its bands warrant. -/
theorem yieldsReason_refined {reason : String}
    (hsupport : minClusterSupport ≤ (membersOf pool (keyOf reason none)).length)
    (hnone : ∀ action, ¬ Warrants (membersOf pool (keyOf reason none)) action)
    {out : List (Situation × String × List String)}
    (hout : ∀ candidate, candidate ∈ out ↔ (∃ band, candidate.1 = keyOf reason (some band)) ∧
      Warrants (membersOf pool candidate.1) candidate.2.1 ∧
      candidate.2.2 = (membersOf pool candidate.1).map Observation.sourceId)
    (honce : (out.map Prod.fst).Nodup) : YieldsReason pool reason out := by
  refine ⟨fun candidate => ?_, honce⟩
  rw [hout]
  constructor
  · rintro ⟨⟨band, hkey⟩, hw, hids⟩
    exact ⟨⟨some band, hkey, hw, fun _ _ => ⟨hsupport, hnone⟩⟩, hids⟩
  · rintro ⟨⟨band, hkey, hw, _⟩, hids⟩
    cases band with
    | none =>
      rw [hkey] at hw
      exact absurd hw (hnone _)
    | some band => exact ⟨⟨band, hkey⟩, hw, hids⟩

/-- The cluster of a reason that occurs. -/
theorem candidateStep_yields (hpool : ∀ obs ∈ pool, D.Observed obs) {reason : String}
    (h : membersOf pool (keyOf reason none) ≠ []) :
    ∃ found, YieldsReason pool reason found ∧ ∀ out, candidateStep pool out
      (Cluster.ofMembers (keyOf reason none) (membersOf pool (keyOf reason none))) =
        .ok (out ++ found) := by
  obtain ⟨action, hdominant, hagreement, honly⟩ := cluster_thresholds (keyOf reason none) h
  obtain ⟨refined, hrefine, hmem, honce⟩ := refine_spec hpool reason
  have hreason : reasonOf (keyOf reason none) = .ok reason := rfl
  unfold candidateStep
  simp only [hdominant, hagreement, Cluster.recoveryRate_ofMembers, Cluster.ofMembers_support,
    Cluster.ofMembers_key, Cluster.ofMembers_sourceIds, hreason]
  by_cases hrare : (membersOf pool (keyOf reason none)).length < minClusterSupport
  · refine ⟨[], yieldsReason_rare hrare, fun out => ?_⟩
    rw [if_pos hrare, List.append_nil]
    rfl
  · simp only [if_neg hrare]
    have hsupport := Nat.not_lt.mp hrare
    by_cases hw : Warrants (membersOf pool (keyOf reason none)) action
    · refine ⟨_, yieldsReason_whole hw, fun out => ?_⟩
      show (if actionShare _ action < minClusterAgreement then _ else _) = _
      rw [if_neg (not_lt.mpr hw.agreement), if_pos hw.recovery]
      rfl
    · refine ⟨refined, yieldsReason_refined hsupport
        (fun other hother => hw (honly other hother ▸ hother)) hmem honce, fun out => ?_⟩
      have hrefined : (do
          let found ← refine pool reason
          return out ++ found : Except PyExc (List (Situation × String × List String))) =
          .ok (out ++ refined) := by
        rw [hrefine]
        rfl
      show (if actionShare _ action < minClusterAgreement then _ else _) = _
      by_cases hagree : actionShare (membersOf pool (keyOf reason none)) action <
          minClusterAgreement
      · rw [if_pos hagree]
        exact hrefined
      · have hrecovery : ¬ reasonRecoveryHint ≤ recoveryShare (membersOf pool (keyOf reason none)) :=
          fun hrecovery => hw ⟨hsupport, not_lt.mp hagree, hrecovery⟩
        rw [if_neg hagree, if_neg hrecovery]
        exact hrefined

/-- The candidates of a pool are what its groups yield, with the ids of the members, and each
key occurs once. -/
theorem candidateSituations_spec (hpool : ∀ obs ∈ pool, D.Observed obs) :
    ∃ out, candidateSituations pool = .ok out ∧
      (∀ candidate, candidate ∈ out ↔ Yields pool candidate.1 candidate.2.1 ∧
        candidate.2.2 = (membersOf pool candidate.1).map Observation.sourceId) ∧
      (out.map Prod.fst).Nodup := by
  have hreason : ∀ key ∈ pool.map (fun obs => obs.situation.project ["failure_reason"]),
      ∃ reason, key = keyOf reason none := by
    intro key hkey
    obtain ⟨obs, hobs, rfl⟩ := List.mem_map.mp hkey
    obtain ⟨reason, band, hsorted⟩ := (hpool obs hobs).sorted
    exact ⟨reason, hsorted.byReason⟩
  have hclusters : ∀ key ∈ pool.map (fun obs => obs.situation.project ["failure_reason"]),
      ∃ found, (∃ reason, key = keyOf reason none ∧ YieldsReason pool reason found) ∧
        ∀ out, candidateStep pool out (Cluster.ofMembers key (group pool ["failure_reason"] key)) =
          .ok (out ++ found) := by
    intro key hkey
    have hmembers := group_ne_nil hkey
    obtain ⟨reason, rfl⟩ := hreason key hkey
    obtain ⟨found, hfound, hstep⟩ := candidateStep_yields hpool hmembers
    exact ⟨found, ⟨reason, rfl, hfound⟩, hstep⟩
  obtain ⟨keys, f, hnodup, hkeys, hf, hout⟩ :=
    foldlM_clusters pool ["failure_reason"] (candidateStep pool) hclusters
  refine ⟨_, (candidateSituations_eq pool).trans hout, fun candidate => ?_, ?_⟩
  · rw [List.mem_flatMap]
    constructor
    · rintro ⟨key, hkey, hmem⟩
      obtain ⟨reason, rfl, hfound⟩ := hf key hkey
      obtain ⟨hyields, hids⟩ := (hfound.yields candidate).mp hmem
      exact ⟨⟨reason, hyields⟩, hids⟩
    · rintro ⟨⟨reason, hyields⟩, hids⟩
      have hlarge : minClusterSupport ≤ (membersOf pool (keyOf reason none)).length := by
        obtain ⟨band, hkey, hw, hband⟩ := hyields
        cases band with
        | none =>
          rw [hkey] at hw
          exact hw.support
        | some band => exact (hband band rfl).1
      obtain ⟨obs, hobs, hproject⟩ := exists_mem_of_support hlarge
      have hkey : keyOf reason none ∈ keys :=
        (hkeys _).mpr (List.mem_map.mpr ⟨obs, hobs, hproject⟩)
      obtain ⟨actual, hactual, hfound⟩ := hf _ hkey
      obtain rfl := keyOf_inj hactual
      exact ⟨_, hkey, (hfound.yields candidate).mpr ⟨hyields, hids⟩⟩
  · -- the reason of a candidate says which cluster it came from
    refine nodup_contributions hnodup (fun key hkey => ?_)
      (fun key => keyOf ((key.get? "failure_reason").getD "") none) fun key hkey c hc => ?_
    · obtain ⟨_, _, hfound⟩ := hf key hkey
      exact hfound.once
    · obtain ⟨reason, rfl, hfound⟩ := hf key hkey
      obtain ⟨⟨band, hband, _⟩, _⟩ := (hfound.yields c).mp hc
      rw [hband, keyOf_reason]
      rfl

end OnePool

theorem exists_ids_iff {pool : List Observation} {out : List (Situation × String × List String)}
    (hmem : ∀ candidate, candidate ∈ out ↔ Yields pool candidate.1 candidate.2.1 ∧
      candidate.2.2 = (membersOf pool candidate.1).map Observation.sourceId)
    (key : Situation) (action : String) :
    (∃ ids, (key, action, ids) ∈ out) ↔ Yields pool key action := by
  constructor
  · rintro ⟨ids, h⟩
    exact ((hmem _).mp h).1
  · intro h
    exact ⟨(membersOf pool key).map Observation.sourceId, (hmem _).mpr ⟨h, rfl⟩⟩

/-- Wherever `distill` is called in a run, its candidates are what the groups of the pool yield:
choosing them raises nothing. -/
theorem reached_candidates {σ : Type} (D : PaymentDistiller σ) (ops : List DistillerOp)
    {w : DistillerWorld σ} (hempty : w.state.pool = []) :
    ∃ out, candidateSituations (Run.exec D.runOp ops w).state.pool = .ok out ∧
      (out.map Prod.fst).Nodup ∧
      ∀ key action, (∃ ids, (key, action, ids) ∈ out) ↔
        Yields (Run.exec D.runOp ops w).state.pool key action := by
  obtain ⟨out, hout, hmem, hnodup⟩ := candidateSituations_spec (pool_observed (D := D) ops hempty)
  exact ⟨out, hout, hnodup, exists_ids_iff hmem⟩

/-- **Candidates do not depend on the order of arrival.** For every list of observations built by
`observe` and every permutation of it, the same keys and actions come out, each key once. A key
comes with the ids of all the observations that project onto it, and these meet the thresholds
for the action. -/
theorem candidates_order_free {σ : Type} (D : PaymentDistiller σ) {pool pool' : List Observation}
    (hpool : ∀ obs ∈ pool, D.Observed obs) (hperm : pool.Perm pool') :
    ∃ out out', candidateSituations pool = .ok out ∧ candidateSituations pool' = .ok out' ∧
      (∀ key action, (∃ ids, (key, action, ids) ∈ out) ↔ ∃ ids, (key, action, ids) ∈ out') ∧
      (out.map Prod.fst).Nodup ∧ (out'.map Prod.fst).Nodup ∧
      ∀ key action ids, (key, action, ids) ∈ out →
        Warrants (membersOf pool key) action ∧
          ids = (membersOf pool key).map Observation.sourceId := by
  have hpool' : ∀ obs ∈ pool', D.Observed obs := fun obs hobs => hpool obs (hperm.mem_iff.mpr hobs)
  obtain ⟨out, hout, hmem, hnodup⟩ := candidateSituations_spec hpool
  obtain ⟨out', hout', hmem', hnodup'⟩ := candidateSituations_spec hpool'
  refine ⟨out, out', hout, hout', fun key action => ?_, hnodup, hnodup', ?_⟩
  · rw [exists_ids_iff hmem, exists_ids_iff hmem']
    exact yields_perm hperm key action
  · intro key action ids h
    obtain ⟨⟨reason, band, _, hw, _⟩, hids⟩ := (hmem _).mp h
    exact ⟨hw, hids⟩

/-- An expired card over 5000, and what the agent did about it. -/
def Sample.handled (action : String) : Observation :=
  ⟨Situation.fromMapping [("failure_reason", "expired_card"), ("amount_band", "2000_10000"),
    ("failure_history", "none"), ("recency", "normal"), ("channel", "unknown")], action, true, ""⟩

theorem Sample.handled_observed (action : String) :
    Sample.distiller.Observed (Sample.handled action) :=
  ⟨Sample.expired 5000, _, by decide +kernel, rfl⟩

/-- Whether the two that only waited came first or last, the link is the candidate. -/
theorem candidates_order_free_dissent :
    ∃ out', candidateSituations (List.replicate 2 (Sample.handled "wait_and_retry") ++
        List.replicate 13 (Sample.handled "send_payment_link")) = .ok out' ∧
      ∃ ids, ([("failure_reason", "expired_card")], "send_payment_link", ids) ∈ out' := by
  have hpool : ∀ obs ∈ List.replicate 13 (Sample.handled "send_payment_link") ++
      List.replicate 2 (Sample.handled "wait_and_retry"), Sample.distiller.Observed obs := by
    intro obs hobs
    rcases List.mem_append.mp hobs with h | h
    · rw [(List.mem_replicate.mp h).2]
      exact Sample.handled_observed _
    · rw [(List.mem_replicate.mp h).2]
      exact Sample.handled_observed _
  obtain ⟨out, out', hout, hout', hsame, _⟩ :=
    candidates_order_free Sample.distiller hpool List.perm_append_comm
  have hfirst : candidateSituations (List.replicate 13 (Sample.handled "send_payment_link") ++
      List.replicate 2 (Sample.handled "wait_and_retry")) =
        .ok [([("failure_reason", "expired_card")], "send_payment_link",
          List.replicate 15 "")] := by
    decide +kernel
  rw [hfirst] at hout
  injection hout with hout
  refine ⟨out', hout', (hsame _ _).mp ⟨List.replicate 15 "", ?_⟩⟩
  rw [← hout]
  exact List.mem_cons_self

end PaymentRecovery.Recovery

import PaymentRecovery.Distill.Cluster
import PaymentRecovery.Lib.Grouping
import Mathlib.Tactic.Linarith
import Mathlib.Tactic.Positivity

/-!
# Clusters are groups

The clusters of a list of observations are its groups by projected key, each with the
counts of its members. The dominant action depends on the order in which the members
came only when no action has a majority.
-/

namespace PaymentRecovery.Distill

open PaymentRecovery.Python PaymentRecovery.Lib

/-- The observations that project onto the key. -/
def group (observations : List Observation) (names : List String) (key : Situation) :
    List Observation :=
  observations.filter fun obs => obs.situation.project names = key

/-- Fraction of the observations that took the action. -/
def actionShare (members : List Observation) (action : String) : ℚ :=
  ((members.map Observation.action).count action : ℚ) / members.length

/-- Fraction of the observations that recovered. -/
def recoveryShare (members : List Observation) : ℚ :=
  (members.countP Observation.recovered : ℚ) / members.length

/-- The cluster with this key and these members. -/
def Cluster.ofMembers (key : Situation) (members : List Observation) : Cluster :=
  members.foldl Cluster.add { key := key }

/-! ## One cluster and its members -/

section OneCluster

variable (key : Situation) (members : List Observation)

/-- What adding the members one after another does to each field. -/
theorem foldl_add (cluster : Cluster) :
    members.foldl Cluster.add cluster =
      { key := cluster.key
        support := cluster.support + members.length
        actionCounts := members.foldl (fun counts obs =>
          counts.set obs.action ((counts.get? obs.action).getD 0 + 1)) cluster.actionCounts
        recoveredCount := cluster.recoveredCount + members.countP Observation.recovered
        sourceIds := cluster.sourceIds ++ members.map Observation.sourceId } := by
  induction members generalizing cluster with
  | nil => simp
  | cons obs rest ih =>
    rw [List.foldl_cons, ih]
    have hcount : cluster.recoveredCount + obs.recovered.toNat +
        rest.countP Observation.recovered =
        cluster.recoveredCount + (obs :: rest).countP Observation.recovered := by
      rw [List.countP_cons]
      cases obs.recovered with
      | false => simp
      | true =>
        simp only [Bool.toNat_true, if_true]
        omega
    simp only [Cluster.add, hcount, List.length_cons, List.foldl_cons, List.map_cons,
      List.append_assoc, List.singleton_append]
    congr 1
    omega

@[simp] theorem Cluster.ofMembers_key : (Cluster.ofMembers key members).key = key := by
  unfold Cluster.ofMembers
  rw [foldl_add]

@[simp] theorem Cluster.ofMembers_support :
    (Cluster.ofMembers key members).support = members.length := by
  unfold Cluster.ofMembers
  rw [foldl_add]
  exact Nat.zero_add _

@[simp] theorem Cluster.ofMembers_sourceIds :
    (Cluster.ofMembers key members).sourceIds = members.map Observation.sourceId := by
  unfold Cluster.ofMembers
  rw [foldl_add]
  rfl

/-- The counts tally the actions. -/
theorem Cluster.ofMembers_actionCounts (action : String) :
    (Cluster.ofMembers key members).actionCounts.get? action =
      if action ∈ members.map Observation.action then
        some ((members.map Observation.action).count action) else none := by
  unfold Cluster.ofMembers
  rw [foldl_add]
  exact get?_tally Observation.action members action

theorem Cluster.recoveryRate_ofMembers :
    (Cluster.ofMembers key members).recoveryRate = recoveryShare members := by
  have hrecovered : (Cluster.ofMembers key members).recoveredCount =
      members.countP Observation.recovered := by
    unfold Cluster.ofMembers
    rw [foldl_add]
    exact Nat.zero_add _
  unfold Cluster.recoveryRate recoveryShare
  rw [Cluster.ofMembers_support, hrecovered]
  split_ifs with h
  · rw [h, Nat.cast_zero, div_zero]
  · rfl

end OneCluster

/-! ## The dominant action -/

/-- The first of the heaviest is one of the elements, and none is heavier. -/
theorem firstMax_spec {α : Type} (weight : α → Nat) {xs : List α} (h : xs ≠ []) :
    ∃ best, firstMax weight xs = some best ∧ best ∈ xs ∧ ∀ x ∈ xs, weight x ≤ weight best := by
  cases xs with
  | nil => exact absurd rfl h
  | cons a rest =>
    refine ⟨_, rfl, ?_⟩
    clear h
    induction rest generalizing a with
    | nil => exact ⟨List.mem_cons_self, List.forall_mem_singleton.mpr (Nat.le_refl _)⟩
    | cons b rest ih =>
      rw [List.foldl_cons]
      obtain ⟨hmem, hmax⟩ := ih (if weight a < weight b then b else a)
      have hstart := hmax _ List.mem_cons_self
      constructor
      · rcases List.mem_cons.mp hmem with heq | hrest
        · rw [heq]
          split_ifs <;> simp
        · exact List.mem_cons_of_mem _ (List.mem_cons_of_mem _ hrest)
      · intro x hx
        rcases List.mem_cons.mp hx with rfl | hx
        · refine Nat.le_trans ?_ hstart
          split_ifs with hlt
          · exact hlt.le
          · exact Nat.le_refl _
        · rcases List.mem_cons.mp hx with rfl | hx
          · refine Nat.le_trans ?_ hstart
            split_ifs with hlt
            · exact Nat.le_refl _
            · exact Nat.le_of_not_lt hlt
          · exact hmax x (List.mem_cons_of_mem _ hx)

/-- A cluster with members has a dominant action, and no action is more frequent. -/
theorem dominantAction_spec (key : Situation) {members : List Observation} (h : members ≠ []) :
    ∃ action, (Cluster.ofMembers key members).dominantAction = .ok action ∧
      (Cluster.ofMembers key members).actionAgreement = .ok (actionShare members action) ∧
      ∀ other, (members.map Observation.action).count other ≤
        (members.map Observation.action).count action := by
  have hcounts := Cluster.ofMembers_actionCounts key members
  obtain ⟨first, rest, rfl⟩ := List.exists_cons_of_ne_nil h
  have hfirst := hcounts first.action
  rw [if_pos (List.mem_map_of_mem List.mem_cons_self)] at hfirst
  have hentries : (Cluster.ofMembers key (first :: rest)).actionCounts.entries ≠ [] :=
    List.ne_nil_of_mem (Dict.findEntry_mem hfirst)
  obtain ⟨⟨action, n⟩, hbest, hmem, hmax⟩ := firstMax_spec Prod.snd hentries
  have hget : (Cluster.ofMembers key (first :: rest)).actionCounts.get? action = some n :=
    Dict.findEntry_of_mem (Cluster.ofMembers key (first :: rest)).actionCounts.nodup hmem
  have hn : n = ((first :: rest).map Observation.action).count action := by
    rw [hcounts action] at hget
    split_ifs at hget
    exact (Option.some.inj hget).symm
  have hdominant : (Cluster.ofMembers key (first :: rest)).dominantAction = .ok action := by
    unfold Cluster.dominantAction
    rw [hbest]
  refine ⟨action, hdominant, ?_, fun other => ?_⟩
  · unfold Cluster.actionAgreement
    rw [Cluster.ofMembers_support, if_neg (by simp), hdominant]
    show Except.ok _ = _
    rw [hget, hn]
    rfl
  · by_cases hother : other ∈ (first :: rest).map Observation.action
    · have hseen := hcounts other
      rw [if_pos hother] at hseen
      have hle : ((first :: rest).map Observation.action).count other ≤ n :=
        hmax _ (Dict.findEntry_mem hseen)
      rwa [hn] at hle
    · rw [List.count_eq_zero_of_not_mem hother]
      exact Nat.zero_le _

/-- An action with more than half of the members is the dominant one. -/
theorem dominantAction_majority (key : Situation) {members : List Observation} {action : String}
    (h : 1 / 2 < actionShare members action) :
    (Cluster.ofMembers key members).dominantAction = .ok action ∧
      (Cluster.ofMembers key members).actionAgreement = .ok (actionShare members action) := by
  have hmembers : members ≠ [] := by
    rintro rfl
    norm_num [actionShare] at h
  have hhalf : members.length < 2 * (members.map Observation.action).count action := by
    have hlength : (0 : ℚ) < members.length := by
      exact_mod_cast List.length_pos_of_ne_nil hmembers
    unfold actionShare at h
    rw [lt_div_iff₀ hlength] at h
    have hcast : (members.length : ℚ) < 2 * (members.map Observation.action).count action := by
      linarith
    exact_mod_cast hcast
  obtain ⟨dominant, hdominant, hagreement, hmax⟩ := dominantAction_spec key hmembers
  have heq : dominant = action := by
    refine majority_unique (members.map Observation.action) ?_ ?_
    · have hle := hmax action
      rw [List.length_map]
      omega
    · rwa [List.length_map]
  subst heq
  exact ⟨hdominant, hagreement⟩

/-! ## All clusters -/

theorem clusterObservations_eq (observations : List Observation) (names : List String) :
    clusterObservations observations names =
      (groupFold (fun obs : Observation => obs.situation.project names)
        (fun key => { key := key }) Cluster.add observations).values := rfl

/-- The clusters are the groups of the keys that occur. -/
theorem mem_clusterObservations {observations : List Observation} {names : List String}
    {cluster : Cluster} :
    cluster ∈ clusterObservations observations names ↔
      ∃ key ∈ observations.map fun obs => obs.situation.project names,
        cluster = Cluster.ofMembers key (group observations names key) := by
  rw [clusterObservations_eq]
  exact mem_values_groupFold _ _ _

/-- One cluster a key. -/
theorem nodup_clusterObservations (observations : List Observation) (names : List String) :
    ((clusterObservations observations names).map Cluster.key).Nodup := by
  rw [clusterObservations_eq]
  exact nodup_values_groupFold _ _ _ observations Cluster.ofMembers_key

/-- The group of a key that occurs has members. -/
theorem group_ne_nil {observations : List Observation} {names : List String} {key : Situation}
    (h : key ∈ observations.map fun obs => obs.situation.project names) :
    group observations names key ≠ [] := by
  obtain ⟨obs, hobs, hkey⟩ := List.mem_map.mp h
  have hmem : obs ∈ group observations names key :=
    List.mem_filter.mpr ⟨hobs, by simpa using hkey⟩
  exact List.ne_nil_of_mem hmem

/-! ## Order of arrival -/

theorem group_perm {observations observations' : List Observation}
    (h : observations.Perm observations') (names : List String) (key : Situation) :
    (group observations names key).Perm (group observations' names key) :=
  h.filter _

theorem actionShare_perm {members members' : List Observation} (h : members.Perm members')
    (action : String) : actionShare members action = actionShare members' action := by
  unfold actionShare
  rw [(h.map Observation.action).count_eq, h.length_eq]

theorem recoveryShare_perm {members members' : List Observation} (h : members.Perm members') :
    recoveryShare members = recoveryShare members' := by
  unfold recoveryShare
  rw [h.countP_eq, h.length_eq]

end PaymentRecovery.Distill

import PaymentRecovery.Guardrails.Approval
import Mathlib.Data.Set.Card

/-!
# The audit log replays to the store

`reconstruct` folds a run's audit entries, in any order, back into the counters
of the store. What makes it right is kept by every call: the entries of a run
are numbered from one, the `executed` ones are the effects of the run in order,
and a spend-cap refusal is logged exactly when the breaker opens.
-/

namespace PaymentRecovery.Guardrails

open PaymentRecovery.Python PaymentRecovery.Lib

/-! ## The fold -/

/-- State reconstructed purely from a run's audit entries. -/
structure ReplayState where
  executedCount : Nat
  totalCost : ℚ
  perSubjectExecuted : Dict String Nat
  decisions : Dict String Nat
  breakerTripped : Bool

/-- `ReplayState()`. -/
def ReplayState.init : ReplayState := ⟨0, 0, .empty, .empty, false⟩

/-- One round of the loop: only executed entries move spend and budget. -/
def replayEntry (state : ReplayState) (entry : AuditEntry) : ReplayState where
  decisions := state.decisions.set entry.decision
    ((state.decisions.get? entry.decision).getD 0 + 1)
  breakerTripped := if entry.decision = ExecutionStatus.rejectedSpendCap.value then true
    else state.breakerTripped
  executedCount := if entry.decision = ExecutionStatus.executed.value then
      state.executedCount + 1
    else state.executedCount
  totalCost := if entry.decision = ExecutionStatus.executed.value then
      state.totalCost + entry.cost
    else state.totalCost
  perSubjectExecuted := if entry.decision = ExecutionStatus.executed.value then
      state.perSubjectExecuted.set entry.subjectId
        ((state.perSubjectExecuted.get? entry.subjectId).getD 0 + 1)
    else state.perSubjectExecuted

/-- Fold audit `entries`, in any order, into a state. -/
def reconstruct (entries : List AuditEntry) : ReplayState :=
  (entries.mergeSort fun a b => a.seq ≤ b.seq).foldl replayEntry .init

/-- The entries that move spend and budget. -/
def executedEntries (entries : List AuditEntry) : List AuditEntry :=
  entries.filter fun entry => entry.decision = ExecutionStatus.executed.value

theorem foldl_executedCount (entries : List AuditEntry) (state : ReplayState) :
    (entries.foldl replayEntry state).executedCount =
      state.executedCount + (executedEntries entries).length := by
  induction entries generalizing state with
  | nil => rfl
  | cons entry rest ih =>
    rw [List.foldl_cons, ih]
    unfold executedEntries
    by_cases hexec : entry.decision = ExecutionStatus.executed.value
    · simp [replayEntry, hexec]
      omega
    · simp [replayEntry, hexec]

theorem foldl_totalCost (entries : List AuditEntry) (state : ReplayState) :
    (entries.foldl replayEntry state).totalCost =
      state.totalCost + ((executedEntries entries).map (·.cost)).sum := by
  induction entries generalizing state with
  | nil => exact (add_zero _).symm
  | cons entry rest ih =>
    rw [List.foldl_cons, ih]
    unfold executedEntries
    by_cases hexec : entry.decision = ExecutionStatus.executed.value
    · simp [replayEntry, hexec, add_assoc]
    · simp [replayEntry, hexec]

theorem foldl_perSubject (entries : List AuditEntry) (state : ReplayState) (subject : String) :
    ((entries.foldl replayEntry state).perSubjectExecuted.get? subject).getD 0 =
      (state.perSubjectExecuted.get? subject).getD 0 +
        ((executedEntries entries).filter (·.subjectId = subject)).length := by
  induction entries generalizing state with
  | nil => rfl
  | cons entry rest ih =>
    rw [List.foldl_cons, ih]
    unfold executedEntries
    by_cases hexec : entry.decision = ExecutionStatus.executed.value
    · by_cases hsub : entry.subjectId = subject
      · simp [replayEntry, hexec, hsub]
        omega
      · simp [replayEntry, hexec, hsub, Dict.get?_set, Ne.symm hsub]
    · simp [replayEntry, hexec]

theorem foldl_breaker (entries : List AuditEntry) (state : ReplayState) :
    (entries.foldl replayEntry state).breakerTripped = true ↔ state.breakerTripped = true ∨
      ∃ entry ∈ entries, entry.decision = ExecutionStatus.rejectedSpendCap.value := by
  induction entries generalizing state with
  | nil => simp
  | cons entry rest ih =>
    rw [List.foldl_cons, ih]
    by_cases hcap : entry.decision = ExecutionStatus.rejectedSpendCap.value
    · simp [replayEntry, hcap]
    · simp [replayEntry, hcap]

/-- Entries numbered from one come back in order from any permutation of them. -/
theorem mergeSort_of_perm {entries log : List AuditEntry}
    (hseqs : log.map (·.seq) = List.range' 1 log.length) (hperm : entries.Perm log) :
    (entries.mergeSort fun a b => a.seq ≤ b.seq) = log := by
  have hnodup : (log.map (·.seq)).Nodup := by
    rw [hseqs]
    exact List.nodup_range'
  have hsorted : log.Pairwise fun a b => a.seq ≤ b.seq := by
    have hle : (log.map (·.seq)).Pairwise (· ≤ ·) := by
      rw [hseqs]
      exact (List.pairwise_lt_range' (s := 1)).imp Nat.le_of_lt
    exact List.pairwise_map.mp hle
  have hmerged : (entries.mergeSort fun a b => a.seq ≤ b.seq).Pairwise
      fun a b => a.seq ≤ b.seq := by
    refine (List.pairwise_mergeSort ?_ ?_ entries).imp fun h => of_decide_eq_true h
    · intro a b c hab hbc
      exact decide_eq_true (Nat.le_trans (of_decide_eq_true hab) (of_decide_eq_true hbc))
    · intro a b
      rw [Bool.or_eq_true, decide_eq_true_iff, decide_eq_true_iff]
      exact Nat.le_total _ _
  have hsame := (List.mergeSort_perm entries fun a b => a.seq ≤ b.seq).trans hperm
  -- two sorted permutations of entries with distinct numbers are one list
  refine hsame.eq_of_pairwise ?_ hmerged hsorted
  intro a b ha hb hab hba
  exact List.inj_on_of_nodup_map hnodup (hsame.subset ha) hb (Nat.le_antisymm hab hba)

/-! ## What the log keeps -/

/-- The action an entry or a handler run is about. -/
def AuditEntry.about (entry : AuditEntry) : String × String × String × ℚ :=
  (entry.actionName, entry.subjectId, entry.idempotencyKey, entry.cost)

def Action.about (action : Action) : String × String × String × ℚ :=
  (action.name, action.subjectId, action.idempotencyKey, action.cost)

/-- The effects of one run, in order. -/
def Snapshot.effectsIn (s : Snapshot) (run : String) : List Invocation :=
  s.effects.filter fun inv => inv.runId = run

/-- The entries of a run are numbered from one, the executed ones are its effects, and
the breaker is open if and only if a spend-cap refusal was logged. -/
structure Audited (s : Snapshot) : Prop where
  seqs : ∀ r, (s.state.audit r).map (·.seq) = List.range' 1 (s.state.audit r).length
  executed : ∀ r, (executedEntries (s.state.audit r)).map (·.about) =
    (s.effectsIn r).map (·.action.about)
  breaker : ∀ r, s.state.breaker r = true ↔
    ∃ entry ∈ s.state.audit r, entry.decision = ExecutionStatus.rejectedSpendCap.value

namespace Audited

theorem init : Audited .init where
  seqs r := rfl
  executed r := rfl
  breaker r := by simp [Snapshot.init, GuardState.init]

variable {s : Snapshot}

theorem audit_logged (s : Snapshot) (run : String) (action : Action) (decision detail : String)
    (r : String) : (s.logged run action decision detail).state.audit r =
      if r = run then s.state.audit r ++ [⟨run, (s.state.audit run).length + 1, action.name,
        action.subjectId, action.idempotencyKey, action.cost, decision, detail⟩]
      else s.state.audit r := rfl

/-- The next entry gets the next number. -/
theorem seqs_logged (h : ∀ r, (s.state.audit r).map (·.seq) =
      List.range' 1 (s.state.audit r).length)
    (run : String) (action : Action) (decision detail : String) (r : String) :
    ((s.logged run action decision detail).state.audit r).map (·.seq) =
      List.range' 1 ((s.logged run action decision detail).state.audit r).length := by
  rw [audit_logged]
  split
  · rename_i hr
    subst hr
    rw [List.map_append, List.length_append, h r]
    simp only [List.map_cons, List.map_nil, List.length_singleton]
    rw [List.range'_1_concat, Nat.add_comm 1]
  · exact h r

theorem called (h : Audited s) (run : String) (action : Action) :
    Audited (s.called run action) := by
  have heffects : (s.called run action).effects = s.effects := by simp [Snapshot.effects]
  refine ⟨h.seqs, fun r => ?_, h.breaker⟩
  unfold Snapshot.effectsIn
  rw [heffects]
  exact h.executed r

theorem held (h : Audited s) (rec : ApprovalRecord) : Audited (s.held rec) :=
  ⟨h.seqs, h.executed, h.breaker⟩

theorem decided (h : Audited s) (id : ApprovalId) (st : ApprovalState) :
    Audited (s.decided id st) :=
  ⟨h.seqs, h.executed, h.breaker⟩

theorem invoked (h : Audited s) {inv : Invocation} (hnone : inv.resultJson = none) :
    Audited (s.invoked inv) := by
  refine ⟨h.seqs, fun r => ?_, h.breaker⟩
  unfold Snapshot.effectsIn
  rw [Snapshot.effects_invoked_none hnone]
  exact h.executed r

/-- An entry that is neither an effect nor a spend-cap refusal. -/
theorem logged (h : Audited s) (run : String) (action : Action) {decision : String}
    (detail : String) (hexec : decision ≠ ExecutionStatus.executed.value)
    (hcap : decision ≠ ExecutionStatus.rejectedSpendCap.value) :
    Audited (s.logged run action decision detail) := by
  refine ⟨seqs_logged h.seqs run action decision detail, fun r => ?_, fun r => ?_⟩
  · refine Eq.trans ?_ (h.executed r)
    rw [audit_logged]
    split
    · simp [executedEntries, hexec]
    · rfl
  · refine (h.breaker r).trans ?_
    rw [audit_logged]
    split
    · simp [hcap]
    · rfl

/-- The refusal that opens the breaker. -/
theorem tripped (h : Audited s) (run : String) (action : Action) (detail : String) :
    Audited ((s.tripped run).logged run action ExecutionStatus.rejectedSpendCap.value detail) := by
  refine ⟨seqs_logged (s := s.tripped run) h.seqs run action _ detail, fun r => ?_, fun r => ?_⟩
  · refine Eq.trans ?_ (h.executed r)
    rw [audit_logged]
    split
    · show (executedEntries (s.state.audit r ++ _)).map _ = _
      simp [executedEntries]
      decide
    · rfl
  · rw [audit_logged]
    show (if r = run then true else s.state.breaker r) = true ↔ _
    split
    · simp
    · exact h.breaker r

/-- An effect, charged, stored and logged. -/
theorem settled (h : Audited s) {inv : Invocation} {j : JsonText}
    (hj : inv.resultJson = some j) (detail : String) :
    Audited (((s.invoked inv).settled inv.runId inv.action j).logged inv.runId inv.action
      ExecutionStatus.executed.value detail) := by
  refine ⟨seqs_logged (s := (s.invoked inv).settled inv.runId inv.action j) h.seqs _ _ _ _,
    fun r => ?_, fun r => ?_⟩
  · have heffects : (((s.invoked inv).settled inv.runId inv.action j).logged inv.runId inv.action
        ExecutionStatus.executed.value detail).effects = s.effects ++ [inv] :=
      Snapshot.effects_invoked_some hj
    unfold Snapshot.effectsIn
    rw [heffects, List.filter_append, List.map_append, audit_logged]
    have hold := h.executed r
    unfold Snapshot.effectsIn at hold
    rw [← hold]
    by_cases hr : r = inv.runId
    · rw [if_pos hr]
      show (executedEntries (s.state.audit r ++ _)).map _ = _
      simp [executedEntries, hr, AuditEntry.about, Action.about]
    · rw [if_neg hr]
      simp only [Ne.symm hr, decide_false, List.filter_cons_of_neg, Bool.false_eq_true,
        not_false_eq_true, List.filter_nil, List.map_nil, List.append_nil]
      rfl
  · refine (h.breaker r).trans ?_
    rw [audit_logged]
    split
    · show _ ↔ ∃ entry ∈ s.state.audit r ++ _, _
      simp only [List.mem_append, List.mem_singleton, or_and_right, exists_or, exists_eq_left]
      have hne : ExecutionStatus.executed.value ≠ ExecutionStatus.rejectedSpendCap.value := by
        decide
      simp [hne]
    · rfl

theorem execute {ex : GuardedExecutor σ} {action : Action} {s' : Snapshot}
    {answer : Except PyExc ExecutionResult} (h : Audited s)
    (hstep : ExecuteStep ex action s answer s') : Audited s' := by
  cases hstep with
  | breakerOpen => exact (h.called _ _).logged _ _ _ (by decide) (by decide)
  | duplicate => exact (h.called _ _).logged _ _ _ (by decide) (by decide)
  | corrupt => exact h.called _ _
  | unknownAction => exact h.called _ _
  | unserialisable => exact h.called _ _
  | enqueued => exact ((h.called _ _).held _).logged _ _ _ (by decide) (by decide)
  | undecided => exact (h.called _ _).logged _ _ _ (by decide) (by decide)
  | overBudget => exact (h.called _ _).logged _ _ _ (by decide) (by decide)
  | overCap => exact (h.called _ _).tripped _ _ _
  | raised => exact ((h.called _ _).invoked rfl).logged _ _ _ (by decide) (by decide)
  | unstorable result exc hadm hyields hdump =>
    have hnone : (invocationIn ex action s.state (.ok result)).resultJson = none := by
      simp [Invocation.resultJson, invocationIn, hdump, Except.toOption]
    exact (h.called _ _).invoked hnone
  | executed result resultJson hadm hyields hdump =>
    have hsome : (invocationIn ex action s.state (.ok result)).resultJson = some resultJson := by
      simp [Invocation.resultJson, invocationIn, hdump, Except.toOption]
    exact (h.called _ _).settled hsome _

theorem step {call : Call σ} {s' : Snapshot} {answer : Except PyExc (Option ExecutionResult)}
    (h : Audited s) (hstep : CallStep s call answer s') : Audited s' :=
  hstep.keeps (fun _ id st hs => hs.decided id st) (fun _ _ _ _ hs hexec => hs.execute hexec) h

end Audited

/-! ## Runs -/

theorem prefix_logged (s : Snapshot) (r : String) (action : Action) (decision detail : String)
    (run : String) :
    s.state.audit run <+: (s.logged r action decision detail).state.audit run := by
  rw [Audited.audit_logged]
  split
  · exact List.prefix_append _ _
  · exact List.prefix_rfl

theorem ExecuteStep.audit_prefix {ex : GuardedExecutor σ} {action : Action} {s s' : Snapshot}
    {answer : Except PyExc ExecutionResult} (h : ExecuteStep ex action s answer s')
    (run : String) : s.state.audit run <+: s'.state.audit run := by
  cases h with
  | corrupt => exact List.prefix_rfl
  | unknownAction => exact List.prefix_rfl
  | unserialisable => exact List.prefix_rfl
  | unstorable => exact List.prefix_rfl
  | breakerOpen => exact prefix_logged (s.called _ _) _ _ _ _ run
  | duplicate => exact prefix_logged (s.called _ _) _ _ _ _ run
  | enqueued => exact prefix_logged ((s.called _ _).held _) _ _ _ _ run
  | undecided => exact prefix_logged (s.called _ _) _ _ _ _ run
  | overBudget => exact prefix_logged (s.called _ _) _ _ _ _ run
  | overCap => exact prefix_logged ((s.called _ _).tripped _) _ _ _ _ run
  | raised => exact prefix_logged ((s.called _ _).invoked _) _ _ _ _ run
  | executed => exact prefix_logged (((s.called _ _).invoked _).settled _ _ _) _ _ _ _ run

/-- No call changes an earlier entry. -/
theorem CallStep.audit_prefix {call : Call σ} {s s' : Snapshot}
    {answer : Except PyExc (Option ExecutionResult)} (h : CallStep s call answer s')
    (run : String) : s.state.audit run <+: s'.state.audit run :=
  h.keeps (P := fun t => s.state.audit run <+: t.state.audit run) (fun _ _ _ hs => hs)
    (fun _ _ _ _ hs hexec => hs.trans (hexec.audit_prefix run)) List.prefix_rfl

/-- The effects of a run stand under distinct keys: as many keys have a result. -/
theorem ncard_results {s : Snapshot} (h : Accounts s) (run : String) :
    {key | (s.state.result run key).isSome}.ncard = (s.effectsIn run).length := by
  have hkeys : ((s.effectsIn run).map fun inv => inv.action.idempotencyKey).Nodup := by
    have hsub : ((s.effectsIn run).map Invocation.runKey).Nodup :=
      h.keys.sublist (List.Sublist.map _ List.filter_sublist)
    refine List.Nodup.of_map (fun key => (run, key)) ?_
    rw [List.map_map]
    refine (List.map_congr_left fun inv hinv => ?_) ▸ hsub
    have hrun : inv.runId = run := by simpa using (List.mem_filter.mp hinv).2
    show (inv.runId, inv.action.idempotencyKey) = (run, inv.action.idempotencyKey)
    rw [hrun]
  have hset : {key | (s.state.result run key).isSome} =
      (((s.effectsIn run).map fun inv => inv.action.idempotencyKey).toFinset : Set String) := by
    ext key
    rw [Set.mem_ofPred_eq, Finset.mem_coe, List.mem_toFinset, List.mem_map,
      Option.isSome_iff_exists]
    constructor
    · rintro ⟨rec, hrec⟩
      obtain ⟨inv, hinv, _, _, hkey, _⟩ := (h.result_iff run key rec).mp hrec
      injection hkey with hr hk
      exact ⟨inv, List.mem_filter.mpr ⟨hinv, decide_eq_true hr⟩, hk⟩
    · rintro ⟨inv, hinv, hk⟩
      obtain ⟨hmem, hr⟩ := List.mem_filter.mp hinv
      obtain ⟨j, hj⟩ := Option.isSome_iff_exists.mp (List.mem_filter.mp hmem).2
      exact ⟨_, (h.result_iff run key _).mpr
        ⟨inv, hmem, j, hj, Prod.ext (of_decide_eq_true hr) hk, rfl⟩⟩
  rw [hset, Set.ncard_coe_finset, List.toFinset_card_of_nodup hkeys, List.length_map]

section Replays

variable {S : Type} [GuardStore S] [LawfulGuardStore S]

theorem audited_runCalls (calls : List (Call σ)) (env : σ) :
    Audited (runCalls calls (World.fresh env : World S σ)).snapshot :=
  runCalls_inv (fun _ h => h.step) calls (by rw [snapshot_fresh]; exact .init)

/-- **The audit log replays to the store.** After any run of calls, for every run id: the
entries are numbered `1..n`, later calls only append to them, and folding them back, in any
order, gives the spend, the subject counts, the number of stored results and the breaker. -/
theorem audit_replays (calls : List (Call σ)) (env : σ) (run : String) :
    let w : World S σ := runCalls calls (.fresh env)
    (GuardStore.readAudit w.store run).map (·.seq) =
      List.range' 1 (GuardStore.readAudit w.store run).length ∧
    (∀ later, GuardStore.readAudit w.store run <+:
      GuardStore.readAudit (runCalls later w).store run) ∧
    ∀ entries : List AuditEntry, entries.Perm (GuardStore.readAudit w.store run) →
      (reconstruct entries).totalCost = GuardStore.accumulatedSpend w.store run ∧
      (∀ subject, ((reconstruct entries).perSubjectExecuted.get? subject).getD 0 =
        GuardStore.subjectExecutedCount w.store run subject) ∧
      (reconstruct entries).executedCount =
        {key | (GuardStore.getResult w.store run key).isSome}.ncard ∧
      (reconstruct entries).breakerTripped = GuardStore.isBreakerOpen w.store run := by
  intro w
  have hbooks : Accounts w.snapshot := Accounts.runCalls calls env
  have haudit : Audited w.snapshot := audited_runCalls calls env
  have hread : GuardStore.readAudit w.store run = w.snapshot.state.audit run :=
    LawfulGuardStore.readAudit_eq w.store run
  have hexec := haudit.executed run
  rw [hread]
  refine ⟨haudit.seqs run, fun later => ?_, fun entries hperm => ?_⟩
  · rw [LawfulGuardStore.readAudit_eq]
    exact runCalls_inv (P := fun s => w.snapshot.state.audit run <+: s.state.audit run)
      (fun _ h hstep => h.trans (hstep.audit_prefix run)) later List.prefix_rfl
  · unfold reconstruct
    rw [mergeSort_of_perm (haudit.seqs run) hperm]
    refine ⟨?_, fun subject => ?_, ?_, ?_⟩
    · -- the costs of the executed entries are those charged
      have hcosts := congrArg (List.map fun about => about.2.2.2) hexec
      rw [List.map_map, List.map_map] at hcosts
      rw [LawfulGuardStore.accumulatedSpend_eq, foldl_totalCost]
      refine (zero_add _).trans ?_
      exact (congrArg List.sum hcosts).trans (hbooks.spend_eq run).symm
    · -- and so are their subjects
      have hsubjects := congrArg (fun l => (l.filter fun about => about.2.1 = subject).length) hexec
      simp only [List.filter_map, List.length_map] at hsubjects
      rw [LawfulGuardStore.subjectExecutedCount_eq, foldl_perSubject]
      refine (Nat.zero_add _).trans (hsubjects.trans ?_)
      refine Eq.trans ?_ (hbooks.count_eq run subject).symm
      unfold Snapshot.effectsIn
      rw [List.filter_filter]
      congr 2
      funext inv
      simp [Action.about, Bool.and_comm]
    · -- each effect stands under its own key
      have hlength := congrArg List.length hexec
      rw [List.length_map, List.length_map] at hlength
      have hresults : {key | (GuardStore.getResult w.store run key).isSome}.ncard =
          (w.snapshot.effectsIn run).length := by
        simp only [LawfulGuardStore.getResult_eq]
        exact ncard_results hbooks run
      rw [hresults, foldl_executedCount]
      exact (Nat.zero_add _).trans hlength
    · -- the fold starts with the breaker closed
      rw [LawfulGuardStore.isBreakerOpen_eq]
      refine Bool.eq_iff_iff.mpr ((foldl_breaker _ _).trans ?_)
      refine Iff.trans ?_ (haudit.breaker run).symm
      exact or_iff_right (by simp [ReplayState.init])

end Replays

end PaymentRecovery.Guardrails

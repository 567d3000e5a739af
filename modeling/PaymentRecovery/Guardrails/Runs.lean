import PaymentRecovery.Python.Encoding
import PaymentRecovery.Guardrails.Protocol
import PaymentRecovery.Lib.Run
import Mathlib.Algebra.BigOperators.Group.List.Basic
import Mathlib.Algebra.Ring.Rat

/-!
# Runs of executor calls

Any number of executors work on one store, one call at a time. A call that
raises ends there and the next one goes on from the state it left. The books of
the guardrail layer, what was stored and charged for which handler run, hold
after every run that starts from an unused store.
-/

namespace PaymentRecovery.Guardrails

open PaymentRecovery.Python PaymentRecovery.Lib

variable {S σ : Type} [GuardStore S]

/-- A world nobody has used. -/
def World.fresh (env : σ) : World S σ := ⟨GuardStore.empty, env, []⟩

/-- One call to its end: what it returns or raises, and the world it leaves. -/
def Call.run (call : Call σ) (w : World S σ) :
    Except PyExc (Option ExecutionResult) × World S σ :=
  call.program.run w

/-- The world after a list of calls. -/
def runCalls (calls : List (Call σ)) (w : World S σ) : World S σ :=
  Run.exec Call.run calls w

theorem runCalls_append (before after : List (Call σ)) (w : World S σ) :
    runCalls (before ++ after) w = runCalls after (runCalls before w) :=
  Run.exec_append Call.run before after w

variable [LawfulGuardStore S]

theorem snapshot_fresh (env : σ) : (World.fresh env : World S σ).snapshot = .init := by
  unfold World.snapshot World.fresh Snapshot.init
  rw [LawfulGuardStore.view_empty]

/-- What every step of the protocol preserves holds after every run. -/
theorem runCalls_inv {P : Snapshot → Prop}
    (hstep : ∀ {s : Snapshot} {call : Call σ} {answer s'}, s.state.Wf → P s →
      CallStep s call answer s' → P s')
    (calls : List (Call σ)) {w : World S σ} (hw : P w.snapshot) :
    P (runCalls calls w).snapshot :=
  Run.exec_inv (P := fun w : World S σ => P w.snapshot)
    (fun w call h => hstep (LawfulGuardStore.view_wf w.store) h (call_step call w)) hw

/-- A call decides an approval, executes an action on its own executor, or does one after
the other: what both keep, every call keeps. -/
theorem CallStep.keeps {P : Snapshot → Prop} {call : Call σ} {s s' : Snapshot}
    {answer : Except PyExc (Option ExecutionResult)} (hstep : CallStep s call answer s')
    (hdecided : ∀ s id st, P s → P (s.decided id st))
    (hexecute : ∀ action s answer s', P s → ExecuteStep call.executor action s answer s' → P s')
    (hs : P s) : P s' := by
  cases hstep with
  | execute ex action answer s' hexec => exact hexecute action s answer s' hs hexec
  | approveRefused => exact hs
  | rejectRefused => exact hs
  | unreadable ex id => exact hdecided s id .approved hs
  | approve ex id rec params answer s' hrec hrun hload hexec =>
    exact hexecute _ _ answer s' (hdecided s id .approved hs) hexec
  | rejectApproval ex id => exact hdecided s id .rejected hs

/-! ## A call runs a handler or it does not -/

/-- A handler runs exactly when every guard lets the action pass, and then once. -/
theorem ExecuteStep.quiet_or_ran {ex : GuardedExecutor σ} {action : Action} {s s' : Snapshot}
    {answer : Except PyExc ExecutionResult} (h : ExecuteStep ex action s answer s') :
    (¬ Admitted ex action s.state ∧ s'.invocations = s.invocations) ∨
    (∃ outcome, Admitted ex action s.state ∧ Yields ex action outcome ∧
      s'.invocations = s.invocations ++ [invocationIn ex action s.state outcome]) := by
  cases h with
  | breakerOpen hopen =>
    exact .inl ⟨fun hadm => by simp [hadm.closed] at hopen, by simp⟩
  | duplicate rec result hclosed hrec hload =>
    exact .inl ⟨fun hadm => by simp [hadm.fresh] at hrec, by simp⟩
  | corrupt rec exc hclosed hrec hload =>
    exact .inl ⟨fun hadm => by simp [hadm.fresh] at hrec, by simp⟩
  | unknownAction hclosed hfresh hunknown =>
    refine .inl ⟨fun hadm => ?_, by simp⟩
    obtain ⟨handler, hknown⟩ := hadm.known
    simp [hknown] at hunknown
  | unserialisable exc hclosed hfresh hgated hnone hdump =>
    refine .inl ⟨fun hadm => ?_, by simp⟩
    obtain ⟨rec, hrec, _⟩ := hadm.approved hgated
    simp [hnone] at hrec
  | enqueued id paramsJson t hclosed hfresh hgated hnone hdump hid =>
    refine .inl ⟨fun hadm => ?_, by simp⟩
    obtain ⟨rec, hrec, _⟩ := hadm.approved hgated
    simp [hnone] at hrec
  | undecided rec detail hclosed hfresh hgated hrec hstate =>
    refine .inl ⟨fun hadm => ?_, by simp⟩
    obtain ⟨rec', hrec', happroved⟩ := hadm.approved hgated
    rw [hrec] at hrec'
    exact hstate (Option.some.inj hrec' ▸ happroved)
  | overBudget detail hclear hbudget =>
    exact .inl ⟨fun hadm => absurd hadm.budget (Int.not_lt.mpr hbudget), by simp⟩
  | overCap hclear hbudget hcap =>
    exact .inl ⟨fun hadm => absurd hadm.cap (Rat.not_le.mpr hcap), by simp⟩
  | raised exc hadm hyields => exact .inr ⟨_, hadm, hyields, by simp⟩
  | unstorable result exc hadm hyields hdump => exact .inr ⟨_, hadm, hyields, by simp⟩
  | executed result resultJson hadm hyields hdump => exact .inr ⟨_, hadm, hyields, by simp⟩

/-! ## The books -/

/-- The run and key a handler was run under. -/
def Invocation.runKey (inv : Invocation) : String × String :=
  (inv.runId, inv.action.idempotencyKey)

/-- The text stored for the result: none if the handler raised or its result has no
JSON text. -/
def Invocation.resultJson (inv : Invocation) : Option JsonText :=
  match inv.outcome with
  | .ok result => (jsonDumps result).toOption
  | .error _ => none

/-- The handler runs whose result was stored. -/
def Snapshot.effects (s : Snapshot) : List Invocation :=
  s.invocations.filter fun inv => inv.resultJson.isSome

theorem Snapshot.effects_invoked_none {s : Snapshot} {inv : Invocation}
    (h : inv.resultJson = none) : (s.invoked inv).effects = s.effects := by
  simp [effects, h]

theorem Snapshot.effects_invoked_some {s : Snapshot} {inv : Invocation} {j : JsonText}
    (h : inv.resultJson = some j) : (s.invoked inv).effects = s.effects ++ [inv] := by
  simp [effects, h]

/-- The stored results are those of the effects, each key has at most one, and the
counters charge each effect once. -/
structure Accounts (s : Snapshot) : Prop where
  keys : (s.effects.map Invocation.runKey).Nodup
  result_iff : ∀ r k rec, s.state.result r k = some rec ↔
    ∃ inv ∈ s.effects, ∃ j, inv.resultJson = some j ∧ inv.runKey = (r, k) ∧
      rec = ⟨r, k, ExecutionStatus.executed.value, j⟩
  count_eq : ∀ r sub, s.state.count r sub =
    (s.effects.filter fun inv => inv.runId = r ∧ inv.action.subjectId = sub).length
  spend_eq : ∀ r, s.state.spend r =
    ((s.effects.filter fun inv => inv.runId = r).map (·.action.cost)).sum

namespace Accounts

theorem init : Accounts .init where
  keys := List.nodup_nil
  result_iff r k rec := by simp [Snapshot.init, GuardState.init, Snapshot.effects,
    Snapshot.invocations]
  count_eq r sub := rfl
  spend_eq r := rfl

variable {s : Snapshot}

theorem called (h : Accounts s) (run : String) (action : Action) :
    Accounts (s.called run action) := by
  have heffects : (s.called run action).effects = s.effects := by simp [Snapshot.effects]
  exact ⟨heffects ▸ h.keys, heffects ▸ h.result_iff, heffects ▸ h.count_eq, heffects ▸ h.spend_eq⟩

theorem logged (h : Accounts s) (run : String) (action : Action) (decision detail : String) :
    Accounts (s.logged run action decision detail) :=
  ⟨h.keys, h.result_iff, h.count_eq, h.spend_eq⟩

theorem held (h : Accounts s) (rec : ApprovalRecord) : Accounts (s.held rec) :=
  ⟨h.keys, h.result_iff, h.count_eq, h.spend_eq⟩

theorem decided (h : Accounts s) (id : ApprovalId) (st : ApprovalState) :
    Accounts (s.decided id st) :=
  ⟨h.keys, h.result_iff, h.count_eq, h.spend_eq⟩

theorem tripped (h : Accounts s) (run : String) : Accounts (s.tripped run) :=
  ⟨h.keys, h.result_iff, h.count_eq, h.spend_eq⟩

/-- A handler run without a storable result leaves the books alone. -/
theorem invoked (h : Accounts s) {inv : Invocation} (hnone : inv.resultJson = none) :
    Accounts (s.invoked inv) := by
  have heffects := Snapshot.effects_invoked_none (s := s) hnone
  exact ⟨heffects ▸ h.keys, heffects ▸ h.result_iff, heffects ▸ h.count_eq, heffects ▸ h.spend_eq⟩

/-- A key without a result has no effect yet. -/
theorem fresh_key (h : Accounts s) {r k : String} (hfresh : s.state.result r k = none) :
    ∀ inv ∈ s.effects, inv.runKey ≠ (r, k) := by
  intro inv hmem hkey
  obtain ⟨j, hj⟩ := Option.isSome_iff_exists.mp (List.mem_filter.mp hmem).2
  have hres := (h.result_iff r k ⟨r, k, _, j⟩).mpr ⟨inv, hmem, j, hj, hkey, rfl⟩
  rw [hfresh] at hres
  cases hres

/-- Storing one more result: it answers its own key, which no effect had, and the other keys
answer as before. -/
theorem result_settled (h : Accounts s) {inv : Invocation} {j : JsonText}
    (hj : inv.resultJson = some j)
    (hfresh : s.state.result inv.runId inv.action.idempotencyKey = none) (r k : String)
    (rec : IdempotencyRecord) :
    ((s.invoked inv).settled inv.runId inv.action j).state.result r k = some rec ↔
      ∃ inv' ∈ s.effects ++ [inv], ∃ j', inv'.resultJson = some j' ∧ inv'.runKey = (r, k) ∧
        rec = ⟨r, k, ExecutionStatus.executed.value, j'⟩ := by
  show (if r = inv.runId ∧ k = inv.action.idempotencyKey then some _
    else s.state.result r k) = some rec ↔ _
  split
  · rename_i hrk
    obtain ⟨rfl, rfl⟩ := hrk
    constructor
    · intro hrec
      exact ⟨inv, List.mem_append_right _ List.mem_cons_self, j, hj, rfl,
        (Option.some.inj hrec).symm⟩
    · rintro ⟨inv', hmem, j', hj', hkey, rfl⟩
      rcases List.mem_append.mp hmem with hold | hnew
      · exact absurd hkey (h.fresh_key hfresh inv' hold)
      · rw [List.mem_singleton.mp hnew, hj] at hj'
        rw [Option.some.inj hj']
  · rename_i hrk
    rw [h.result_iff]
    constructor
    · rintro ⟨inv', hmem, hrest⟩
      exact ⟨inv', List.mem_append_left _ hmem, hrest⟩
    · rintro ⟨inv', hmem, j', hj', hkey, hrec⟩
      rcases List.mem_append.mp hmem with hold | hnew
      · exact ⟨inv', hold, j', hj', hkey, hrec⟩
      · rw [List.mem_singleton.mp hnew] at hkey
        injection hkey with hr hk
        exact absurd ⟨hr.symm, hk.symm⟩ hrk

/-- A handler run with a storable result, charged and stored. -/
theorem settled (h : Accounts s) {inv : Invocation} {j : JsonText}
    (hj : inv.resultJson = some j)
    (hfresh : s.state.result inv.runId inv.action.idempotencyKey = none) :
    Accounts ((s.invoked inv).settled inv.runId inv.action j) := by
  have heffects : ((s.invoked inv).settled inv.runId inv.action j).effects = s.effects ++ [inv] :=
    Snapshot.effects_invoked_some hj
  refine ⟨?_, ?_, ?_, ?_⟩
  · -- its key is new
    rw [heffects, List.map_append, List.nodup_append]
    refine ⟨h.keys, List.nodup_singleton _, ?_⟩
    intro rk hrk rk' hrk' he
    obtain ⟨inv', hmem, rfl⟩ := List.mem_map.mp hrk
    exact h.fresh_key hfresh inv' hmem (he.trans (List.mem_singleton.mp hrk'))
  · intro r k rec
    rw [heffects]
    exact h.result_settled hj hfresh r k rec
  · intro r sub
    rw [heffects, List.filter_append, List.length_append, ← h.count_eq]
    show (if r = inv.runId ∧ sub = inv.action.subjectId then s.state.count r sub + 1
      else s.state.count r sub) = _
    by_cases hrs : inv.runId = r ∧ inv.action.subjectId = sub
    · rw [if_pos ⟨hrs.1.symm, hrs.2.symm⟩]
      simp [hrs]
    · rw [if_neg fun he => hrs ⟨he.1.symm, he.2.symm⟩]
      simp [hrs]
  · intro r
    rw [heffects, List.filter_append, List.map_append, List.sum_append, ← h.spend_eq]
    show (if r = inv.runId then s.state.spend r + inv.action.cost else s.state.spend r) = _
    by_cases hr : inv.runId = r
    · rw [if_pos hr.symm]
      simp [hr]
    · rw [if_neg (Ne.symm hr)]
      simp [hr]

theorem execute {ex : GuardedExecutor σ} {action : Action} {s' : Snapshot}
    {answer : Except PyExc ExecutionResult} (h : Accounts s)
    (hstep : ExecuteStep ex action s answer s') : Accounts s' := by
  cases hstep with
  | breakerOpen => exact (h.called _ _).logged _ _ _ _
  | duplicate => exact (h.called _ _).logged _ _ _ _
  | corrupt => exact h.called _ _
  | unknownAction => exact h.called _ _
  | unserialisable => exact h.called _ _
  | enqueued => exact ((h.called _ _).held _).logged _ _ _ _
  | undecided => exact (h.called _ _).logged _ _ _ _
  | overBudget => exact (h.called _ _).logged _ _ _ _
  | overCap => exact ((h.called _ _).tripped _).logged _ _ _ _
  | raised => exact ((h.called _ _).invoked rfl).logged _ _ _ _
  | unstorable result exc hadm hyields hdump =>
    have hnone : (invocationIn ex action s.state (.ok result)).resultJson = none := by
      simp [Invocation.resultJson, invocationIn, hdump, Except.toOption]
    exact (h.called _ _).invoked hnone
  | executed result resultJson hadm hyields hdump =>
    have hsome : (invocationIn ex action s.state (.ok result)).resultJson = some resultJson := by
      simp [Invocation.resultJson, invocationIn, hdump, Except.toOption]
    exact ((h.called _ _).settled hsome hadm.fresh).logged _ _ _ _

theorem step {call : Call σ} {s' : Snapshot} {answer : Except PyExc (Option ExecutionResult)}
    (h : Accounts s) (hstep : CallStep s call answer s') : Accounts s' :=
  hstep.keeps (fun _ id st hs => hs.decided id st) (fun _ _ _ _ hs hexec => hs.execute hexec) h

/-- The books are right after every run. -/
theorem runCalls (calls : List (Call σ)) (env : σ) :
    Accounts (runCalls calls (World.fresh env : World S σ)).snapshot :=
  runCalls_inv (fun _ h => h.step) calls (by rw [snapshot_fresh]; exact .init)

end Accounts

/-! ## Recorded approvals can be read back -/

/-- Whatever was queued can be presented again. -/
def Readable (s : Snapshot) : Prop :=
  ∀ r k rec, s.state.approval r k = some rec → ∃ params, jsonLoads rec.paramsJson = .ok params

theorem Readable.decided {s : Snapshot} (h : Readable s) (id : ApprovalId) (st : ApprovalState) :
    Readable (s.decided id st) := by
  intro r k rec hrec
  change (if s.state.approvalKey id = some (r, k) then (s.state.approval r k).map _
    else s.state.approval r k) = some rec at hrec
  split at hrec
  · obtain ⟨rec', hrec', rfl⟩ := Option.map_eq_some_iff.mp hrec
    exact h r k rec' hrec'
  · exact h r k rec hrec

theorem Readable.execute {ex : GuardedExecutor σ} {action : Action} {s s' : Snapshot}
    {answer : Except PyExc ExecutionResult} (h : Readable s)
    (hstep : ExecuteStep ex action s answer s') : Readable s' := by
  cases hstep with
  | enqueued id paramsJson t hclosed hfresh hgated hnone hdump hid =>
    intro r k rec hrec
    change (if r = ex.runId ∧ k = action.idempotencyKey then some _
      else s.state.approval r k) = some rec at hrec
    split at hrec
    · rw [← Option.some.inj hrec]
      exact jsonLoads_of_jsonDumps hdump
    · exact h r k rec hrec
  | _ => exact h

theorem Readable.step {call : Call σ} {s s' : Snapshot}
    {answer : Except PyExc (Option ExecutionResult)} (h : Readable s)
    (hstep : CallStep s call answer s') : Readable s' :=
  hstep.keeps (fun _ id st hs => hs.decided id st) (fun _ _ _ _ hs hexec => hs.execute hexec) h

theorem Readable.runCalls (calls : List (Call σ)) (env : σ) :
    Readable (runCalls calls (World.fresh env : World S σ)).snapshot :=
  runCalls_inv (fun _ h => h.step) calls (by
    rw [snapshot_fresh]
    intro r k rec h
    cases h)

/-! ## Stored results can be read back -/

/-- Whatever was stored as a result is a JSON text. -/
def ResultsReadable (s : Snapshot) : Prop :=
  ∀ r k rec, s.state.result r k = some rec → ∃ value, jsonLoads rec.resultJson = .ok value

/-- A stored result is the text of what a handler returned. -/
theorem Accounts.resultsReadable {s : Snapshot} (h : Accounts s) : ResultsReadable s := by
  intro r k rec hrec
  obtain ⟨inv, _, text, htext, _, rfl⟩ := (h.result_iff r k rec).mp hrec
  unfold Invocation.resultJson at htext
  split at htext
  · rename_i result _
    cases hdump : jsonDumps result with
    | error exc =>
      rw [hdump] at htext
      cases htext
    | ok stored =>
      rw [hdump] at htext
      injection htext with htext
      exact htext ▸ jsonLoads_of_jsonDumps hdump
  · cases htext

theorem ResultsReadable.runCalls (calls : List (Call σ)) (env : σ) :
    ResultsReadable (runCalls calls (World.fresh env : World S σ)).snapshot :=
  (Accounts.runCalls calls env).resultsReadable

end PaymentRecovery.Guardrails

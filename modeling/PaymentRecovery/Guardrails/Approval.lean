import PaymentRecovery.Guardrails.Runs
import PaymentRecovery.Guardrails.SqlStore

/-!
# The approval gate

What an approval binds and what a rejection forbids. The gate looks the record
up by key, and its content was fixed when the action was queued: the two agree
for an action that `approve` presents, and otherwise only if the caller presents
the recorded action itself.
-/

namespace PaymentRecovery.Guardrails

open PaymentRecovery.Python PaymentRecovery.Lib

variable {S σ : Type} [GuardStore S]

/-- The record is of this action, and it is approved. -/
structure Binds (rec : ApprovalRecord) (action : Action) : Prop where
  approved : rec.state = .approved
  name : rec.actionName = action.name
  subject : rec.subjectId = action.subjectId
  cost : rec.cost = action.cost
  params : jsonLoads rec.paramsJson = .ok action.params

/-- The handler ran under a threshold its action does not exceed, or the store held an
approval of exactly this action. -/
def Invocation.Bound (inv : Invocation) : Prop :=
  inv.policy.approvalThreshold < inv.action.cost →
    ∃ rec, inv.approval = some rec ∧ Binds rec inv.action

/-- The call does not present, under an approved key, another action than the
approved one: a direct `execute` above the threshold that every guard lets pass
presents the recorded action. -/
def PresentsApproved (s : Snapshot) : Call σ → Prop
  | .execute ex action =>
    ex.policy.approvalThreshold < action.cost → Admitted ex action s.state →
      ∀ rec, s.state.approval ex.runId action.idempotencyKey = some rec → Binds rec action
  | _ => True

/-! ## Steps -/

/-- The record `approve` works on, once marked. -/
theorem approval_decided {g : GuardState} (hwf : g.Wf) {id : ApprovalId} {rec : ApprovalRecord}
    (hrec : g.approvalById id = some rec) (st : ApprovalState) :
    (g.decided id st).approval rec.runId rec.idempotencyKey = some { rec with state := st } := by
  obtain ⟨hid, hown⟩ := hwf.approvalById_own hrec
  obtain ⟨_, _, hkey⟩ := hwf.approval_own _ _ _ hown
  show (if g.approvalKey id = some (rec.runId, rec.idempotencyKey) then _ else _) = _
  rw [if_pos (hid ▸ hkey), hown]
  rfl

/-- A decision on one approval leaves the records of other keys alone. -/
theorem approval_decided_of_ne {g : GuardState} (hwf : g.Wf) {id : ApprovalId}
    {rec : ApprovalRecord} (hrec : g.approvalById id = some rec) (st : ApprovalState)
    {r k : String} (hne : (rec.runId, rec.idempotencyKey) ≠ (r, k)) :
    (g.decided id st).approval r k = g.approval r k := by
  obtain ⟨hid, hown⟩ := hwf.approvalById_own hrec
  obtain ⟨_, _, hkey⟩ := hwf.approval_own _ _ _ hown
  show (if g.approvalKey id = some (r, k) then _ else _) = _
  rw [if_neg]
  rw [← hid, hkey]
  exact fun h => hne (Option.some.inj h)

/-- All handler runs of the journal were bound. -/
def AllBound (s : Snapshot) : Prop :=
  ∀ inv ∈ s.invocations, inv.Bound

theorem allBound_append {s s' : Snapshot} {inv : Invocation}
    (h : s'.invocations = s.invocations ++ [inv]) : AllBound s' ↔ AllBound s ∧ inv.Bound := by
  unfold AllBound
  rw [h]
  constructor
  · intro hall
    exact ⟨fun i hi => hall i (List.mem_append_left _ hi),
      hall inv (List.mem_append_right _ List.mem_cons_self)⟩
  · rintro ⟨hold, hnew⟩ i hi
    rcases List.mem_append.mp hi with h' | h'
    · exact hold i h'
    · rw [List.mem_singleton.mp h']
      exact hnew

theorem allBound_same {s s' : Snapshot} (h : s'.invocations = s.invocations) :
    AllBound s' ↔ AllBound s := by
  unfold AllBound
  rw [h]

/-- An action that passes every guard is bound when the record under its key is of it. -/
theorem bound_iff {ex : GuardedExecutor σ} {action : Action} {g : GuardState}
    (hadm : Admitted ex action g) (outcome : Except PyExc PyVal) :
    (invocationIn ex action g outcome).Bound ↔
      (ex.policy.approvalThreshold < action.cost →
        ∀ rec, g.approval ex.runId action.idempotencyKey = some rec → Binds rec action) := by
  constructor
  · intro hbound hgated rec hrec
    obtain ⟨rec', hrec', hbinds⟩ := hbound hgated
    have hsame : rec' = rec := Option.some.inj (hrec'.symm.trans hrec)
    exact hsame ▸ hbinds
  · intro hall hgated
    obtain ⟨rec, hrec, _⟩ := hadm.approved hgated
    exact ⟨rec, hrec, hall hgated rec hrec⟩

/-- One call keeps every handler run bound if and only if it presents what was approved. -/
theorem allBound_step {s s' : Snapshot} {call : Call σ}
    {answer : Except PyExc (Option ExecutionResult)} (hwf : s.state.Wf)
    (hstep : CallStep s call answer s') :
    AllBound s' ↔ AllBound s ∧ PresentsApproved s call := by
  cases hstep with
  | execute ex action answer s' hexec =>
    rcases hexec.quiet_or_ran with ⟨hnot, hsame⟩ | ⟨outcome, hadm, _, happ⟩
    · rw [allBound_same hsame]
      exact ⟨fun h => ⟨h, fun _ hadm => absurd hadm hnot⟩, And.left⟩
    · rw [allBound_append happ, bound_iff hadm]
      exact and_congr_right fun _ => ⟨fun h hgated _ => h hgated, fun h hgated => h hgated hadm⟩
  | approveRefused => exact ⟨fun h => ⟨h, trivial⟩, And.left⟩
  | rejectRefused => exact ⟨fun h => ⟨h, trivial⟩, And.left⟩
  | unreadable ex id =>
    rw [allBound_same (Snapshot.invocations_decided s id .approved)]
    exact ⟨fun h => ⟨h, trivial⟩, And.left⟩
  | approve ex id rec params answer s' hrec hrun hload hexec =>
    have hsnap := Snapshot.invocations_decided s id .approved
    rcases hexec.quiet_or_ran with ⟨_, hsame⟩ | ⟨outcome, hadm, _, happ⟩
    · rw [allBound_same (hsame.trans hsnap)]
      exact ⟨fun h => ⟨h, trivial⟩, And.left⟩
    · rw [hsnap] at happ
      rw [allBound_append happ, bound_iff hadm]
      -- the record under the key is the one the action was rebuilt from
      have hmarked := approval_decided hwf hrec .approved
      rw [hrun] at hmarked
      refine and_congr_right fun _ => ⟨fun _ => trivial, fun _ _ rec' hrec' => ?_⟩
      rw [← Option.some.inj (hmarked.symm.trans hrec')]
      exact ⟨rfl, rfl, rfl, rfl, hload⟩
  | rejectApproval ex id =>
    rw [allBound_same (Snapshot.invocations_decided s id .rejected)]
    exact ⟨fun h => ⟨h, trivial⟩, And.left⟩

/-! ## Runs -/

section Binding

variable [LawfulGuardStore S]

/-- **Approval binding.** In a run of calls, by any executors over one store, every
handler invocation above its threshold received exactly the approved action if and
only if no call of the run presented another action under an approved key. -/
theorem approval_binding_iff (calls : List (Call σ)) (env : σ) :
    (∀ inv ∈ (runCalls calls (World.fresh env : World S σ)).snapshot.invocations, inv.Bound) ↔
      Run.Along Call.run (fun w call => PresentsApproved w.snapshot call) calls
        (World.fresh env : World S σ) := by
  have hinit : AllBound (World.fresh env : World S σ).snapshot := by
    rw [snapshot_fresh]
    intro inv hinv
    exact absurd hinv List.not_mem_nil
  have hiff := Run.exec_iff_along (P := fun w : World S σ => AllBound w.snapshot)
    (fun w call => allBound_step (LawfulGuardStore.view_wf w.store) (call_step call w))
    calls (World.fresh env)
  exact hiff.trans ⟨And.right, fun h => ⟨hinit, h⟩⟩

end Binding

/-! ## What a rejection forbids -/

/-- The handler runs under one run and key. -/
def Snapshot.invocationsUnder (s : Snapshot) (run key : String) : List Invocation :=
  s.invocations.filter fun inv => inv.runKey = (run, key)

/-- The call does not go around the rejection of `id`: it does not approve that very
approval while the run is not halted, and it does not get an action with the key through
the guards at a cost the gate never looks at. -/
def LeavesRejected (id : ApprovalId) (run key : String) (s : Snapshot) : Call σ → Prop
  | .execute ex action =>
    ex.runId = run → action.idempotencyKey = key →
      action.cost ≤ ex.policy.approvalThreshold → ¬ Admitted ex action s.state
  | .approve ex id' => ex.runId = run → s.state.breaker run = false → id' ≠ id
  | .rejectApproval _ _ => True

/-- Nothing under the key can run: the run is halted, or the key's approval is rejected. -/
def Shut (id : ApprovalId) (run key : String) (g : GuardState) : Prop :=
  g.breaker run = true ∨
  ∃ rec, g.approval run key = some rec ∧ rec.approvalId = id ∧ rec.state = .rejected

/-- A call to `execute` opens nothing that was shut. -/
theorem Shut.execute {id : ApprovalId} {run key : String} {ex : GuardedExecutor σ}
    {action : Action} {s s' : Snapshot} {answer : Except PyExc ExecutionResult}
    (h : Shut id run key s.state) (hstep : ExecuteStep ex action s answer s') :
    Shut id run key s'.state := by
  cases hstep with
  | enqueued id' paramsJson t hclosed hfresh hgated hnone hdump hid =>
    refine h.imp_right ?_
    rintro ⟨rec, hrec, hrest⟩
    refine ⟨rec, ?_, hrest⟩
    show (if run = ex.runId ∧ key = action.idempotencyKey then _ else _) = _
    rw [if_neg]
    · exact hrec
    · rintro ⟨rfl, rfl⟩
      rw [hnone] at hrec
      cases hrec
  | overCap =>
    refine h.imp_left fun hopen => ?_
    show (if run = ex.runId then true else s.state.breaker run) = true
    rw [hopen, ite_self]
  | _ => exact h

/-- A shut key admits only what the gate never looks at. -/
theorem Shut.not_admitted {id : ApprovalId} {run key : String} {ex : GuardedExecutor σ}
    {action : Action} {g : GuardState} (h : Shut id run key g) (hrun : ex.runId = run)
    (hkey : action.idempotencyKey = key) (hgated : ex.policy.approvalThreshold < action.cost) :
    ¬ Admitted ex action g := by
  intro hadm
  rcases h with hopen | ⟨rec, hrec, _, hrejected⟩
  · rw [← hrun, hadm.closed] at hopen
    cases hopen
  · obtain ⟨rec', hrec', happroved⟩ := hadm.approved hgated
    rw [hrun, hkey, hrec] at hrec'
    rw [← Option.some.inj hrec', hrejected] at happroved
    cases happroved

/-- Deciding another approval, or rejecting this one again, opens nothing. -/
theorem Shut.decided {id id' : ApprovalId} {run key : String} {g : GuardState} (hwf : g.Wf)
    (h : Shut id run key g) {rec : ApprovalRecord} (hrec : g.approvalById id' = some rec)
    {st : ApprovalState} (hother : g.breaker run = false → id' ≠ id ∨ st = .rejected) :
    Shut id run key (g.decided id' st) := by
  cases hb : g.breaker run with
  | true => exact .inl hb
  | false =>
    rcases h with hopen | ⟨rec', hrec', hid', hrejected⟩
    · rw [hb] at hopen
      cases hopen
    · right
      obtain ⟨hid, hown⟩ := hwf.approvalById_own hrec
      by_cases hsame : (rec.runId, rec.idempotencyKey) = (run, key)
      · injection hsame with hr hk
        have heq : rec = rec' := by
          rw [hr, hk] at hown
          exact Option.some.inj (hown.symm.trans hrec')
        have hst : st = .rejected := by
          rcases hother hb with hne | hst
          · exact absurd (hid.symm.trans (heq ▸ hid')) hne
          · exact hst
        have hdec := approval_decided hwf hrec st
        rw [hr, hk] at hdec
        exact ⟨_, hdec, heq ▸ hid', hst⟩
      · exact ⟨rec', (approval_decided_of_ne hwf hrec st hsame).trans hrec', hid', hrejected⟩

theorem invocationsUnder_same {s s' : Snapshot} (h : s'.invocations = s.invocations)
    (run key : String) : s'.invocationsUnder run key = s.invocationsUnder run key := by
  unfold Snapshot.invocationsUnder
  rw [h]

/-- A handler that ran under another run or key. -/
theorem invocationsUnder_other {s s' : Snapshot} {inv : Invocation}
    (h : s'.invocations = s.invocations ++ [inv]) {run key : String}
    (hne : inv.runKey ≠ (run, key)) :
    s'.invocationsUnder run key = s.invocationsUnder run key := by
  unfold Snapshot.invocationsUnder
  rw [h]
  simp [hne]

/-- In a run that is not halted, an approval that may still be approved is another one,
and sits under another key. -/
theorem LeavesRejected.approve_other {id id' : ApprovalId} {run key : String}
    {ex : GuardedExecutor σ} {s : Snapshot} (hwf : s.state.Wf)
    (hshut : Shut id run key s.state) (hcall : LeavesRejected id run key s (.approve ex id'))
    {rec : ApprovalRecord} (hrec : s.state.approvalById id' = some rec)
    (hrun : rec.runId = ex.runId) (hb : s.state.breaker run = false) :
    id' ≠ id ∧ (rec.runId, rec.idempotencyKey) ≠ (run, key) := by
  rcases hshut with hopen | ⟨rec', hrec', hid', _⟩
  · rw [hb] at hopen
    cases hopen
  · obtain ⟨hr', _, _⟩ := hwf.approval_own _ _ _ hrec'
    obtain ⟨hid, hown⟩ := hwf.approvalById_own hrec
    have hne : id' ≠ id := by
      intro he
      have hby := hwf.approvalById_of_approval hrec'
      rw [hid', ← he, hrec] at hby
      exact hcall (by rw [← hrun, Option.some.inj hby, hr']) hb he
    refine ⟨hne, fun hsame => hne ?_⟩
    injection hsame with hr hk
    rw [hr, hk] at hown
    rw [← hid, Option.some.inj (hown.symm.trans hrec'), hid']

/-- One call that leaves the rejection in place keeps the key shut and runs nothing
under it. -/
theorem shut_step {id : ApprovalId} {run key : String} {s s' : Snapshot} {call : Call σ}
    {answer : Except PyExc (Option ExecutionResult)} (hwf : s.state.Wf)
    (hshut : Shut id run key s.state) (hcall : LeavesRejected id run key s call)
    (hstep : CallStep s call answer s') :
    Shut id run key s'.state ∧ s'.invocationsUnder run key = s.invocationsUnder run key := by
  cases hstep with
  | execute ex action answer s' hexec =>
    refine ⟨hshut.execute hexec, ?_⟩
    rcases hexec.quiet_or_ran with ⟨_, hsame⟩ | ⟨outcome, hadm, _, happ⟩
    · exact invocationsUnder_same hsame run key
    · refine invocationsUnder_other happ fun hrk => ?_
      injection hrk with hr hk
      -- below the threshold the condition refuses it, above it the gate does
      by_cases hgated : ex.policy.approvalThreshold < action.cost
      · exact hshut.not_admitted hr hk hgated hadm
      · exact hcall hr hk (Rat.not_lt.mp hgated) hadm
  | approveRefused => exact ⟨hshut, rfl⟩
  | rejectRefused => exact ⟨hshut, rfl⟩
  | unreadable ex id' rec exc hrec hrun hload =>
    exact ⟨hshut.decided hwf hrec fun hb =>
      .inl (LeavesRejected.approve_other hwf hshut hcall hrec hrun hb).1, rfl⟩
  | approve ex id' rec params answer s' hrec hrun hload hexec =>
    have hother := LeavesRejected.approve_other hwf hshut hcall hrec hrun
    have hshut' : Shut id run key (s.decided id' .approved).state :=
      hshut.decided hwf hrec fun hb => .inl (hother hb).1
    refine ⟨hshut'.execute hexec, ?_⟩
    rcases hexec.quiet_or_ran with ⟨_, hsame⟩ | ⟨outcome, hadm, _, happ⟩
    · exact invocationsUnder_same hsame run key
    · refine (invocationsUnder_other happ fun hrk => ?_)
      injection hrk with hr hk
      have hb : s.state.breaker run = false := hr ▸ hadm.closed
      exact (hother hb).2 (by rw [hrun]; exact Prod.ext hr hk)
  | rejectApproval ex id' rec hrec hrun =>
    exact ⟨hshut.decided hwf hrec fun _ => .inr rfl, rfl⟩

section Rejection

variable [LawfulGuardStore S]

/-- What `reject_approval` leaves when it returns. -/
theorem run_rejectApproval {ex : GuardedExecutor σ} {id : ApprovalId} {w : World S σ}
    (hret : (Call.run (.rejectApproval ex id) w).1 = .ok none) :
    ∃ rec, w.snapshot.state.approvalById id = some rec ∧ rec.runId = ex.runId ∧
      (Call.run (.rejectApproval ex id) w).2.snapshot = w.snapshot.decided id .rejected := by
  have hstep := call_step (.rejectApproval ex id) w
  unfold Call.run at hret ⊢
  rw [hret] at hstep
  generalize ((Call.rejectApproval ex id).program.run w).2.snapshot = s' at hstep ⊢
  cases hstep with
  | rejectApproval _ _ rec hrec hrun => exact ⟨rec, hrec, hrun, rfl⟩

/-- **A rejection is final when nothing goes around it.** After `reject_approval` has
returned, in every run whose calls neither approve that approval again nor get an action
with its key past the guards below the threshold, no handler runs under the key. -/
theorem rejection_final (before after : List (Call σ)) (env : σ) (ex : GuardedExecutor σ)
    (id : ApprovalId) (rec : ApprovalRecord)
    (hrec : (runCalls before (World.fresh env : World S σ)).snapshot.state.approvalById id =
      some rec)
    (hret : (Call.run (.rejectApproval ex id)
      (runCalls before (World.fresh env : World S σ))).1 = .ok none)
    (hafter : Run.Along Call.run
      (fun w call => LeavesRejected id rec.runId rec.idempotencyKey w.snapshot call) after
      (runCalls (before ++ [.rejectApproval ex id]) (World.fresh env : World S σ))) :
    (runCalls (before ++ .rejectApproval ex id :: after)
        (World.fresh env : World S σ)).snapshot.invocationsUnder rec.runId rec.idempotencyKey =
      (runCalls before
        (World.fresh env : World S σ)).snapshot.invocationsUnder rec.runId rec.idempotencyKey := by
  have hwf := LawfulGuardStore.view_wf (runCalls before (World.fresh env : World S σ)).store
  obtain ⟨rec', hrec', _, hsnap⟩ := run_rejectApproval hret
  obtain ⟨hid, _⟩ := GuardState.Wf.approvalById_own hwf hrec
  have hsplit : runCalls (before ++ .rejectApproval ex id :: after) (World.fresh env : World S σ) =
      runCalls after (runCalls (before ++ [.rejectApproval ex id]) (World.fresh env)) := by
    rw [← runCalls_append, List.append_assoc]
    rfl
  have hrejected : (runCalls (before ++ [.rejectApproval ex id])
      (World.fresh env : World S σ)).snapshot =
      (runCalls before (World.fresh env : World S σ)).snapshot.decided id .rejected := by
    rw [runCalls_append]
    exact hsnap
  have hshut : Shut id rec.runId rec.idempotencyKey (runCalls (before ++ [.rejectApproval ex id])
      (World.fresh env : World S σ)).snapshot.state := by
    rw [hrejected]
    exact .inr ⟨_, approval_decided hwf hrec .rejected, hid, rfl⟩
  rw [hsplit]
  have hinv := Run.exec_inv_along
    (P := fun w : World S σ => Shut id rec.runId rec.idempotencyKey w.snapshot.state ∧
      w.snapshot.invocationsUnder rec.runId rec.idempotencyKey =
        (runCalls before (World.fresh env : World S σ)).snapshot.invocationsUnder rec.runId
          rec.idempotencyKey)
    (fun w call hw hcall => by
      obtain ⟨hkeep, hsame⟩ := shut_step (LawfulGuardStore.view_wf w.store) hw.1 hcall
        (call_step call w)
      exact ⟨hkeep, hsame.trans hw.2⟩)
    ⟨hshut, by rw [hrejected]; rfl⟩ hafter
  exact hinv.2

end Rejection

/-! ## Sample runs

Above 500 a human decides. The handler refuses amounts of exactly 600, so an approved
600 stays approved without having run. -/

namespace Sample

/-- Above 500 a human decides; otherwise the limits are wide. -/
def policy : GuardPolicy := ⟨500, 5, 10000⟩

/-- Refuses amounts of exactly 600, and otherwise answers nothing. -/
def handler : EffectHandler Unit := fun action env =>
  if action.cost = 600 then (.error ⟨.other "RuntimeError", "declined"⟩, env)
  else (.ok .none, env)

def executor : GuardedExecutor Unit :=
  (GuardedExecutor.new "run" policy fun env => (0, env)).register "pay" handler

def pay (cost : ℚ) : Action := ⟨"pay", "order", "key", cost, .dict []⟩

/-- The world after some calls on the sample executor. -/
def after (calls : List (Call Unit)) : World SqlGuardStore Unit :=
  runCalls calls (.fresh ())

/-- The record queued for a payment. -/
def queued (cost : ℚ) : ApprovalRecord :=
  ⟨⟨0⟩, "run", "key", "pay", "order", cost, .doc (.obj []), .pending, 0⟩

end Sample

open Sample

/-- The approved payment of 600 fails; a payment of 900 then runs under its approval. -/
theorem costlier_payment_runs :
    (after [.execute executor (pay 600), .approve executor ⟨0⟩,
      .execute executor (pay 900)]).snapshot.invocations.map
        (fun inv => (inv.policy.approvalThreshold, inv.action.cost, inv.approval.map (·.cost))) =
      [(500, 600, some 600), (500, 900, some 600)] := by
  decide +kernel

/-- So an approval given for one action lets a costlier one run under its key. -/
theorem approval_not_binding :
    ¬ ∀ calls : List (Call Unit), (∀ call ∈ calls, call.executor.runId = "run") →
      ∀ inv ∈ (runCalls calls
        (World.fresh () : World SqlGuardStore Unit)).snapshot.invocations, inv.Bound := by
  intro hall
  have hmem : (500, 900, some 600) ∈ (after [.execute executor (pay 600),
      .approve executor ⟨0⟩, .execute executor (pay 900)]).snapshot.invocations.map
      fun inv => (inv.policy.approvalThreshold, inv.action.cost, inv.approval.map (·.cost)) := by
    rw [costlier_payment_runs]
    exact List.mem_cons_of_mem _ List.mem_cons_self
  obtain ⟨inv, hinv, hshape⟩ := List.mem_map.mp hmem
  injection hshape with hthreshold hrest
  injection hrest with hcost happroval
  have hbound := hall _ (by decide) inv hinv (by rw [hthreshold, hcost]; decide +kernel)
  obtain ⟨rec, hrec, hbinds⟩ := hbound
  rw [hrec, Option.map_some] at happroval
  rw [← hbinds.cost, Option.some.inj happroval] at hcost
  exact absurd hcost (by decide +kernel)

/-- A rejected payment of 600, presented once more. -/
theorem rejection_final_sample :
    (after ([.execute executor (pay 600)] ++ .rejectApproval executor ⟨0⟩ ::
        [.execute executor (pay 600)])).snapshot.invocationsUnder "run" "key" =
      (after [.execute executor (pay 600)]).snapshot.invocationsUnder "run" "key" :=
  rejection_final [.execute executor (pay 600)] [.execute executor (pay 600)] () executor ⟨0⟩
    (queued 600) rfl rfl ⟨fun _ _ hle => absurd hle (by decide +kernel), trivial⟩

/-- A rejected payment of 900 runs once somebody approves it after all. -/
theorem rejection_not_final :
    ¬ ∀ (before after : List (Call Unit)) (ex : GuardedExecutor Unit) (id : ApprovalId)
      (rec : ApprovalRecord),
      (runCalls before
        (World.fresh () : World SqlGuardStore Unit)).snapshot.state.approvalById id = some rec →
      (Call.run (.rejectApproval ex id)
        (runCalls before (World.fresh () : World SqlGuardStore Unit))).1 = .ok none →
      (runCalls before (World.fresh () : World SqlGuardStore Unit)).snapshot.state.result
        rec.runId rec.idempotencyKey = none →
      (runCalls (before ++ .rejectApproval ex id :: after) (World.fresh () :
          World SqlGuardStore Unit)).snapshot.invocationsUnder rec.runId rec.idempotencyKey =
        (runCalls before (World.fresh () :
          World SqlGuardStore Unit)).snapshot.invocationsUnder rec.runId rec.idempotencyKey := by
  intro hall
  have hsame := congrArg List.length (hall [.execute executor (pay 900)] [.approve executor ⟨0⟩]
    executor ⟨0⟩ (queued 900) rfl rfl rfl)
  exact absurd hsame (by decide +kernel)

end PaymentRecovery.Guardrails

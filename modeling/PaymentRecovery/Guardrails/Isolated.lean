import PaymentRecovery.Guardrails.Apart
import PaymentRecovery.Guardrails.Runs
import PaymentRecovery.Guardrails.StoreParity

/-!
# Runs are isolated

Executors of many runs share one store. Whatever the others call in between, what a run
sees of the store and of its handlers is what it would see if its own calls were the only
ones: a call of another run leaves the part of this run alone, and a call of this run
reads and writes that part only. Approval ids are global, so the two histories name the
approvals differently.
-/

namespace PaymentRecovery.Guardrails

open PaymentRecovery.Python PaymentRecovery.Lib Program GuardedExecutor LawfulGuardStore

variable {ι S T σ ρ κ : Type}

/-! ## The handler run of one call -/

section Invocations

variable [GuardStore S] [LawfulGuardStore S] {ex : GuardedExecutor σ} {action : Action}
  {w : World S σ}

/-- The gate lets an action pass that is below the threshold or approved. -/
theorem run_approvalGate_passes (h : ex.policy.approvalThreshold < action.cost →
    ∃ rec, w.view.approval ex.runId action.idempotencyKey = some rec ∧ rec.state = .approved) :
    (ex.approvalGate action).run w = (.ok none, w) := by
  unfold approvalGate
  split
  · rename_i hgated
    obtain ⟨rec, hrec, hstate⟩ := h hgated
    simp only [run_bind, run_read, getApproval_eq, hrec, run_pure, if_pos hstate]
  · rfl

omit [LawfulGuardStore S] in
/-- The effect is journalled once, whatever becomes of its result. -/
theorem perform_journal (handler : EffectHandler σ) :
    ((ex.perform handler action).run w).2.journal = w.journal ++
      [.invoked ⟨ex.runId, ex.policy, action, GuardStore.getApproval w.store ex.runId
        action.idempotencyKey, (handler action w.env).1⟩] := by
  unfold perform invoke
  rw [run_bind, run_tryCatch, run_attempt]
  dsimp only
  cases houtcome : (handler action w.env).1 with
  | error exc => rfl
  | ok result =>
    cases hdump : jsonDumps result with
    | error exc =>
      simp only [run_bind, hdump, run_orRaise]
    | ok resultJson =>
      simp only [run_bind, hdump, run_orRaise, run_write, run_finish]
      rfl

/-- An admitted action is handed to its handler, in the environment the call was made in. -/
theorem execute_invokes (hadm : Admitted ex action w.view) {handler : EffectHandler σ}
    (hhandler : ex.handlers.get? action.name = some handler) :
    ((ex.execute action).run w).2.snapshot.invocations = w.snapshot.invocations ++
      [invocationIn ex action w.view (handler action w.env).1] := by
  have hpasses : (ex.approvalGate action).run
      { w with journal := w.journal ++ [.called ex.runId action] } =
      (.ok none, { w with journal := w.journal ++ [.called ex.runId action] }) :=
    run_approvalGate_passes hadm.approved
  have hjournal : ((ex.execute action).run w).2.journal = w.journal ++
      [.called ex.runId action] ++ [.invoked (invocationIn ex action w.view
        (handler action w.env).1)] := by
    unfold execute
    simp only [run_bind, run_step, isBreakerOpen_eq]
    rw [show (view w.store).breaker ex.runId = false from hadm.closed]
    simp only [Bool.false_eq_true, if_false, run_bind, run_read, getResult_eq]
    rw [show (view w.store).result ex.runId action.idempotencyKey = none from hadm.fresh]
    dsimp only
    rw [hhandler]
    simp only [run_bind, hpasses]
    unfold spend
    simp only [run_bind, run_read, subjectExecutedCount_eq, accumulatedSpend_eq]
    rw [if_neg (Int.not_le.mpr hadm.budget)]
    simp only [run_bind, run_read]
    rw [if_neg (Rat.not_lt.mpr hadm.cap), perform_journal, getApproval_eq]
    rfl
  unfold Snapshot.invocations World.snapshot
  dsimp only
  rw [hjournal, List.filterMap_append, List.filterMap_append]
  simp

end Invocations

/-! ## Handler runs side by side -/

/-- The handler run, its approval under another id and without its clock reading. -/
def Invocation.renamed (π : ApprovalId → ApprovalId) (inv : Invocation) : Invocation :=
  { inv with approval := inv.approval.map (ApprovalRecord.renamed π) }

/-- The handler runs of one run. -/
def Snapshot.invocationsOf (s : Snapshot) (run : String) : List Invocation :=
  s.invocations.filter fun inv => inv.runId = run

/-- The same handlers ran, up to the names of the approvals. -/
def SameRuns (π : ApprovalId → ApprovalId) (as bs : List Invocation) : Prop :=
  as.map (Invocation.renamed π) = bs.map (Invocation.renamed id)

/-- The handler runs that a call added are of one run. -/
structure AddsRuns (run : String) (s s' : Snapshot) (new : List Invocation) : Prop where
  added : s'.invocations = s.invocations ++ new
  own : ∀ inv ∈ new, inv.runId = run

namespace AddsRuns

variable {run : String} {s s' t t' : Snapshot} {new new' : List Invocation}

theorem none (h : s'.invocations = s.invocations) : AddsRuns run s s' [] :=
  ⟨by rw [h, List.append_nil], by simp⟩

theorem apart (h : AddsRuns run s s' new) {r : String} (hr : r ≠ run) :
    s'.invocationsOf r = s.invocationsOf r := by
  have hnone : new.filter (fun inv => inv.runId = r) = [] := by
    refine List.filter_eq_nil_iff.mpr fun inv hinv hown => hr ?_
    rw [← h.own inv hinv]
    exact (of_decide_eq_true hown).symm
  unfold Snapshot.invocationsOf
  rw [h.added, List.filter_append, hnone, List.append_nil]

theorem own_eq (h : AddsRuns run s s' new) :
    s'.invocationsOf run = s.invocationsOf run ++ new := by
  unfold Snapshot.invocationsOf
  rw [h.added, List.filter_append,
    List.filter_eq_self.mpr fun inv hinv => decide_eq_true (h.own inv hinv)]

/-- Two histories of one run go on alike. -/
theorem alike (h : AddsRuns run s s' new) (h' : AddsRuns run t t' new')
    {π : ApprovalId → ApprovalId} (hnew : SameRuns π new new')
    (hold : SameRuns π (s.invocationsOf run) (t.invocationsOf run)) :
    SameRuns π (s'.invocationsOf run) (t'.invocationsOf run) := by
  unfold SameRuns at hnew hold ⊢
  rw [h.own_eq, h'.own_eq, List.map_append, List.map_append, hold, hnew]

end AddsRuns

section Coupled

variable {U : String → Prop} {E : σ → ρ → Prop} {ex : GuardedExecutor σ} {ex' : GuardedExecutor ρ}
  {action : Action} {g h : GuardState}

/-- The other way round. -/
theorem SameExecutor.symm (hex : SameExecutor E ex ex') :
    SameExecutor (fun b a => E a b) ex' ex := by
  refine ⟨hex.runId.symm, hex.policy.symm, fun b a h => hex.clock a b h, fun name => ?_⟩
  rcases hex.handlers name with ⟨hnone, hnone'⟩ | ⟨handler, handler', hsome, hsome', hsame⟩
  · exact .inl ⟨hnone', hnone⟩
  · exact .inr ⟨handler', handler, hsome', hsome, fun action b a h =>
      ⟨(hsame action a b h).1.symm, (hsame action a b h).2⟩⟩

/-- What one side admits, the other does. -/
theorem Admitted.coupled (hadm : Admitted ex action g) (hex : SameExecutor E ex ex')
    (hU : U ex.runId) (hg : g.Agree U h) : Admitted ex' action h where
  closed := by
    rw [← hex.runId, ← hg.breaker _ hU]
    exact hadm.closed
  fresh := by
    rw [← hex.runId, ← hg.result _ _ hU]
    exact hadm.fresh
  known := by
    obtain ⟨handler, hknown⟩ := hadm.known
    rcases hex.handlers action.name with ⟨hnone, _⟩ | ⟨_, handler', _, hsome', _⟩
    · rw [hnone] at hknown
      cases hknown
    · exact ⟨handler', hsome'⟩
  approved hgated := by
    rw [← hex.policy] at hgated
    obtain ⟨rec, hrec, hstate⟩ := hadm.approved hgated
    obtain ⟨rec', hrec', hcontent⟩ := hg.approval_some hU hrec
    rw [← hex.runId]
    refine ⟨rec', hrec', ?_⟩
    show rec'.content.state = .approved
    rw [← hcontent]
    exact hstate
  budget := by
    rw [← hex.runId, ← hex.policy, ← hg.count _ _ hU]
    exact hadm.budget
  cap := by
    rw [← hex.runId, ← hex.policy, ← hg.spend _ hU]
    exact hadm.cap

variable [GuardStore S] [LawfulGuardStore S] [GuardStore T] [LawfulGuardStore T]

/-- One call on both sides runs the handler on both or on neither, with the same outcome. -/
theorem execute_runs_alike (hex : SameExecutor E ex ex') (hU : U ex.runId) (action : Action)
    {w : World S σ} {v : World T ρ} (hpar : Parallel U E w v) :
    ∃ new new', AddsRuns ex.runId w.snapshot ((ex.execute action).run w).2.snapshot new ∧
      AddsRuns ex.runId v.snapshot ((ex'.execute action).run v).2.snapshot new' ∧
      ∀ π, GuardState.Linked π w.view v.view → SameRuns π new new' := by
  by_cases hadm : Admitted ex action w.view
  · have hadm' := hadm.coupled hex hU hpar.agree
    obtain ⟨handler, hknown⟩ := hadm.known
    rcases hex.handlers action.name with ⟨hnone, _⟩ | ⟨first, second, hfirst, hsecond, hsame⟩
    · rw [hnone] at hknown
      cases hknown
    · refine ⟨[_], [_], ⟨execute_invokes hadm hfirst, by simp [invocationIn]⟩,
        ⟨execute_invokes hadm' hsecond, by simp [invocationIn, hex.runId]⟩, fun π hπ => ?_⟩
      have houtcome := (hsame action _ _ hpar.env).1
      have happroval := hπ.approval hpar.agree (view_wf _) (view_wf _) hU action.idempotencyKey
      unfold SameRuns
      simp only [List.map_cons, List.map_nil, Invocation.renamed, invocationIn, ← hex.runId,
        ← hex.policy, houtcome, happroval]
  · have hadm' : ¬ Admitted ex' action v.view := fun h =>
      hadm (h.coupled hex.symm (hex.runId ▸ hU) hpar.agree.symm)
    refine ⟨[], [], .none ?_, .none ?_, fun _ _ => rfl⟩
    · rcases (execute_step ex action w).quiet_or_ran with ⟨_, hquiet⟩ | ⟨_, h, _⟩
      · exact hquiet
      · exact absurd h hadm
    · rcases (execute_step ex' action v).quiet_or_ran with ⟨_, hquiet⟩ | ⟨_, h, _⟩
      · exact hquiet
      · exact absurd h hadm'

end Coupled

/-! ## Calls of another run -/

section Apart

variable {U : String → Prop} {s s' : Snapshot} {call : Call σ}
  {answer : Except PyExc (Option ExecutionResult)}

theorem GuardState.Agree.decided_apart {g h : GuardState} (hg : Agree U g h) {id : ApprovalId}
    (hown : ∀ rk, h.approvalKey id = some rk → ¬ U rk.1) (st : ApprovalState) :
    Agree U g (h.decided id st) := by
  refine { hg with approval := fun r k hr => ?_ }
  unfold GuardState.decided
  dsimp only
  rw [if_neg fun hkey => hown (r, k) hkey hr]
  exact hg.approval r k hr

/-- Whoever may decide an approval owns it. -/
theorem GuardState.Wf.approvalKey_of_byId {g : GuardState} (hwf : g.Wf) {id : ApprovalId}
    {rec : ApprovalRecord} (hrec : g.approvalById id = some rec) :
    g.approvalKey id = some (rec.runId, rec.idempotencyKey) := by
  obtain ⟨hid, hown⟩ := hwf.approvalById_own hrec
  rw [← hid]
  exact (hwf.approval_own _ _ _ hown).2.2

/-- A call of a run that is none of `U` leaves the runs in `U` as they are. -/
theorem CallStep.agree_apart (hstep : CallStep s call answer s') (hwf : s.state.Wf)
    (hU : ¬ U call.executor.runId) : s.state.Agree U s'.state := by
  have hsame := GuardState.Agree.refl (U := U) s.state
  have hdecided : ∀ {id rec} (ex : GuardedExecutor σ), ¬ U ex.runId →
      s.state.approvalById id = some rec → rec.runId = ex.runId →
      ∀ st, s.state.Agree U (s.state.decided id st) := by
    intro id rec ex hU hrec hrun st
    refine hsame.decided_apart (fun rk hkey => ?_) st
    rw [hwf.approvalKey_of_byId hrec] at hkey
    injection hkey with hkey
    rw [← hkey, hrun]
    exact hU
  cases hstep with
  | execute ex action answer s' hexec => exact hexec.agree_apart hU
  | approveRefused => exact hsame
  | rejectRefused => exact hsame
  | unreadable ex id rec exc hrec hrun => exact hdecided ex hU hrec hrun _
  | approve ex id rec params answer s' hrec hrun hload hexec =>
    exact (hdecided ex hU hrec hrun .approved).trans (hexec.agree_apart hU)
  | rejectApproval ex id rec hrec hrun => exact hdecided ex hU hrec hrun _

/-- A call runs handlers of its own run only. -/
theorem CallStep.adds_runs (hstep : CallStep s call answer s') :
    ∃ new, AddsRuns call.executor.runId s s' new := by
  have hexecute : ∀ {ex : GuardedExecutor σ} {action : Action} {s s' : Snapshot}
      {answer : Except PyExc ExecutionResult}, ExecuteStep ex action s answer s' →
      ∃ new, AddsRuns ex.runId s s' new := by
    intro ex action s s' answer hexec
    rcases hexec.quiet_or_ran with ⟨_, hquiet⟩ | ⟨outcome, _, _, hran⟩
    · exact ⟨[], .none hquiet⟩
    · exact ⟨_, hran, by simp [invocationIn]⟩
  cases hstep with
  | execute ex action answer s' hexec => exact hexecute hexec
  | approveRefused => exact ⟨[], .none rfl⟩
  | rejectRefused => exact ⟨[], .none rfl⟩
  | unreadable => exact ⟨[], .none rfl⟩
  | approve ex id rec params answer s' hrec hrun hload hexec =>
    obtain ⟨new, hnew⟩ := hexecute hexec
    exact ⟨new, hnew.added, hnew.own⟩
  | rejectApproval => exact ⟨[], .none rfl⟩

end Apart

/-! ## Decisions of the run itself -/

section Decisions

variable {U : String → Prop} {E : σ → ρ → Prop} {ex : GuardedExecutor σ} {ex' : GuardedExecutor ρ}
  [GuardStore S] [LawfulGuardStore S] [GuardStore T] [LawfulGuardStore T] {w : World S σ}
  {v : World T ρ} {a b : ApprovalId}

/-- Approving runs the handler on both sides or on neither. -/
theorem approve_runs_alike (hex : SameExecutor E ex ex') (hU : U ex.runId)
    (hpar : Parallel U E w v) (hown : ∀ rk, w.view.approvalKey a = some rk → U rk.1)
    (hab : w.view.SameApproval v.view a b) :
    ∃ new new', AddsRuns ex.runId w.snapshot ((ex.approve a).run w).2.snapshot new ∧
      AddsRuns ex.runId v.snapshot ((ex'.approve b).run v).2.snapshot new' ∧
      ∀ π, GuardState.Linked π w.view v.view → SameRuns π new new' := by
  obtain ⟨rec, rec', hrec, hrec', hcontent, hruns⟩ := known_records hex hpar hown hab
  by_cases hrun : rec.runId = ex.runId
  · obtain ⟨w', henv, hw, happrove⟩ := run_approve hrec hrun
    obtain ⟨v', henv', hv, happrove'⟩ := run_approve hrec' (hruns.mp hrun)
    have haction : actionFromApproval rec = actionFromApproval rec' :=
      show actionFromApproval rec.content = actionFromApproval rec'.content by rw [hcontent]
    have hpar' := decided_parallel hpar hab hw hv henv henv'
    -- marking the record runs nothing
    have hmarked : w'.snapshot.invocations = w.snapshot.invocations := by
      rw [hw, Snapshot.invocations_decided]
    have hmarked' : v'.snapshot.invocations = v.snapshot.invocations := by
      rw [hv, Snapshot.invocations_decided]
    rw [happrove, happrove', ← haction, run_bind, run_bind, run_orRaise, run_orRaise]
    cases actionFromApproval rec with
    | error exc => exact ⟨[], [], .none hmarked, .none hmarked', fun _ _ => rfl⟩
    | ok action =>
      obtain ⟨new, new', hnew, hnew', hsame⟩ := execute_runs_alike hex hU action hpar'
      refine ⟨new, new', ⟨hmarked ▸ hnew.added, hnew.own⟩, ⟨hmarked' ▸ hnew'.added, hnew'.own⟩,
        fun π hπ => hsame π ?_⟩
      -- nor does it name another approval
      rw [show w'.view = _ from congrArg Snapshot.state hw,
        show v'.view = _ from congrArg Snapshot.state hv]
      exact hπ
  · refine ⟨[], [], .none ?_, .none ?_, fun _ _ => rfl⟩
    · unfold approve
      rw [run_bind, run_requireApproval_foreign hrec hrun]
    · unfold approve
      rw [run_bind, run_requireApproval_foreign hrec' (mt hruns.mpr hrun)]

/-- Rejecting runs no handler. -/
theorem rejectApproval_runs_nothing (ex : GuardedExecutor σ) (id : ApprovalId) (w : World S σ) :
    ((ex.rejectApproval id).run w).2.snapshot.invocations = w.snapshot.invocations := by
  have hstep := call_step (.rejectApproval ex id) w
  rw [← run_rejectApproval_program]
  generalize ((Call.rejectApproval ex id).program.run w).1 = answer at hstep
  generalize ((Call.rejectApproval ex id).program.run w).2.snapshot = s' at hstep ⊢
  cases hstep with
  | rejectRefused => rfl
  | rejectApproval => rfl

end Decisions

/-! ## What a call adds to the approvals -/

section Keys

variable [GuardStore S] [LawfulGuardStore S] {w : World S σ} {id : ApprovalId}
  {rk : String × String}

/-- A call gives out ids for its own run. -/
theorem call_new_keys (call : Call σ) (h : (call.program.run w).2.view.approvalKey id = some rk) :
    w.view.approvalKey id = some rk ∨ rk.1 = call.executor.runId := by
  have hkeeps := CallStep.keeps (P := fun s => ∀ id rk, s.state.approvalKey id = some rk →
      w.view.approvalKey id = some rk ∨ rk.1 = call.executor.runId) (call_step call w)
    (fun _ _ _ h => h) (fun action s answer s' hs hexec id rk hkey => ?_)
    (fun _ _ h => .inl h)
  · exact hkeeps id rk h
  · rcases hexec.approvals with
      ⟨_, hkeys⟩ | ⟨rec, _, _, _, _, _, hrun, _, _, _, hkeys⟩
    · exact hs id rk (hkeys ▸ hkey)
    · rw [hkeys] at hkey
      unfold GuardState.held at hkey
      dsimp only at hkey
      split at hkey
      · injection hkey with hkey
        exact .inr (by rw [← hkey, hrun])
      · exact hs id rk hkey

end Keys

/-! ## Effects kept by run -/

/-- A handler works on the part of its own run. -/
def owned (run : String) (handler : EffectHandler σ) : EffectHandler (String → σ) :=
  fun action env => ((handler action (env run)).1,
    Function.update env run (handler action (env run)).2)

/-- The effects of the run have done the same. -/
def SameOwn (run : String) (env : (String → σ) × κ) (env' : (String → σ) × κ) : Prop :=
  env.1 run = env'.1 run

theorem owned_same (run : String) (handler : EffectHandler σ) :
    SameHandler (SameOwn run) (timed (owned run handler) : EffectHandler ((String → σ) × κ))
      (timed (owned run handler)) := by
  intro action env env' henv
  unfold SameOwn at henv ⊢
  unfold timed owned
  dsimp only
  rw [henv, Function.update_self, Function.update_self]
  exact ⟨rfl, rfl⟩

/-- The executor leaves the effects of this run alone. -/
structure Spares (run : String) (ex : GuardedExecutor ((String → σ) × κ)) : Prop where
  clock : ∀ env, (ex.now env).2.1 run = env.1 run
  handlers : ∀ name handler, ex.handlers.get? name = some handler →
    ∀ action env, (handler action env).2.1 run = env.1 run

theorem owned_spares {run run' : String} (h : run ≠ run') (handler : EffectHandler σ)
    (action : Action) (env : (String → σ) × κ) :
    (timed (owned run' handler) action env).2.1 run = env.1 run :=
  Function.update_of_ne h _ _

theorem Spares.register {run run' : String} {ex : GuardedExecutor ((String → σ) × κ)}
    (h : Spares run ex) (hother : run ≠ run') (actionName : String) (handler : EffectHandler σ) :
    Spares run (ex.register actionName (timed (owned run' handler))) := by
  refine ⟨h.clock, fun name handler' hknown => ?_⟩
  simp only [GuardedExecutor.register, Dict.get?_set] at hknown
  split at hknown
  · injection hknown with hknown
    subst hknown
    exact owned_spares hother handler
  · exact h.handlers name handler' hknown

section Spared

variable [GuardStore S] [LawfulGuardStore S] {run : String}
  {ex : GuardedExecutor ((String → σ) × κ)} {w : World S ((String → σ) × κ)}

omit [LawfulGuardStore S] in
theorem execute_spares (h : Spares run ex) (action : Action) (w : World S ((String → σ) × κ)) :
    ((ex.execute action).run w).2.env.1 run = w.env.1 run := by
  have hcarries : Carries (fun w' : World S ((String → σ) × κ) => w'.env.1 run = w.env.1 run)
      (fun w' => w'.env.1 run = w.env.1 run) (ex.execute action) :=
    execute_carries_outside (I := fun (env : (String → σ) × κ) _ => env.1 run = w.env.1 run)
      (fun _ _ hsame => hsame)
      (fun env _ hsame => (h.clock env).trans hsame)
      fun handler hhandler env _ _ hsame => (h.handlers _ handler hhandler action env).trans hsame
  exact hcarries.run (w := w) rfl

/-- No call of the executor touches them. -/
theorem call_spares (call : Call ((String → σ) × κ)) (h : Spares run call.executor)
    (w : World S ((String → σ) × κ)) :
    (call.program.run w).2.env.1 run = w.env.1 run := by
  cases call with
  | execute ex action =>
    rw [run_execute_program]
    exact execute_spares h action w
  | approve ex id =>
    rw [run_approve_program]
    rcases run_requireApproval ex id w with ⟨rec, hrec, hrun, _⟩ | ⟨exc, _, hrefused⟩
    · rw [getApprovalById_eq] at hrec
      obtain ⟨w', henv, _, happrove⟩ := run_approve hrec hrun
      rw [happrove, run_bind, run_orRaise]
      cases actionFromApproval rec with
      | error exc => exact congrArg (fun env => env.1 run) henv
      | ok action => exact (execute_spares h action w').trans (congrArg (fun env => env.1 run) henv)
    · unfold approve
      rw [run_bind, hrefused]
  | rejectApproval ex id =>
    rw [run_rejectApproval_program]
    unfold rejectApproval
    rw [run_bind]
    rcases run_requireApproval ex id w with ⟨rec, hrec, _, hfound⟩ | ⟨exc, _, hrefused⟩
    · rw [getApprovalById_eq] at hrec
      obtain ⟨w', hset, henv, _⟩ := run_setApprovalState hrec .rejected
      rw [hfound]
      dsimp only
      rw [hset, henv]
    · rw [hrefused]

end Spared

end PaymentRecovery.Guardrails

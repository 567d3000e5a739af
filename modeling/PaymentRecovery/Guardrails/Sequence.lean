import PaymentRecovery.Guardrails.Replay

/-!
# Sequences of calls to one executor

What a program that presents one action after another to an executor leaves
behind, told from the answers it got. `Executes` is a sequence of calls that
returned; `Traces` says that a program does nothing else to the store and the
journal, but for a last call that may raise.
-/

namespace PaymentRecovery.Guardrails

open PaymentRecovery.Python PaymentRecovery.Lib Program

variable {σ : Type} {ex : GuardedExecutor σ} {action : Action} {s s' : Snapshot}

/-! ## What one call adds -/

/-- A call that returns logs its own status, and nothing in another run. -/
theorem ExecuteStep.audit_returned {result : ExecutionResult}
    (h : ExecuteStep ex action s (.ok result) s') :
    ∃ entry : AuditEntry, entry.about = action.about ∧ entry.decision = result.status.value ∧
      ∀ r, s'.state.audit r =
        if r = ex.runId then s.state.audit r ++ [entry] else s.state.audit r := by
  cases h with
  | breakerOpen => exact ⟨_, rfl, rfl, fun r => Audited.audit_logged (s.called _ _) _ _ _ _ r⟩
  | duplicate => exact ⟨_, rfl, rfl, fun r => Audited.audit_logged (s.called _ _) _ _ _ _ r⟩
  | enqueued =>
    exact ⟨_, rfl, rfl, fun r => Audited.audit_logged ((s.called _ _).held _) _ _ _ _ r⟩
  | undecided => exact ⟨_, rfl, rfl, fun r => Audited.audit_logged (s.called _ _) _ _ _ _ r⟩
  | overBudget => exact ⟨_, rfl, rfl, fun r => Audited.audit_logged (s.called _ _) _ _ _ _ r⟩
  | overCap =>
    exact ⟨_, rfl, rfl, fun r => Audited.audit_logged ((s.called _ _).tripped _) _ _ _ _ r⟩
  | executed =>
    exact ⟨_, rfl, rfl, fun r =>
      Audited.audit_logged (((s.called _ _).invoked _).settled _ _ _) _ _ _ _ r⟩

/-- A call that raises logs an error at most. -/
theorem ExecuteStep.audit_raised {exc : PyExc} (h : ExecuteStep ex action s (.error exc) s') :
    ∃ entries : List AuditEntry, (∀ entry ∈ entries, entry.decision = "error") ∧
      ∀ r, s'.state.audit r =
        if r = ex.runId then s.state.audit r ++ entries else s.state.audit r := by
  have hquiet : ∃ entries : List AuditEntry, (∀ entry ∈ entries, entry.decision = "error") ∧
      ∀ r, s.state.audit r =
        if r = ex.runId then s.state.audit r ++ entries else s.state.audit r :=
    ⟨[], by simp, fun r => by simp⟩
  cases h with
  | corrupt => exact hquiet
  | unknownAction => exact hquiet
  | unserialisable => exact hquiet
  | unstorable => exact hquiet
  | raised =>
    refine ⟨[_], fun entry hentry => ?_,
      fun r => Audited.audit_logged ((s.called _ _).invoked _) _ _ _ _ r⟩
    rw [List.mem_singleton.mp hentry]

/-- A result is stored by an executed call, for its own key. -/
theorem ExecuteStep.result_new {answer : Except PyExc ExecutionResult}
    (h : ExecuteStep ex action s answer s') {r k : String} (hres : s'.state.result r k ≠ none) :
    s.state.result r k ≠ none ∨ (r = ex.runId ∧ k = action.idempotencyKey ∧
      ∃ result, answer = .ok result ∧ result.status = .executed) := by
  cases h with
  | executed result resultJson hadm hyields hdump =>
    by_cases hown : r = ex.runId ∧ k = action.idempotencyKey
    · exact .inr ⟨hown.1, hown.2, _, rfl, rfl⟩
    · have hsame : s.state.result r k ≠ none := by
        intro hnone
        refine hres ?_
        show (if r = ex.runId ∧ k = action.idempotencyKey then some _ else _) = none
        rw [if_neg hown]
        exact hnone
      exact .inl hsame
  | _ => exact .inl hres

/-- A duplicate is answered where a result is stored. -/
theorem ExecuteStep.result_of_duplicate {result : ExecutionResult}
    (h : ExecuteStep ex action s (.ok result) s') (hstatus : result.status = .duplicate) :
    s.state.result ex.runId action.idempotencyKey ≠ none := by
  cases h with
  | duplicate rec value hclosed hrec =>
    rw [hrec]
    exact Option.some_ne_none _
  | breakerOpen => cases hstatus
  | enqueued => cases hstatus
  | undecided => cases hstatus
  | overBudget => cases hstatus
  | overCap => cases hstatus
  | executed => cases hstatus

/-- A call that returns was executed if and only if every guard let it pass. -/
theorem ExecuteStep.executed_iff {result : ExecutionResult}
    (h : ExecuteStep ex action s (.ok result) s') :
    result.status = .executed ↔ Admitted ex action s.state := by
  cases h with
  | breakerOpen hopen =>
    refine ⟨fun hs => (by cases hs), fun hadm => ?_⟩
    exact absurd (hopen.symm.trans hadm.closed) (by decide)
  | duplicate rec value hclosed hrec =>
    refine ⟨fun hs => (by cases hs), fun hadm => ?_⟩
    exact absurd (hrec.symm.trans hadm.fresh) (by simp)
  | enqueued id paramsJson t hclosed hfresh hgated hnone =>
    refine ⟨fun hs => (by cases hs), fun hadm => ?_⟩
    obtain ⟨rec, hrec, _⟩ := hadm.approved hgated
    exact absurd (hnone.symm.trans hrec) (by simp)
  | undecided rec detail hclosed hfresh hgated hrec hstate =>
    refine ⟨fun hs => (by cases hs), fun hadm => ?_⟩
    obtain ⟨rec', hrec', hstate'⟩ := hadm.approved hgated
    rw [Option.some.inj (hrec.symm.trans hrec')] at hstate
    exact absurd hstate' hstate
  | overBudget detail hclear hbudget =>
    refine ⟨fun hs => (by cases hs), fun hadm => ?_⟩
    exact absurd hadm.budget (Int.not_lt.mpr hbudget)
  | overCap hclear hbudget hcap =>
    refine ⟨fun hs => (by cases hs), fun hadm => ?_⟩
    exact absurd hadm.cap (Rat.not_le.mpr hcap)
  | executed result resultJson hadm => exact ⟨fun _ => hadm, fun _ => rfl⟩

/-- The approval gate stops the action: the run is not halted, the key has no result, and the
action is above the threshold and not approved. -/
structure HeldBack (ex : GuardedExecutor σ) (action : Action) (g : GuardState) : Prop where
  closed : g.breaker ex.runId = false
  fresh : g.result ex.runId action.idempotencyKey = none
  gated : ex.policy.approvalThreshold < action.cost
  unapproved : ∀ rec, g.approval ex.runId action.idempotencyKey = some rec →
    rec.state ≠ .approved

/-- A call that returns was held if and only if the gate stopped it. -/
theorem ExecuteStep.held_iff {result : ExecutionResult}
    (h : ExecuteStep ex action s (.ok result) s') :
    result.status = .pendingApproval ↔ HeldBack ex action s.state := by
  have hcleared : Cleared ex action s.state → ¬ HeldBack ex action s.state := by
    intro hclear hheld
    obtain ⟨rec, hrec, hstate⟩ := hclear.approved hheld.gated
    exact hheld.unapproved rec hrec hstate
  cases h with
  | breakerOpen hopen =>
    refine ⟨fun hs => (by cases hs), fun hheld => ?_⟩
    exact absurd (hopen.symm.trans hheld.closed) (by decide)
  | duplicate rec value hclosed hrec =>
    refine ⟨fun hs => (by cases hs), fun hheld => ?_⟩
    exact absurd (hrec.symm.trans hheld.fresh) (by simp)
  | enqueued id paramsJson t hclosed hfresh hgated hnone =>
    refine ⟨fun _ => ⟨hclosed, hfresh, hgated, fun rec hrec => ?_⟩, fun _ => rfl⟩
    exact absurd (hnone.symm.trans hrec) (by simp)
  | undecided rec detail hclosed hfresh hgated hrec hstate =>
    refine ⟨fun _ => ⟨hclosed, hfresh, hgated, fun rec' hrec' => ?_⟩, fun _ => rfl⟩
    rwa [← Option.some.inj (hrec.symm.trans hrec')]
  | overBudget detail hclear =>
    exact ⟨fun hs => (by cases hs), fun hheld => absurd hheld (hcleared hclear)⟩
  | overCap hclear =>
    exact ⟨fun hs => (by cases hs), fun hheld => absurd hheld (hcleared hclear)⟩
  | executed result resultJson hadm =>
    exact ⟨fun hs => (by cases hs), fun hheld => absurd hheld (hcleared hadm.toCleared)⟩

/-- A call queues one pending approval and says so, or leaves the approvals alone. -/
theorem ExecuteStep.approvals {answer : Except PyExc ExecutionResult}
    (h : ExecuteStep ex action s answer s') :
    (s'.state.approval = s.state.approval ∧ s'.state.approvalKey = s.state.approvalKey) ∨
    ∃ rec result, answer = .ok result ∧ result.status = .pendingApproval ∧
      result.approvalId = some rec.approvalId ∧ rec.state = .pending ∧ rec.runId = ex.runId ∧
      rec.idempotencyKey = action.idempotencyKey ∧
      s.state.approvalKey rec.approvalId = none ∧
      s'.state.approval = (s.state.held rec).approval ∧
      s'.state.approvalKey = (s.state.held rec).approvalKey := by
  cases h with
  | enqueued id paramsJson t hclosed hfresh hgated hnone hdump hid =>
    exact .inr ⟨_, _, rfl, rfl, rfl, rfl, rfl, rfl, hid, rfl, rfl⟩
  | _ => exact .inl ⟨rfl, rfl⟩

/-- An approval id in an answer is one the store knows. -/
theorem ExecuteStep.approvalId_known {result : ExecutionResult} {id : ApprovalId}
    (hwf : s.state.Wf) (h : ExecuteStep ex action s (.ok result) s')
    (hid : result.approvalId = some id) : s'.state.approvalKey id ≠ none := by
  cases h with
  | enqueued id' paramsJson t =>
    injection hid with hid
    show (if id = id' then _ else _) ≠ none
    rw [if_pos hid.symm]
    exact Option.some_ne_none _
  | undecided rec detail hclosed hfresh hgated hrec hstate =>
    injection hid with hid
    obtain ⟨_, _, hkey⟩ := hwf.approval_own _ _ _ hrec
    show s.state.approvalKey id ≠ none
    rw [← hid, hkey]
    exact Option.some_ne_none _
  | breakerOpen => cases hid
  | duplicate => cases hid
  | overBudget => cases hid
  | overCap => cases hid
  | executed => cases hid

/-! ## Sequences -/

/-- Calls that returned, one after another, with their answers. -/
inductive Executes (ex : GuardedExecutor σ) :
    Snapshot → List (Action × ExecutionResult) → Snapshot → Prop
  | nil (s : Snapshot) : Executes ex s [] s
  | cons {s s₁ s₂ : Snapshot} {action : Action} {result : ExecutionResult}
    {rest : List (Action × ExecutionResult)} (hstep : ExecuteStep ex action s (.ok result) s₁)
    (hrest : Executes ex s₁ rest s₂) : Executes ex s ((action, result) :: rest) s₂

namespace Executes

variable {done done' : List (Action × ExecutionResult)} {s₁ s₂ : Snapshot}

theorem append (h : Executes ex s done s₁) (h' : Executes ex s₁ done' s₂) :
    Executes ex s (done ++ done') s₂ := by
  induction h with
  | nil s => exact h'
  | cons hstep hrest ih => exact .cons hstep (ih h')

/-- The state in which the last of the calls was made. -/
theorem last {call : Action × ExecutionResult} (h : Executes ex s (done ++ [call]) s₁) :
    ∃ s₂, Executes ex s done s₂ ∧ ExecuteStep ex call.1 s₂ (.ok call.2) s₁ := by
  induction done generalizing s with
  | nil =>
    cases h with
    | cons hstep hrest =>
      cases hrest with
      | nil => exact ⟨s, .nil s, hstep⟩
  | cons first rest ih =>
    cases h with
    | cons hstep hrest =>
      obtain ⟨s₂, hbefore, hlast⟩ := ih hrest
      exact ⟨s₂, .cons hstep hbefore, hlast⟩

/-- The log of the run grows by one entry for each answer, the other logs not at all. -/
theorem audit (h : Executes ex s done s₁) :
    ∃ entries : List AuditEntry,
      entries.map (fun entry => (entry.about, entry.decision)) =
        done.map (fun call => (call.1.about, call.2.status.value)) ∧
      ∀ r, s₁.state.audit r =
        if r = ex.runId then s.state.audit r ++ entries else s.state.audit r := by
  induction h with
  | nil s => exact ⟨[], rfl, fun r => by simp⟩
  | cons hstep hrest ih =>
    obtain ⟨entry, habout, hdecision, haudit⟩ := hstep.audit_returned
    obtain ⟨entries, hentries, haudit'⟩ := ih
    refine ⟨entry :: entries, by simp [habout, hdecision, hentries], fun r => ?_⟩
    rw [haudit', haudit]
    split <;> simp

/-- What every call preserves, a sequence of calls preserves. -/
theorem preserves {I : Snapshot → Prop} {ok : Action → Prop}
    (hI : ∀ s answer s' action, ok action → I s → ExecuteStep ex action s answer s' → I s')
    (h : Executes ex s done s₁) (hok : ∀ call ∈ done, ok call.1) (hs : I s) : I s₁ := by
  induction h with
  | nil s => exact hs
  | cons hstep hrest ih =>
    exact ih (fun call hcall => hok call (List.mem_cons_of_mem _ hcall))
      (hI _ _ _ _ (hok _ List.mem_cons_self) hs hstep)

/-- What was logged decides what the calls presented and how they ended. -/
theorem unique (h : Executes ex s done s₁) (h' : Executes ex s done' s₁) :
    done.map (fun call => (call.1.about, call.2.status.value)) =
      done'.map (fun call => (call.1.about, call.2.status.value)) := by
  obtain ⟨entries, hentries, haudit⟩ := h.audit
  obtain ⟨entries', hentries', haudit'⟩ := h'.audit
  have hsame := (haudit ex.runId).symm.trans (haudit' ex.runId)
  rw [if_pos rfl, if_pos rfl] at hsame
  rw [← hentries, ← hentries', List.append_cancel_left hsame]

end Executes

/-- A sequence of calls leads from `s` to `s'`, and its last one meets a state of the store
that `A` holds of. -/
inductive EndsIn (ex : GuardedExecutor σ) (A : Action → GuardState → Prop) (s s' : Snapshot) :
    Prop
  | intro (done : List (Action × ExecutionResult)) (s₁ : Snapshot) (action : Action)
    (result : ExecutionResult) (hbefore : Executes ex s done s₁) (hmeets : A action s₁.state)
    (hlast : ExecuteStep ex action s₁ (.ok result) s')

/-- Where `A` decides when a call is answered `status`, the sequence ends in `A` if and only
if its last answer is `status`. -/
theorem Executes.endsIn_iff {done : List (Action × ExecutionResult)}
    {A : Action → GuardState → Prop} {status : ExecutionStatus} (h : Executes ex s done s')
    (hA : ∀ action s result s', ExecuteStep ex action s (.ok result) s' →
      (result.status = status ↔ A action s.state)) :
    EndsIn ex A s s' ↔ done.getLast?.map (fun call => call.2.status) = some status := by
  constructor
  · -- the log leaves no choice of the calls, so the last one is that of `done`
    rintro ⟨before, s₁, action, result, hbefore, hmeets, hlast⟩
    have hstatus := (hA _ _ _ _ hlast).mpr hmeets
    have hsame := h.unique (hbefore.append (.cons hlast (.nil s')))
    have hmap := congrArg List.getLast? hsame
    rw [List.getLast?_map, List.getLast?_map, List.getLast?_append] at hmap
    cases hcall : done.getLast? with
    | none =>
      rw [hcall] at hmap
      cases hmap
    | some call =>
      rw [hcall] at hmap
      injection hmap with hpair
      injection hpair with _ hvalue
      exact congrArg some ((ExecutionStatus.value_injective hvalue).trans hstatus)
  · intro hlast
    obtain ⟨call, hcall, hstatus⟩ := Option.map_eq_some_iff.mp hlast
    obtain ⟨before, hdone⟩ := List.getLast?_eq_some_iff.mp hcall
    rw [hdone] at h
    obtain ⟨s₁, hbefore, hstep⟩ := h.last
    exact ⟨before, s₁, call.1, call.2, hbefore, (hA _ _ _ _ hstep).mp hstatus, hstep⟩

/-! ## Programs that call one executor -/

section Traces

variable {S α β : Type} [GuardStore S] [LawfulGuardStore S] {ok : Action → Prop}

/-- How a program ends after its last returned call: with an answer, with an exception from
elsewhere, or with the exception of one more call. -/
def Settles (ex : GuardedExecutor σ) (ok : Action → Prop) (R : α → Prop) (s : Snapshot) :
    Except PyExc α → Snapshot → Prop
  | .ok a, s' => s' = s ∧ R a
  | .error exc, s' => s' = s ∨ ∃ action, ok action ∧ ExecuteStep ex action s (.error exc) s'

/-- Run from any world, the program presents actions in `ok` to `ex` and touches the store
and the journal in no other way; `R` relates the answers it got to what it returns. -/
def Traces (ex : GuardedExecutor σ) (ok : Action → Prop) (p : Program (World S σ) PyExc α)
    (R : List (Action × ExecutionResult) → α → Prop) : Prop :=
  ∀ w, ∃ done s, Executes ex w.snapshot done s ∧ (∀ call ∈ done, ok call.1) ∧
    Settles ex ok (R done) s (p.run w).1 (p.run w).2.snapshot

namespace Traces

variable {R : List (Action × ExecutionResult) → α → Prop}

/-- A program that leaves the store and the journal alone. -/
theorem quiet {p : Program (World S σ) PyExc α} (h : ∀ w, (p.run w).2.snapshot = w.snapshot)
    (hR : ∀ w a, (p.run w).1 = .ok a → R [] a) : Traces ex ok p R := by
  intro w
  refine ⟨[], w.snapshot, .nil _, by simp, ?_⟩
  cases hrun : (p.run w).1 with
  | ok a => exact ⟨h w, hR w a hrun⟩
  | error exc => exact .inl (h w)

theorem pure {a : α} (hR : R [] a) : Traces ex ok (Pure.pure a : Program (World S σ) PyExc α) R :=
  quiet (fun _ => rfl) fun w b hb => by
    injection hb with hb
    exact hb ▸ hR

theorem throw {exc : PyExc} :
    Traces ex ok (MonadExcept.throw exc : Program (World S σ) PyExc α) R :=
  quiet (fun _ => rfl) fun w b hb => by cases hb

theorem orRaise {x : Except PyExc α} (hR : ∀ a, x = .ok a → R [] a) :
    Traces ex ok (Program.orRaise x : Program (World S σ) PyExc α) R :=
  quiet (fun w => by rw [run_orRaise]) fun w a ha => hR a (by rwa [run_orRaise] at ha)

theorem execute (hok : ok action) :
    Traces ex ok (ex.execute action : Program (World S σ) PyExc ExecutionResult)
      fun done result => done = [(action, result)] := by
  intro w
  have hstep := execute_step ex action w
  cases hrun : ((ex.execute action).run w).1 with
  | ok result =>
    rw [hrun] at hstep
    exact ⟨[(action, result)], _, .cons hstep (.nil _), by simpa using hok, rfl, rfl⟩
  | error exc =>
    rw [hrun] at hstep
    exact ⟨[], w.snapshot, .nil _, by simp, .inr ⟨action, hok, hstep⟩⟩

theorem bind {p : Program (World S σ) PyExc α} {g : α → Program (World S σ) PyExc β}
    {R' : List (Action × ExecutionResult) → β → Prop} (hp : Traces ex ok p R)
    (hg : ∀ done a, R done a → Traces ex ok (g a) fun done' b => R' (done ++ done') b) :
    Traces ex ok (p >>= g) R' := by
  intro w
  obtain ⟨done, s, hexec, hok, hend⟩ := hp w
  rw [run_bind]
  cases hrun : p.run w with
  | mk answer w' =>
    rw [hrun] at hend
    cases answer with
    | error exc => exact ⟨done, s, hexec, hok, hend⟩
    | ok a =>
      obtain ⟨rfl, hR⟩ := hend
      obtain ⟨done', s', hexec', hok', hend'⟩ := hg done a hR w'
      refine ⟨done ++ done', s', hexec.append hexec', fun call hcall => ?_, ?_⟩
      · rcases List.mem_append.mp hcall with h | h
        · exact hok call h
        · exact hok' call h
      · dsimp only
        cases hrun' : ((g a).run w').1 with
        | ok b =>
          rw [hrun'] at hend'
          exact hend'
        | error exc =>
          rw [hrun'] at hend'
          exact hend'

/-- Nothing was presented on the way. -/
theorem bind_quiet {p : Program (World S σ) PyExc α} {g : α → Program (World S σ) PyExc β}
    {R' : List (Action × ExecutionResult) → β → Prop} {A : α → Prop}
    (hp : Traces ex ok p fun done a => done = [] ∧ A a)
    (hg : ∀ a, A a → Traces ex ok (g a) R') : Traces ex ok (p >>= g) R' :=
  hp.bind fun done a h => by
    rw [h.1]
    exact hg a h.2

theorem weaken {p : Program (World S σ) PyExc α} {R' : List (Action × ExecutionResult) → α → Prop}
    (hp : Traces ex ok p R) (h : ∀ done a, R done a → R' done a) : Traces ex ok p R' := by
  intro w
  obtain ⟨done, s, hexec, hok, hend⟩ := hp w
  refine ⟨done, s, hexec, hok, ?_⟩
  cases hrun : (p.run w).1 with
  | ok a =>
    rw [hrun] at hend
    exact ⟨hend.1, h done a hend.2⟩
  | error exc =>
    rw [hrun] at hend
    exact hend

end Traces

end Traces

/-! ## What was executed between two worlds -/

section During

variable {S : Type} [GuardStore S]

/-- The entries appended to a run's log between two worlds. -/
def newEntries (w w' : World S σ) (run : String) : List AuditEntry :=
  (GuardStore.readAudit w'.store run).drop (GuardStore.readAudit w.store run).length

/-- Between two worlds an action of this name was logged as executed. -/
def ExecutedDuring (w w' : World S σ) (name : String) : Prop :=
  ∃ run, ∃ entry ∈ newEntries w w' run,
    entry.decision = ExecutionStatus.executed.value ∧ entry.actionName = name

/-- Nothing is executed where the store stays as it is. -/
theorem not_executedDuring_same {w w' : World S σ} (h : w'.store = w.store) (name : String) :
    ¬ ExecutedDuring w w' name := by
  rintro ⟨run, entry, hmem, _⟩
  unfold newEntries at hmem
  rw [h, List.drop_length] at hmem
  exact absurd hmem List.not_mem_nil

variable [LawfulGuardStore S] {done : List (Action × ExecutionResult)}

/-- After a sequence of calls, and one more that may have raised, what was executed is what
was answered `executed`. -/
theorem executedDuring_iff {w w' : World S σ} (hexec : Executes ex w.snapshot done s)
    (hend : w'.snapshot = s ∨ ∃ action exc, ExecuteStep ex action s (.error exc) w'.snapshot)
    (name : String) :
    ExecutedDuring w w' name ↔ ∃ call ∈ done, call.2.status = .executed ∧ call.1.name = name := by
  obtain ⟨entries, hentries, haudit⟩ := hexec.audit
  have hraised : ∃ errors : List AuditEntry, (∀ entry ∈ errors, entry.decision = "error") ∧
      ∀ r, w'.snapshot.state.audit r =
        if r = ex.runId then s.state.audit r ++ errors else s.state.audit r := by
    rcases hend with hsame | ⟨action, exc, hstep⟩
    · exact ⟨[], by simp, fun r => by rw [hsame]; simp⟩
    · exact hstep.audit_raised
  obtain ⟨errors, herrors, haudit'⟩ := hraised
  have hnew : ∀ r, newEntries w w' r = if r = ex.runId then entries ++ errors else [] := by
    intro r
    unfold newEntries
    rw [LawfulGuardStore.readAudit_eq, LawfulGuardStore.readAudit_eq]
    show (w'.snapshot.state.audit r).drop (w.snapshot.state.audit r).length = _
    rw [haudit', haudit]
    split
    · rw [List.append_assoc, List.drop_left]
    · rw [List.drop_length]
  constructor
  · rintro ⟨run, entry, hmem, hdecision, hname⟩
    rw [hnew] at hmem
    split at hmem
    · rcases List.mem_append.mp hmem with hold | herror
      · -- the entry is that of one of the answers
        have hpair := List.mem_map_of_mem (f := fun entry => (entry.about, entry.decision)) hold
        rw [hentries] at hpair
        obtain ⟨call, hcall, heq⟩ := List.mem_map.mp hpair
        injection heq with habout hstatus
        rw [hdecision] at hstatus
        injection habout with hcallname
        exact ⟨call, hcall, ExecutionStatus.value_injective hstatus, hcallname.trans hname⟩
      · rw [herrors entry herror] at hdecision
        exact absurd hdecision.symm (ExecutionStatus.value_ne_error _)
    · exact absurd hmem List.not_mem_nil
  · rintro ⟨call, hcall, hstatus, hname⟩
    have hpair := List.mem_map_of_mem
      (f := fun call : Action × ExecutionResult => (call.1.about, call.2.status.value)) hcall
    rw [← hentries] at hpair
    obtain ⟨entry, hentry, heq⟩ := List.mem_map.mp hpair
    injection heq with habout hdecision
    injection habout with hentryname
    refine ⟨ex.runId, entry, ?_, by rw [hdecision, hstatus], hentryname.trans hname⟩
    rw [hnew, if_pos rfl]
    exact List.mem_append_left _ hentry

end During

end PaymentRecovery.Guardrails

import PaymentRecovery.Guardrails.Workers
import PaymentRecovery.Guardrails.Approval

/-!
# Runs of several workers

Each worker makes a list of calls, one after the other, and the schedule is any
list of workers. `workers_keep` is the rule for what holds after every schedule.
With it: what a human has decided once is on record and stays, and above the
threshold no handler runs for a key that nobody has approved before.
-/

namespace PaymentRecovery.Guardrails

open PaymentRecovery.Python PaymentRecovery.Lib Program LawfulGuardStore

variable {ι S σ : Type} [GuardStore S] [LawfulGuardStore S]

/-- Workers with their calls, over one world. -/
def workers (calls : ι → List (Call σ)) (w : World S σ) :
    Pool ι (World S σ) PyExc (Option ExecutionResult) :=
  ⟨fun i => (calls i).map Call.program, w⟩

/-- The action a point is about. -/
def Point.ticket? : Point → Option Ticket
  | .idle | .deciding _ => none
  | .gated t | .cleared t | .counted t | .admitted t | .returned t | .charged t | .stored t
  | .refused t | .tripped t => some t

/-- What a worker carries is in scope, and what it may rely on holds. -/
structure Sound (scope : Scope) (points : ι → Point) (s : Snapshot) : Prop where
  queued : ∀ r k rec, s.state.approval r k = some rec → scope.cost r rec.cost
  known : ∀ i id, points i = .deciding id → s.state.approvalKey id ≠ none
  carried : ∀ i t, (points i).ticket? = some t → scope.Allows t

section Moves

variable {scope : Scope} {c c' : Point} {s s' : Snapshot}

/-- No move forgets an approval id. -/
theorem Move.approvalKey_kept (h : Move scope s c c' s') {id : ApprovalId}
    (hid : s.state.approvalKey id ≠ none) : s'.state.approvalKey id ≠ none := by
  cases h with
  | held t rec =>
    show (if id = rec.approvalId then _ else _) ≠ none
    split
    · exact Option.some_ne_none _
    · exact hid
  | _ => exact hid

/-- A worker carries the action it entered with. -/
theorem Move.carries (h : Move scope s c c' s') {t : Ticket} (ht : c'.ticket? = some t) :
    c.ticket? = some t ∨ scope.Allows t := by
  cases h with
  | gated t' hscope =>
    injection ht with ht
    exact .inr (ht ▸ hscope)
  | passed t' hscope =>
    injection ht with ht
    exact .inr (ht ▸ hscope)
  | quiet => exact .inl ht
  | cleared | counted | admitted | refused | tripped | returned | charged | stored => exact .inl ht
  | _ => cases ht

/-- A record is queued by a worker at the gate, for the action it carries, or is one of those
before, in the same or another state. -/
theorem Move.approval_cases (h : Move scope s c c' s') {r k : String} {rec : ApprovalRecord}
    (hrec : s'.state.approval r k = some rec) :
    (∃ t, c = .gated t ∧ r = t.runId ∧ rec.cost = t.action.cost) ∨
    ∃ old, s.state.approval r k = some old ∧ ∃ state, rec = { old with state := state } := by
  cases h with
  | held t new hnone hid hown hcost =>
    have hheld : (if r = new.runId ∧ k = new.idempotencyKey then some new
        else s.state.approval r k) = some rec := hrec
    split at hheld
    · rename_i he
      injection hheld with hheld
      exact .inl ⟨t, rfl, he.1.trans hown.1, hheld ▸ hcost⟩
    · exact .inr ⟨rec, hheld, rec.state, rfl⟩
  | decided id state =>
    have hdecided : (if s.state.approvalKey id = some (r, k) then
        (s.state.approval r k).map fun rec => { rec with state := state }
        else s.state.approval r k) = some rec := hrec
    split at hdecided
    · obtain ⟨old, hold, heq⟩ := Option.map_eq_some_iff.mp hdecided
      exact .inr ⟨old, hold, state, heq.symm⟩
    · exact .inr ⟨rec, hdecided, rec.state, rfl⟩
  | _ => exact .inr ⟨rec, hrec, rec.state, rfl⟩

end Moves

variable [DecidableEq ι]

theorem Sound.move {scope : Scope} {points : ι → Point} {s s' : Snapshot}
    (h : Sound scope points s) {i : ι} {c' : Point} (hmove : Move scope s (points i) c' s') :
    Sound scope (Function.update points i c') s' where
  queued r k rec hrec := by
    rcases hmove.approval_cases hrec with ⟨t, hpoint, hr, hcost⟩ | ⟨old, hold, state, heq⟩
    · rw [hr, hcost]
      exact (h.carried i t (by rw [hpoint]; rfl)).2
    · rw [heq]
      exact h.queued r k old hold
  known j id hj := by
    by_cases hji : j = i
    · subst hji
      rw [Function.update_self] at hj
      subst hj
      generalize hc : points j = c at hmove
      cases hmove with
      | quiet => exact h.known j id hc
      | found id hid => exact hid
    · rw [Function.update_of_ne hji] at hj
      exact hmove.approvalKey_kept (h.known j id hj)
  carried j t ht := by
    by_cases hji : j = i
    · subst hji
      rw [Function.update_self] at ht
      exact (hmove.carries ht).elim (h.carried j t) id
    · rw [Function.update_of_ne hji] at ht
      exact h.carried j t ht

/-- The workers' world after a schedule. -/
def worldAfter (calls : ι → List (Call σ)) (w : World S σ) (schedule : List ι) : World S σ :=
  ((workers calls w).exec schedule).state

/-- What can be told about it. -/
abbrev afterSchedule (calls : ι → List (Call σ)) (w : World S σ) (schedule : List ι) : Snapshot :=
  (worldAfter calls w schedule).snapshot

/-- What every move of a worker preserves holds after every schedule. The invariant may speak of
the schedule so far, and where nothing is left to run all workers are at `idle`. -/
theorem workers_keep [SharedGuardStore S] (scope : Scope) (calls : ι → List (Call σ))
    (w : World S σ) {I : List ι → (ι → Point) → Snapshot → Prop}
    (hcovers : ∀ i, ∀ call ∈ calls i, scope.Covers call)
    (hqueued : ∀ r k rec, w.snapshot.state.approval r k = some rec → scope.cost r rec.cost)
    (hinit : I [] (fun _ => .idle) w.snapshot)
    (hmove : ∀ past points i c', Sound scope points (afterSchedule calls w past) →
      I past points (afterSchedule calls w past) →
      Move scope (afterSchedule calls w past) (points i) c' (afterSchedule calls w (past ++ [i])) →
      I (past ++ [i]) (Function.update points i c') (afterSchedule calls w (past ++ [i])))
    (schedule : List ι) :
    ∃ points, I schedule points (afterSchedule calls w schedule) ∧
      (((workers calls w).exec schedule).Done → ∀ i, points i = .idle) := by
  have htracked : Tracked (fun c (w : World S σ) => Relies scope c w.snapshot)
      (fun c w c' w' => Move scope w.snapshot c c' w'.snapshot) .idle (fun _ => .idle)
      (workers calls w).jobs := tracked_start fun i job hjob => by
    obtain ⟨call, hcall, hprogram⟩ := List.mem_map.mp hjob
    rw [← hprogram]
    exact Call.comesHome (hcovers i call hcall)
  obtain ⟨points, hend, hsound, hI⟩ := exec_keeps
    (I := fun past points (w : World S σ) => Sound scope points w.snapshot ∧ I past points w.snapshot)
    htracked ⟨⟨hqueued, (fun _ _ h => by cases h), (fun _ _ h => by cases h)⟩, hinit⟩
    (fun _ points w i h => ⟨h.1.queued, by
      cases hpoint : points i with
      | deciding id => exact h.1.known i id hpoint
      | _ => trivial⟩)
    (fun past points i h hsame => ⟨h.1, by
      -- nothing happened: the worker stays where it is
      have hafter : afterSchedule calls w (past ++ [i]) = afterSchedule calls w past :=
        congrArg World.snapshot hsame
      have hstay := hmove past points i (points i) h.1 h.2
      rw [Function.update_eq_self, hafter] at hstay
      exact hstay (.quiet _)⟩)
    (fun past points i c' h hT => ⟨h.1.move hT, hmove past points i c' h.1 h.2 hT⟩) schedule
  exact ⟨points, hI, fun hdone => hend.done hdone⟩

/-! ## Approvals -/

/-- Whatever was on record for a key stays on record, as far as its state goes. -/
theorem Move.approval_stays {scope : Scope} {c c' : Point} {s s' : Snapshot}
    (h : Move scope s c c' s') {r k : String} {rec : ApprovalRecord}
    (hrec : s.state.approval r k = some rec) :
    ∃ state, s'.state.approval r k = some { rec with state := state } := by
  cases h with
  | held t new hnone hid hown =>
    refine ⟨rec.state, ?_⟩
    show (if r = new.runId ∧ k = new.idempotencyKey then some new
      else s.state.approval r k) = some rec
    rw [if_neg]
    · exact hrec
    · -- the key was without a record
      rintro ⟨hr, hk⟩
      rw [hr, hk, hown.1, hown.2, hnone] at hrec
      cases hrec
  | decided id state =>
    show ∃ st, (if s.state.approvalKey id = some (r, k) then
      (s.state.approval r k).map fun rec => { rec with state := state }
      else s.state.approval r k) = some { rec with state := st }
    split
    · exact ⟨state, by rw [hrec]; rfl⟩
    · exact ⟨rec.state, hrec⟩
  | _ => exact ⟨rec.state, hrec⟩

/-- A human has approved what is queued under the key. -/
def Snapshot.HasApproved (s : Snapshot) (run key : String) : Prop :=
  ∃ rec, s.state.approval run key = some rec ∧ rec.state = .approved

/-- It was so at some moment of the schedule. -/
def Once (calls : ι → List (Call σ)) (w : World S σ) (schedule : List ι) (P : Snapshot → Prop) :
    Prop :=
  ∃ before, before <+: schedule ∧ P (afterSchedule calls w before)

theorem Once.later {calls : ι → List (Call σ)} {w : World S σ} {past : List ι}
    {P : Snapshot → Prop} (h : Once calls w past P) (i : ι) : Once calls w (past ++ [i]) P :=
  let ⟨before, hprefix, hP⟩ := h
  ⟨before, hprefix.trans (List.prefix_append _ _), hP⟩

/-- The worker is past the gate, and its handler has not run. -/
def Point.pastGate? : Point → Option Ticket
  | .cleared t | .counted t | .admitted t => some t
  | _ => none

/-- Above its threshold, an action is past the gate only if its key was once approved, and so
it is with every handler run since the start. -/
structure GateKept (calls : ι → List (Call σ)) (w : World S σ) (past : List ι)
    (points : ι → Point) (s : Snapshot) : Prop where
  passing : ∀ i t, (points i).pastGate? = some t → t.policy.approvalThreshold < t.action.cost →
    Once calls w past fun s => s.HasApproved t.runId t.key
  ran : ∀ inv ∈ s.invocations, inv ∈ w.snapshot.invocations ∨
    (inv.policy.approvalThreshold < inv.action.cost →
      Once calls w past fun s => s.HasApproved inv.runId inv.action.idempotencyKey)

/-- Who is past the gate was past it before, or costs too little for it, or has an approval. -/
theorem Move.passes {scope : Scope} {c c' : Point} {s s' : Snapshot} (h : Move scope s c c' s')
    {t : Ticket} (ht : c'.pastGate? = some t) : c.pastGate? = some t ∨
      ¬ t.policy.approvalThreshold < t.action.cost ∨ s.HasApproved t.runId t.key := by
  cases h with
  | quiet => exact .inl ht
  | passed t' hscope hfresh hlow =>
    injection ht with ht
    exact .inr (.inl (ht ▸ hlow))
  | cleared t' rec hrec hstate =>
    injection ht with ht
    exact .inr (.inr ⟨rec, ht ▸ hrec, hstate⟩)
  | counted | admitted => exact .inl ht
  | _ => cases ht

/-- A handler runs where every guard has let its action pass, and nowhere else. -/
theorem Move.ran {scope : Scope} {c c' : Point} {s s' : Snapshot} (h : Move scope s c c' s') :
    s'.invocations = s.invocations ∨
    ∃ t inv, c = .admitted t ∧ (inv.runId = t.runId ∧ inv.policy = t.policy ∧
      inv.action = t.action) ∧ s'.invocations = s.invocations ++ [inv] := by
  cases h with
  | called run action => exact .inl (Snapshot.invocations_called s run action)
  | failed t inv hown | returned t inv hown =>
    exact .inr ⟨t, inv, rfl, hown, Snapshot.invocations_invoked s inv⟩
  | _ => exact .inl rfl

theorem GateKept.move {calls : ι → List (Call σ)} {w : World S σ} {past : List ι}
    {points : ι → Point} {scope : Scope} {i : ι} {c' : Point} {s' : Snapshot}
    (h : GateKept calls w past points (afterSchedule calls w past))
    (hmove : Move scope (afterSchedule calls w past) (points i) c' s') :
    GateKept calls w (past ++ [i]) (Function.update points i c') s' where
  passing j t ht hgated := by
    by_cases hji : j = i
    · subst hji
      rw [Function.update_self] at ht
      rcases hmove.passes ht with hbefore | hlow | happroved
      · exact (h.passing j t hbefore hgated).later j
      · exact absurd hgated hlow
      · exact ⟨past, List.prefix_append _ _, happroved⟩
    · rw [Function.update_of_ne hji] at ht
      exact (h.passing j t ht hgated).later i
  ran inv hinv := by
    have hold : inv ∈ (afterSchedule calls w past).invocations → inv ∈ w.snapshot.invocations ∨
        (inv.policy.approvalThreshold < inv.action.cost → Once calls w (past ++ [i])
          fun s => s.HasApproved inv.runId inv.action.idempotencyKey) :=
      fun hmem => (h.ran inv hmem).imp_right fun honce hgated => (honce hgated).later i
    rcases hmove.ran with hsame | ⟨t, new, hpoint, ⟨hr, hp, ha⟩, hnew⟩
    · exact hold (hsame ▸ hinv)
    · rw [hnew, List.mem_append, List.mem_singleton] at hinv
      rcases hinv with hmem | rfl
      · exact hold hmem
      · refine .inr fun hgated => ?_
        rw [hp, ha] at hgated
        rw [hr, ha]
        exact (h.passing i t (by rw [hpoint]; rfl) hgated).later i

/-- Everything is in scope. -/
def Scope.all : Scope := ⟨fun _ _ => True, fun _ _ => True⟩

theorem Scope.all_covers (call : Call σ) : Scope.all.Covers call := by
  cases call with
  | execute => exact ⟨trivial, trivial⟩
  | approve => trivial
  | rejectApproval => trivial

variable [SharedGuardStore S]

/-- **No costly effect without a human's approval, whoever runs beside whom.** Any number of
workers make any calls on one store, in any order of their transactions. A handler run above its
policy's threshold comes after a moment at which its key was approved; and what was once queued
under a key is never replaced, only decided. -/
theorem gate_holds_among_workers (calls : ι → List (Call σ)) (w : World S σ) (schedule : List ι) :
    (∀ inv ∈ (afterSchedule calls w schedule).invocations, inv ∈ w.snapshot.invocations ∨
      (inv.policy.approvalThreshold < inv.action.cost → ∃ before rec, before <+: schedule ∧
        GuardStore.getApproval (worldAfter calls w before).store inv.runId
          inv.action.idempotencyKey = some rec ∧ rec.state = .approved)) ∧
    ∀ before, before <+: schedule → ∀ run key rec,
      GuardStore.getApproval (worldAfter calls w before).store run key = some rec → ∃ state,
        GuardStore.getApproval (worldAfter calls w schedule).store run key =
          some { rec with state := state } := by
  simp only [getApproval_eq]
  refine ⟨fun inv hinv => ?_, ?_⟩
  · obtain ⟨points, hkept, _⟩ := workers_keep .all calls w
      (I := fun past points s => GateKept calls w past points s)
      (fun _ call _ => Scope.all_covers call) (fun _ _ _ _ => trivial)
      ⟨(fun _ _ h => by cases h), fun inv hinv => .inl hinv⟩
      (fun _ _ _ _ _ h hmove => h.move hmove) schedule
    refine (hkept.ran inv hinv).imp_right fun honce hgated => ?_
    obtain ⟨before, hprefix, rec, hrec, hstate⟩ := honce hgated
    exact ⟨before, rec, hprefix, hrec, hstate⟩
  · obtain ⟨points, hkept, _⟩ := workers_keep .all calls w
      (I := fun past _ s => ∀ before, before <+: past → ∀ run key rec,
        (afterSchedule calls w before).state.approval run key = some rec → ∃ state,
          s.state.approval run key = some { rec with state := state })
      (fun _ call _ => Scope.all_covers call) (fun _ _ _ _ => trivial)
      (fun before hbefore run key rec hrec => by
        obtain rfl := List.prefix_nil.mp hbefore
        exact ⟨rec.state, hrec⟩)
      (fun past points i c' _ h hmove before hbefore run key rec hrec => by
        rcases List.prefix_concat_iff.mp hbefore with rfl | hpast
        · exact ⟨rec.state, hrec⟩
        · obtain ⟨state, hstays⟩ := h before hpast run key rec hrec
          obtain ⟨state', hstays'⟩ := hmove.approval_stays hstays
          exact ⟨state', hstays'⟩) schedule
    exact hkept

namespace Sample

/-- Two workers are handed one payment of 900, and the first of them may approve it. -/
def beside : Bool → List (Call Unit) := fun second =>
  .execute executor (pay 900) :: if second then [] else [.approve executor ⟨0⟩]

/-- They take turns. -/
def inTurns : List Bool := (List.replicate 24 [false, true]).flatten

/-- Both on a new store. -/
def besideWorld : List Bool → World InMemoryGuardStore Unit := worldAfter beside (.fresh ())

end Sample

open Sample

theorem payment_runs_beside : (besideWorld inTurns).snapshot.invocations.map
    (fun inv => (inv.runId, inv.action.idempotencyKey, inv.policy.approvalThreshold,
      inv.action.cost)) = [("run", "key", 500, 900)] := by
  decide +kernel

theorem gate_holds_among_two : ∃ before rec, before <+: inTurns ∧
    GuardStore.getApproval (besideWorld before).store "run" "key" = some rec ∧
    rec.state = .approved := by
  have hmem : ("run", "key", (500 : ℚ), (900 : ℚ)) ∈
      (besideWorld inTurns).snapshot.invocations.map fun inv => (inv.runId,
        inv.action.idempotencyKey, inv.policy.approvalThreshold, inv.action.cost) := by
    rw [payment_runs_beside]
    exact List.mem_cons_self
  obtain ⟨inv, hinv, hshape⟩ := List.mem_map.mp hmem
  simp only [Prod.mk.injEq] at hshape
  obtain ⟨hrun, hkey, hthreshold, hcost⟩ := hshape
  rcases (gate_holds_among_workers beside (.fresh ()) inTurns).1 inv hinv with hold | hgate
  · cases hold
  · obtain ⟨before, rec, hprefix, hrec, hstate⟩ :=
      hgate (by rw [hthreshold, hcost]; decide +kernel)
    rw [hrun, hkey] at hrec
    exact ⟨before, rec, hprefix, hrec, hstate⟩

end PaymentRecovery.Guardrails

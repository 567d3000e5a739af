import PaymentRecovery.Recovery.Effects
import PaymentRecovery.Recovery.Pending

/-!
# Approvals in the ledger

Operators see held actions as the ledger rows that say `pending_approval`. A rule's
row always names the approval its action was queued under. The agent's row names
one approval, the newest of its run, and only if the LLM finished right after an
action was held: an approval queued in any other run of the loop is in the guard
store and in no row. What a row names is always an approval the store knows.
-/

namespace PaymentRecovery.Recovery

open PaymentRecovery.Python PaymentRecovery.Guardrails PaymentRecovery.Providers
open PaymentRecovery.Agent PaymentRecovery.Lib Program

variable {S τ : Type} [GuardStore S]

/-! ## What operators see -/

/-- The approval is pending in the second world, and the first one has not heard of it. -/
def Queued (w w' : World S (Env τ)) (rec : ApprovalRecord) : Prop :=
  (∃ run, rec ∈ GuardStore.listPending w'.store run) ∧
    GuardStore.getApprovalById w.store rec.approvalId = none

/-- Operators see the approval among those of the payment. -/
def Surfaced (ledger : Ledger) (paymentId : String) (rec : ApprovalRecord) : Prop :=
  ∃ row ∈ ledger.pendingApprovals, row.paymentId = paymentId ∧ row.outcome = "pending_approval" ∧
    row.approvalId = some rec.approvalId

/-- Every approval queued while the event was processed, and still pending, is visible. -/
def SurfacesApprovals (id : Nat) (w w' : World S (Env τ)) : Prop :=
  ∀ row, w.env.db.event id = some row → ∀ rec, Queued w w' rec →
    Surfaced w'.env.db.ledger row.paymentId rec

variable [LawfulGuardStore S]

theorem listPending_known {store : S} {run : String} {rec : ApprovalRecord}
    (h : rec ∈ GuardStore.listPending store run) :
    (LawfulGuardStore.view store).approvalById rec.approvalId = some rec ∧
    (LawfulGuardStore.view store).approvalKey rec.approvalId ≠ none := by
  obtain ⟨key, hrec, _⟩ := (LawfulGuardStore.mem_listPending store run rec).mp h
  have hwf := LawfulGuardStore.view_wf store
  refine ⟨hwf.approvalById_of_approval hrec, ?_⟩
  rw [(hwf.approval_own run key rec hrec).2.2]
  exact Option.some_ne_none _

theorem getApprovalById_none {store : S} {id : ApprovalId} :
    GuardStore.getApprovalById store id = none ↔
      (LawfulGuardStore.view store).approvalKey id = none := by
  rw [LawfulGuardStore.getApprovalById_eq]
  constructor
  · intro hnone
    cases hkey : (LawfulGuardStore.view store).approvalKey id with
    | none => rfl
    | some rk =>
      -- an id that has a key has its record there
      obtain ⟨rec, hrec, _⟩ :=
        (LawfulGuardStore.view_wf store).approvalKey_held id rk.1 rk.2 hkey
      unfold GuardState.approvalById at hnone
      rw [hkey, Option.bind_some, hrec] at hnone
      cases hnone
  · intro hnone
    unfold GuardState.approvalById
    rw [hnone]
    rfl

theorem Queued.new {w w' : World S (Env τ)} {rec : ApprovalRecord} (h : Queued w w' rec) :
    w.snapshot.state.approvalKey rec.approvalId = none ∧
    w'.snapshot.state.approvalKey rec.approvalId ≠ none := by
  obtain ⟨⟨run, hmem⟩, hnone⟩ := h
  exact ⟨getApprovalById_none.mp hnone, (listPending_known hmem).2⟩

/-- Nothing is queued where the approval ids stay as they are. -/
theorem not_queued {w w' : World S (Env τ)}
    (h : w'.snapshot.state.approvalKey = w.snapshot.state.approvalKey) (rec : ApprovalRecord) :
    ¬ Queued w w' rec := by
  intro hqueued
  obtain ⟨hnone, hknown⟩ := hqueued.new
  rw [h] at hknown
  exact hknown hnone

/-! ## Rows name known approvals -/

/-- The store knows every approval a row names. -/
def Names (rows : List LedgerEntry) (g : GuardState) : Prop :=
  ∀ row ∈ rows, ∀ id, row.approvalId = some id → g.approvalKey id ≠ none

/-- So it is in the whole world. -/
def Known (w : World S (Env τ)) : Prop :=
  Names w.env.db.ledger.rows w.snapshot.state

/-- The tables are those of `w`, and every approval its rows name is known. -/
def SameRows (w v : World S (Env τ)) : Prop :=
  (v.env.db.ledger = w.env.db.ledger ∧ v.env.db.events = w.env.db.events) ∧
    Names w.env.db.ledger.rows v.snapshot.state

theorem SameRows.known {w v : World S (Env τ)} (h : SameRows w v) : Known v := by
  unfold Known
  rw [h.1.1]
  exact h.2

/-- Acting on an event leaves the tables alone and forgets no approval. -/
theorem sameRows_keeps (p : RecoveryPipeline τ) (w : World S (Env τ)) :
    p.Keeps (SameRows w) (SameRows w) := by
  refine RecoveryPipeline.Keeps.and (p.keeps_tables w.env.db.ledger w.env.db.events)
    (RecoveryPipeline.Keeps.of_snapshot (C := fun s => Names w.env.db.ledger.rows s.state)
      (I := fun s => Names w.env.db.ledger.rows s.state) p (fun _ h => h) ?_ ?_)
  · intro case provider action s s' _ _ h hcut row hrow id hid
    exact hcut.approvalKey_kept (h row hrow id hid)
  · intro case provider action s answer s' _ _ h hstep row hrow id hid
    exact hstep.approvalKey_kept (h row hrow id hid)

/-- A rule's row names the approval of its answer. -/
theorem rule_names (p : RecoveryPipeline τ) {case : RecoveryCase} {provider : PaymentProvider τ}
    {decision : RoutingDecision} {w : World S (Env τ)} {fields : LedgerFields} {id : ApprovalId}
    (hrow : ((p.runRule case provider decision).run w).1 = .ok fields)
    (hid : fields.approvalId = some id) :
    ((p.runRule case provider decision).run w).2.snapshot.state.approvalKey id ≠ none := by
  rcases p.runRule_returned hrow with ⟨_, htells⟩ | ⟨action, result, _, hstep, htells⟩
  · cases htells with
    | nothing _ haction houtcome happroval =>
      rw [happroval] at hid
      cases hid
  · cases htells with
    | answered => exact hstep.approvalId_known (LawfulGuardStore.view_wf w.store) hid

/-- An agent's row names the newest pending approval. -/
theorem agent_names (p : RecoveryPipeline τ) {case : RecoveryCase} {provider : PaymentProvider τ}
    {w : World S (Env τ)} {fields : LedgerFields} {id : ApprovalId}
    (hrow : ((p.runAgent case provider).run w).1 = .ok fields)
    (hid : fields.approvalId = some id) :
    ((p.runAgent case provider).run w).2.snapshot.state.approvalKey id ≠ none := by
  obtain ⟨done, s, _, _, hends⟩ := p.runAgent_ends case provider w
  cases hends with
  | raised exc hloop hraised =>
    rw [hraised] at hrow
    cases hrow
  | returned trajectory trajectoryId hloop hsnap htells hreturned hstore hjournal =>
    rw [hreturned] at hrow
    injection hrow with hfields
    subst hfields
    have happroval : RecoveryPipeline.approvalOf case trajectory
        ((p.runRecovery case provider).run w).2.store = some id := hid
    unfold RecoveryPipeline.approvalOf at happroval
    split at happroval
    · obtain ⟨rec, hnewest, hsame⟩ := Option.map_eq_some_iff.mp happroval
      have hknown := (listPending_known (RecoveryPipeline.newest_mem hnewest)).2
      show (LawfulGuardStore.view _).approvalKey id ≠ none
      rw [hstore, ← hsame]
      exact hknown
    · cases happroval

/-- Either way the row names a known approval, or none. -/
theorem act_names (p : RecoveryPipeline τ) {case : RecoveryCase} {provider : PaymentProvider τ}
    {decision : RoutingDecision} {w : World S (Env τ)} {fields : LedgerFields} {id : ApprovalId}
    (hrow : ((p.act case provider decision).run w).1 = .ok fields)
    (hid : fields.approvalId = some id) :
    ((p.act case provider decision).run w).2.snapshot.state.approvalKey id ≠ none := by
  unfold RecoveryPipeline.act at hrow ⊢
  cases hroute : decision.route with
  | deterministic =>
    rw [hroute] at hrow
    exact rule_names p hrow hid
  | escalateToAgent =>
    rw [hroute] at hrow
    exact agent_names p hrow hid

/-- What routing and acting return names a known approval. -/
theorem routeAndAct_names (p : RecoveryPipeline τ) {event : NormalisedEvent} {w : World S (Env τ)}
    {fields : LedgerFields} {id : ApprovalId} (hrow : ((p.routeAndAct event).run w).1 = .ok fields)
    (hid : fields.approvalId = some id) :
    ((p.routeAndAct event).run w).2.snapshot.state.approvalKey id ≠ none := by
  unfold RecoveryPipeline.routeAndAct at hrow ⊢
  rw [run_bind] at hrow ⊢
  cases hprepare : (p.prepare event).run w with
  | mk answer w₁ =>
    rw [hprepare] at hrow
    cases answer with
    | error exc => cases hrow
    | ok prepared => exact act_names p hrow hid

/-- A new row that names a known approval, or none. -/
theorem Known.recorded {w : World S (Env τ)} (h : Known w) (base : LedgerBase)
    (fields : LedgerFields) (hnew : w.env.db.ledger.forEvent base.internalEventId = none)
    (hfields : ∀ id, fields.approvalId = some id → w.snapshot.state.approvalKey id ≠ none) :
    Known { w with env := { w.env with db := { w.env.db with
      ledger := (w.env.db.ledger.record base fields).2 } } } := by
  unfold Known
  dsimp only
  rw [(Ledger.record_new _ _ hnew).2]
  intro row hrow id hid
  rcases List.mem_append.mp hrow with hold | hlast
  · exact h row hold id hid
  · rw [List.mem_singleton.mp hlast] at hid
    exact hfields id hid

/-- The rows are those of `w`, and the fields name a known approval. -/
def NamesKnown (w : World S (Env τ)) (fields : LedgerFields) (v : World S (Env τ)) : Prop :=
  SameRows w v ∧ ∀ id, fields.approvalId = some id → v.snapshot.state.approvalKey id ≠ none

/-- Acting on a due event, wherever the process dies, names known approvals only. -/
theorem handle_known (p : RecoveryPipeline τ) {id : Nat} {event : NormalisedEvent}
    {w : World S (Env τ)} (hknown : Known w) (hnew : w.env.db.ledger.forEvent id = none) :
    Triple Known (fun v => v = w) (p.handle id event : Pipe S τ Nat) fun _ => Known := by
  have hkeeps := sameRows_keeps p w
  have htick := Triple.cuts (hkeeps.onEnv (quiet_tick p.monotonic)) fun _ => SameRows.known
  have hact : Triple Known (SameRows w)
      (tryCatch (p.routeAndAct event) fun exc =>
        (pure (RecoveryPipeline.failedFields exc) : Pipe S τ LedgerFields))
      fun answer v => SameRows w v ∧ ∀ fields, answer = .ok fields → NamesKnown w fields v := by
    refine Triple.tryCatch (Q := fun answer v => SameRows w v ∧ ∀ fields, answer = .ok fields →
      NamesKnown w fields v) (fun v hv => ?_) (fun _ _ h => h) fun exc => ?_
    · have hcarries := RecoveryPipeline.routeAndAct_carries hkeeps event v hv
      exact ⟨fun c hc => (hcarries.1 c hc).known, hcarries.2,
        fun fields hfields => ⟨hcarries.2, fun id hid => routeAndAct_names p hfields hid⟩⟩
    · refine Triple.pure fun v hv => ⟨hv.1, fun fields hfields => ⟨hv.1, fun id hid => ?_⟩⟩
      -- a failed row names no approval
      injection hfields with hfields
      rw [← hfields] at hid
      cases hid
  have hstart : SameRows w w := ⟨⟨rfl, rfl⟩, hknown⟩
  refine Triple.pre (P := SameRows w) ?_ fun v hv => hv ▸ hstart
  refine Triple.bind htick (fun start => ?_) fun _ v hv => hv.known
  refine Triple.bind hact (fun fields => ?_) fun _ v hv => hv.1.known
  refine Triple.bind (Q := fun _ => NamesKnown w fields)
    (Triple.step fun v hv => ⟨SameRows.known hv.1, hv.2 fields rfl⟩) (fun ended => ?_)
    fun _ v hv => hv.1.known
  refine Triple.bind (Q := fun _ => Known) (Triple.attempt fun v hv => ?_)
    (fun ledgerId => ?_) fun _ _ hv => hv
  · have hrecorded := hv.1.known.recorded (RecoveryPipeline.baseOf id event)
      { fields with latencyMs := (ended - start) * 1000 }
      (by rw [hv.1.1.1]; exact hnew) hv.2
    exact ⟨hrecorded, hrecorded⟩
  · exact Triple.bind (Q := fun _ => Known) (Triple.attempt fun v hv => ⟨hv, hv⟩)
      (fun _ => Triple.pure fun _ hv => hv) fun _ _ hv => hv

/-- One call to `process`, wherever it dies, names known approvals only. -/
theorem process_known (p : RecoveryPipeline τ) (id : Nat) :
    Carries Known Known (p.process id : Pipe S τ (Option Nat)) := by
  intro w hw
  refine RecoveryPipeline.process_from hw hw (fun event earlier hre => ?_) fun event hdue =>
    handle_known p hw hdue.norow
  refine Triple.attempt fun v hv => ?_
  subst hv
  have hrecorded := hw.recorded (RecoveryPipeline.baseOf id event)
    { path := .duplicateDelivery, outcome := "duplicate",
      error := some ("duplicate of ledger row " ++ toString earlier.id ++ "; not re-processed") }
    hre.norow fun id hid => (by cases hid)
  exact ⟨hrecorded, hrecorded⟩

/-- After any history every approval a row names is known to the store. -/
theorem runOps_known (ops : List (Op τ)) {w : World S (Env τ)} (hw : Known w) :
    Known (runOps ops w) := by
  refine Run.exec_inv (P := Known) (fun w op hw => ?_) hw
  cases op with
  | deliver event => exact hw
  | process p id fate => exact fate.leaves_of_carries (process_known p id) hw
  | drain p limit fate =>
    exact fate.leaves_of_carries
      (p.processPending_carries (fun _ h => h) (process_known p) limit) hw
  | changeRules rules => exact hw
  | outside f => exact hw

theorem known_opened (store : S) (outer : τ) (rules : List RuleRow) :
    Known (World.opened store outer rules) :=
  fun _ hrow => absurd hrow List.not_mem_nil

/-! ## Which approvals the rows surface -/

/-- The loop was left before the LLM finished. -/
def Trajectory.CutOff (trajectory : Trajectory) : Prop :=
  trajectory.outcome = .maxIterations ∨ trajectory.outcome = .failedTimeout ∨
    trajectory.outcome = .failedMalformed

/-- For every approval the agent's run queues: the LLM finishes the run, the gate stops the
last action it presents, and the approval is the newest pending one of the payment's run. -/
def RecoveryPipeline.Surfaces (p : RecoveryPipeline τ) (case : RecoveryCase)
    (provider : PaymentProvider τ) (w : World S (Env τ)) : Prop :=
  ∀ rec, Queued w ((p.runRecovery case provider).run w).2 rec →
    (∃ trajectory, ((p.runRecovery case provider).run w).1 = .ok trajectory ∧
      ¬ Trajectory.CutOff trajectory) ∧
    EndsIn (p.caseExecutor case provider) (HeldBack (p.caseExecutor case provider)) w.snapshot
      ((p.runRecovery case provider).run w).2.snapshot ∧
    RecoveryPipeline.newest (GuardStore.listPending ((p.runRecovery case provider).run w).2.store
      case.paymentId) = some rec

/-- The fields surface an approval. -/
def LedgerFields.SurfacesId (fields : LedgerFields) (id : ApprovalId) : Prop :=
  fields.outcome = "pending_approval" ∧ fields.approvalId = some id

/-- What is returned for the row surfaces every approval queued since `w`. -/
def FieldsSurface (w : World S (Env τ)) (answer : Except PyExc LedgerFields)
    (w' : World S (Env τ)) : Prop :=
  ∀ rec, Queued w w' rec → (RecoveryPipeline.fieldsOf answer).SurfacesId rec.approvalId

omit [LawfulGuardStore S] in
theorem queued_congr {w₁ w₂ w₁' w₂' : World S (Env τ)} (h : w₁.store = w₂.store)
    (h' : w₁'.store = w₂'.store) (rec : ApprovalRecord) : Queued w₁ w₁' rec ↔ Queued w₂ w₂' rec := by
  unfold Queued
  rw [h, h']

/-- A rule's row names the one approval its call can queue. -/
theorem rule_surfaces (p : RecoveryPipeline τ) {case : RecoveryCase}
    {provider : PaymentProvider τ} {decision : RoutingDecision} {w : World S (Env τ)}
    {rec : ApprovalRecord} (hqueued : Queued w ((p.runRule case provider decision).run w).2 rec) :
    (RecoveryPipeline.fieldsOf ((p.runRule case provider decision).run w).1).SurfacesId
      rec.approvalId := by
  obtain ⟨hnone, hknown⟩ := hqueued.new
  cases hrow : ((p.runRule case provider decision).run w).1 with
  | error exc =>
    rcases p.runRule_raised hrow with hsame | ⟨action, exc', hstep⟩
    · rw [hsame] at hknown
      exact absurd hnone hknown
    · rcases hstep.approvals with ⟨_, hkeys⟩ | ⟨_, _, hanswer, _⟩
      · rw [hkeys] at hknown
        exact absurd hnone hknown
      · cases hanswer
  | ok fields =>
    rcases p.runRule_returned hrow with ⟨hsame, _⟩ | ⟨action, result, _, hstep, htells⟩
    · rw [hsame] at hknown
      exact absurd hnone hknown
    · rcases hstep.approvals with ⟨_, hkeys⟩ |
        ⟨rec₀, result₀, hanswer, hstatus, hid, _, _, _, _, _, hkeys⟩
      · rw [hkeys] at hknown
        exact absurd hnone hknown
      · -- the approval is the one this call queued
        injection hanswer with hanswer
        subst hanswer
        have hsame : rec.approvalId = rec₀.approvalId := by
          by_contra hne
          refine hknown ?_
          rw [hkeys]
          show (if rec.approvalId = rec₀.approvalId then _ else _) = none
          rw [if_neg hne]
          exact hnone
        cases htells with
        | answered =>
          refine ⟨?_, ?_⟩
          · show RecoveryPipeline.outcomeFor result.status action.name = _
            rw [hstatus]
            rfl
          · rw [hsame]
            exact hid

/-- A trajectory says `pending_approval` if and only if the LLM finished it and the last
answer was `pending_approval`. -/
theorem Tells.pending_iff {done : List (Action × ExecutionResult)} {trajectory : Trajectory}
    (h : Tells done trajectory) : trajectory.outcome = .pendingApproval ↔
      ¬ Trajectory.CutOff trajectory ∧
        done.getLast?.map (fun call => call.2.status) = some .pendingApproval := by
  unfold Trajectory.CutOff
  rcases h.outcome with hcut | hcut | hcut | ⟨resolution, progress, hfinal, hprogress⟩
  · simp [hcut]
  · simp [hcut]
  · simp [hcut]
  · -- a final decision: held if and only if the last status says so
    rw [lastAnswer_eq] at hprogress
    injection hprogress with hstatus
    rw [hfinal, AgentLoop.finalOutcome_pending, hstatus]
    refine ⟨fun hpending => ⟨?_, hpending⟩, fun hpending => hpending.2⟩
    rw [AgentLoop.finalOutcome_pending.mpr (hstatus.trans hpending)]
    simp

/-- Two pending records under one id are one record. -/
theorem listPending_unique {store : S} {run run' : String} {rec rec' : ApprovalRecord}
    (h : rec ∈ GuardStore.listPending store run) (h' : rec' ∈ GuardStore.listPending store run')
    (hid : rec.approvalId = rec'.approvalId) : rec = rec' := by
  have hrec := (listPending_known h).1
  rw [hid, (listPending_known h').1] at hrec
  exact (Option.some.inj hrec).symm

/-- The agent's row surfaces every approval its run queued if and only if the run was
finished right after one was held. -/
theorem agent_surfaces_iff (p : RecoveryPipeline τ) (case : RecoveryCase)
    (provider : PaymentProvider τ) (w : World S (Env τ)) :
    FieldsSurface w ((p.runAgent case provider).run w).1 ((p.runAgent case provider).run w).2 ↔
      p.Surfaces case provider w := by
  obtain ⟨done, s, hexec, _, hends⟩ := p.runAgent_ends case provider w
  unfold RecoveryPipeline.Surfaces FieldsSurface
  cases hends with
  | raised exc hloop hraised =>
    rw [hraised]
    refine forall_congr' fun rec => imp_congr_right fun _ => ⟨fun h => (by cases h.2), ?_⟩
    rintro ⟨⟨trajectory, hok, _⟩, _⟩
    rw [hloop] at hok
    cases hok
  | returned trajectory trajectoryId hloop hsnap htells hrow hstore hjournal =>
    rw [← hsnap] at hexec
    rw [hrow, hloop, hexec.endsIn_iff fun _ _ _ _ hstep => hstep.held_iff]
    refine forall_congr' fun rec => ?_
    rw [queued_congr rfl hstore]
    refine imp_congr_right fun hqueued => ?_
    obtain ⟨⟨run, hmem⟩, _⟩ := hqueued
    constructor
    · -- a row that says so was finished right after a held call, and names the newest record
      rintro ⟨houtcome, hid⟩
      have hpending : trajectory.outcome = .pendingApproval :=
        AgentOutcome.value_injective houtcome
      obtain ⟨hfinished, hlast⟩ := (Tells.pending_iff htells).mp hpending
      have hnewest : RecoveryPipeline.approvalOf case trajectory _ = some rec.approvalId := hid
      unfold RecoveryPipeline.approvalOf at hnewest
      rw [if_pos hpending] at hnewest
      obtain ⟨rec', hrec', hsame⟩ := Option.map_eq_some_iff.mp hnewest
      refine ⟨⟨trajectory, rfl, hfinished⟩, hlast, ?_⟩
      rw [hrec', listPending_unique (RecoveryPipeline.newest_mem hrec') hmem hsame]
    · rintro ⟨⟨trajectory', hsame, hfinished⟩, hlast, hnewest⟩
      rw [Except.ok.inj hsame.symm] at hfinished
      have hpending := (Tells.pending_iff htells).mpr ⟨hfinished, hlast⟩
      refine ⟨?_, ?_⟩
      · show trajectory.outcome.value = _
        rw [hpending]
        rfl
      · show RecoveryPipeline.approvalOf case trajectory _ = _
        unfold RecoveryPipeline.approvalOf
        rw [if_pos hpending, hnewest]
        rfl

/-- Of a handled event only the new row can surface a new approval. -/
theorem RecoveryPipeline.Handled.surfaces_iff {p : RecoveryPipeline τ} {id : Nat}
    {event : NormalisedEvent} {w w' : World S (Env τ)} (h : p.Handled id event w w')
    (hdue : Due w.env.db id event) (hknown : Known w) :
    SurfacesApprovals id w w' ↔ FieldsSurface w (p.acted event w).1 (p.acted event w).2 := by
  obtain ⟨row, hrows, _, hpayment, _, _, houtcome, happroval, _⟩ := h.row hdue.norow
  obtain ⟨eventRow, heventRow, hnormalised⟩ := hdue.row
  have hevent : event.paymentId = eventRow.paymentId :=
    (InternalEvent.normalised_ok hnormalised).2.2.1
  have hsurfaced : ∀ rec, Queued w w' rec → (Surfaced w'.env.db.ledger eventRow.paymentId rec ↔
      (RecoveryPipeline.fieldsOf (p.acted event w).1).SurfacesId rec.approvalId) := by
    intro rec hqueued
    unfold Surfaced LedgerFields.SurfacesId
    rw [← houtcome, ← happroval]
    constructor
    · rintro ⟨other, hmem, _, hout, hid⟩
      have hrow := (List.mem_filter.mp hmem).1
      rw [hrows] at hrow
      rcases List.mem_append.mp hrow with hold | hlast
      · -- a row from before names an approval known before
        exact absurd hqueued.new.1 (hknown other hold _ hid)
      · rw [List.mem_singleton.mp hlast] at hout hid
        exact ⟨hout, hid⟩
    · rintro ⟨hout, hid⟩
      refine ⟨row, List.mem_filter.mpr ⟨?_, by simpa using hout⟩, hpayment.trans hevent, hout, hid⟩
      rw [hrows]
      exact List.mem_append_right _ List.mem_cons_self
  constructor
  · intro hall rec hqueued
    have hqueued' : Queued w w' rec := (queued_congr rfl h.store rec).mpr hqueued
    exact (hsurfaced rec hqueued').mp (hall eventRow heventRow rec hqueued')
  · intro hall other hother rec hqueued
    rw [Option.some.inj (hother.symm.trans heventRow)]
    exact (hsurfaced rec hqueued).mpr (hall rec ((queued_congr rfl h.store rec).mp hqueued))

/-- **Which held actions operators see.** After any history, a call to `process` surfaces every
approval it queued if and only if, where the event is handed to the agent, the agent's run is
finished right after the approval was held, as the newest one of the payment's run. -/
theorem approvals_surfaced_iff (store : S) (outer : τ) (rules : List RuleRow)
    (ops : List (Op τ)) (p : RecoveryPipeline τ) (id : Nat) :
    let w := runOps ops (World.opened store outer rules)
    SurfacesApprovals id w ((p.process id).run w).2 ↔
      ∀ event case provider decision w₁, Due w.env.db id event →
        p.Reaches event w case provider decision w₁ → decision.route = .escalateToAgent →
        p.Surfaces case provider w₁ := by
  intro w
  have hknown : Known w := runOps_known ops (known_opened store outer rules)
  have hqueued : ∀ {w₁ : World S (Env τ)}, w₁.store = w.store → ∀ w' rec,
      Queued w w' rec ↔ Queued w₁ w' rec := fun hstore _ => queued_congr hstore.symm rfl
  have hsame : ∀ {w' : World S (Env τ)}, w'.store = w.store → ∀ rec, ¬ Queued w w' rec :=
    fun {w'} hstore rec h => by
      have hself : Queued w w rec := (queued_congr rfl hstore rec).mp h
      exact not_queued rfl rec hself
  refine p.process_iff_agent id w (X := FieldsSurface w) (A := p.Surfaces)
    (fun w' hstore row _ rec h => absurd h (hsame hstore rec))
    (fun event w' hdue hhandled => hhandled.surfaces_iff hdue hknown)
    (fun exc w' hstore rec h => absurd h (hsame hstore rec))
    (fun case provider decision w₁ hstore => ?_) fun case provider w₁ hstore => ?_
  · intro rec h
    exact rule_surfaces p ((hqueued hstore _ rec).mp h)
  · unfold FieldsSurface
    simp only [hqueued hstore]
    exact agent_surfaces_iff p case provider w₁

/-- The LLM asks for the refund, which is above the threshold. -/
def Sample.askRefund : Json :=
  .obj [("action", .obj [("tool", .str "refund_payment"), ("args", .obj [])])]

/-- A refund is held, and then a link is sent. -/
theorem approval_not_surfaced :
    ¬ SurfacesApprovals 1 (Sample.arrived [Sample.askRefund, Sample.sendLink, Sample.finish])
      ((Sample.pipeline.process 1).run
        (Sample.arrived [Sample.askRefund, Sample.sendLink, Sample.finish])).2 := by
  intro hall
  obtain ⟨rec, hmem, hnew⟩ : ∃ rec ∈ GuardStore.listPending ((Sample.pipeline.process 1).run
      (Sample.arrived [Sample.askRefund, Sample.sendLink, Sample.finish])).2.store "pay_1",
      GuardStore.getApprovalById (Sample.arrived
        [Sample.askRefund, Sample.sendLink, Sample.finish]).store rec.approvalId = none := by
    decide +kernel
  have hnone : ((Sample.pipeline.process 1).run (Sample.arrived
      [Sample.askRefund, Sample.sendLink, Sample.finish])).2.env.db.ledger.pendingApprovals.length =
        0 := by
    decide +kernel
  obtain ⟨row, hrow, _⟩ := hall _ rfl rec ⟨⟨"pay_1", hmem⟩, hnew⟩
  rw [List.length_eq_zero_iff.mp hnone] at hrow
  cases hrow

end PaymentRecovery.Recovery

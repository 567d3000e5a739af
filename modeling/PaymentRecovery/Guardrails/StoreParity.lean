import Mathlib.SetTheory.Cardinal.Arithmetic
import PaymentRecovery.Guardrails.InMemoryStore
import PaymentRecovery.Guardrails.SqlStore
import PaymentRecovery.Guardrails.Parity

/-!
# Store parity

Executors on any number of runs share one store. A sequence of operations
against the in-memory store and the same sequence against the SQL store answer
alike at every step, up to one renaming of the approval ids, the clock readings
and the order in which pending approvals are listed.
-/

namespace PaymentRecovery.Guardrails

open PaymentRecovery.Python PaymentRecovery.Lib Program

variable {ι S T σ κ κ' : Type}

/-! ## Operations and their answers -/

/-- An operation on one of the executors. -/
inductive GuardOp (ι σ : Type) where
  | register (i : ι) (actionName : String) (handler : EffectHandler σ)
  | execute (i : ι) (action : Action)
  | approve (i : ι) (id : ApprovalId)
  | rejectApproval (i : ι) (id : ApprovalId)
  | pendingApprovals (i : ι)

/-- What an operation returns. -/
inductive GuardAnswer where
  | registered
  | result (result : ExecutionResult)
  | rejected
  | pending (records : List ApprovalRecord)

/-- An effect handler does not see the clock of the store. -/
def timed (handler : EffectHandler σ) : EffectHandler (σ × κ) := fun action env =>
  ((handler action env.1).1, ((handler action env.1).2, env.2))

/-- The clock of the store does not see the effects. -/
def ticking (clock : κ → Time × κ) (env : σ × κ) : Time × (σ × κ) :=
  ((clock env.2).1, (env.1, (clock env.2).2))

/-- Executors over one store. -/
structure Fleet (ι S σ : Type) where
  executors : ι → GuardedExecutor σ
  world : World S σ

namespace Fleet

/-- New executors over a new store, whose clock starts at `time`. -/
def fresh [GuardStore S] (runId : ι → String) (policy : ι → GuardPolicy) (clock : κ → Time × κ)
    (effects : σ) (time : κ) : Fleet ι S (σ × κ) :=
  ⟨fun i => .new (runId i) (policy i) (ticking clock), .fresh (effects, time)⟩

/-- Run a program on the shared world. -/
def running {α : Type} (f : Fleet ι S σ) (program : Program (World S σ) PyExc α) :
    Except PyExc α × Fleet ι S σ :=
  ((program.run f.world).1, { f with world := (program.run f.world).2 })

theorem running_map {α β : Type} (f : Fleet ι S σ) (g : α → β)
    (program : Program (World S σ) PyExc α) : f.running (g <$> program) =
      (g <$> (program.run f.world).1, { f with world := (program.run f.world).2 }) := by
  unfold running
  rw [run_map]

end Fleet

namespace GuardOp

/-- One operation: its answer, and the executors and the store after it. -/
def run [DecidableEq ι] [GuardStore S] (op : GuardOp ι σ) (f : Fleet ι S (σ × κ)) :
    Except PyExc GuardAnswer × Fleet ι S (σ × κ) :=
  match op with
  | .register i actionName handler =>
    (.ok .registered, { f with
      executors := Function.update f.executors i
        ((f.executors i).register actionName (timed handler)) })
  | .execute i action => f.running (GuardAnswer.result <$> (f.executors i).execute action)
  | .approve i id => f.running (GuardAnswer.result <$> (f.executors i).approve id)
  | .rejectApproval i id =>
    f.running ((fun _ => GuardAnswer.rejected) <$> (f.executors i).rejectApproval id)
  | .pendingApprovals i => f.running (GuardAnswer.pending <$> (f.executors i).pendingApprovals)

/-- The same operation on a renamed approval. -/
def rename (ρ : ApprovalId → ApprovalId) : GuardOp ι σ → GuardOp ι σ
  | .approve i id => .approve i (ρ id)
  | .rejectApproval i id => .rejectApproval i (ρ id)
  | op => op

/-- The approval the caller names. -/
def approvalId? : GuardOp ι σ → Option ApprovalId
  | .approve _ id | .rejectApproval _ id => some id
  | _ => none

theorem rename_congr {ρ ρ' : ApprovalId → ApprovalId} {op : GuardOp ι σ}
    (h : ∀ id, op.approvalId? = some id → ρ id = ρ' id) : op.rename ρ = op.rename ρ' := by
  cases op with
  | approve i id => exact congrArg (GuardOp.approve i) (h id rfl)
  | rejectApproval i id => exact congrArg (GuardOp.rejectApproval i) (h id rfl)
  | _ => rfl

/-- The call the operation makes of its executor. -/
def call? (f : Fleet ι S (σ × κ)) : GuardOp ι σ → Option (Call (σ × κ))
  | .execute i action => some (.execute (f.executors i) action)
  | .approve i id => some (.approve (f.executors i) id)
  | .rejectApproval i id => some (.rejectApproval (f.executors i) id)
  | .register .. | .pendingApprovals _ => none

theorem run_call? [DecidableEq ι] [GuardStore S] {f : Fleet ι S (σ × κ)} {op : GuardOp ι σ}
    {call : Call (σ × κ)} (h : op.call? f = some call) :
    (op.run f).2 = { f with world := (call.program.run f.world).2 } := by
  cases op with
  | execute i action =>
    cases h
    simp only [GuardOp.run, Fleet.running_map, run_execute_program]
  | approve i id =>
    cases h
    simp only [GuardOp.run, Fleet.running_map, run_approve_program]
  | rejectApproval i id =>
    cases h
    simp only [GuardOp.run, Fleet.running_map, run_rejectApproval_program]
  | register => cases h
  | pendingApprovals => cases h

/-- The others leave the store alone. -/
theorem run_no_call [DecidableEq ι] [GuardStore S] {f : Fleet ι S (σ × κ)} {op : GuardOp ι σ}
    (h : op.call? f = none) : (op.run f).2.world = f.world := by
  cases op with
  | register => rfl
  | pendingApprovals => rfl
  | execute => cases h
  | approve => cases h
  | rejectApproval => cases h

end GuardOp

/-- The operations one after another: each answer, with what it left behind. -/
def trace [DecidableEq ι] [GuardStore S] :
    List (GuardOp ι σ) → Fleet ι S (σ × κ) → List (Except PyExc GuardAnswer × Fleet ι S (σ × κ))
  | [], _ => []
  | op :: ops, f => op.run f :: trace ops (op.run f).2

theorem trace_cons [DecidableEq ι] [GuardStore S] (op : GuardOp ι σ) (ops : List (GuardOp ι σ))
    (f : Fleet ι S (σ × κ)) : trace (op :: ops) f = op.run f :: trace ops (op.run f).2 := rfl

/-! ## The same up to a renaming -/

/-- The record under another id, without its clock reading. -/
def ApprovalRecord.renamed (π : ApprovalId → ApprovalId) (rec : ApprovalRecord) : ApprovalRecord :=
  { rec.content with approvalId := π rec.approvalId }

/-- The result with another approval id. -/
def ExecutionResult.renamed (π : ApprovalId → ApprovalId) (r : ExecutionResult) : ExecutionResult :=
  { r with approvalId := r.approvalId.map π }

/-- Two answers are the same but for the names of approvals, the clock readings of their records
and the order in which these are listed. -/
inductive SameAnswer (π : ApprovalId → ApprovalId) :
    Except PyExc GuardAnswer → Except PyExc GuardAnswer → Prop where
  | registered : SameAnswer π (.ok .registered) (.ok .registered)
  | result (r : ExecutionResult) : SameAnswer π (.ok (.result r)) (.ok (.result (r.renamed π)))
  | rejected : SameAnswer π (.ok .rejected) (.ok .rejected)
  | pending {as bs : List ApprovalRecord}
    (h : (as.map (ApprovalRecord.renamed π)).Perm (bs.map (ApprovalRecord.renamed id))) :
    SameAnswer π (.ok (.pending as)) (.ok (.pending bs))
  | raised (exc : PyExc) : SameAnswer π (.error exc) (.error exc)
  | unknown (id : ApprovalId) :
    SameAnswer π (.error (noSuchApproval id)) (.error (noSuchApproval (π id)))

/-- What the two stores tell is the same, and the effects have done the same. -/
structure SameState [GuardStore S] [GuardStore T] (π : ApprovalId → ApprovalId)
    (w : World S (σ × κ)) (v : World T (σ × κ')) : Prop where
  audit : ∀ run, GuardStore.readAudit w.store run = GuardStore.readAudit v.store run
  spend : ∀ run, GuardStore.accumulatedSpend w.store run = GuardStore.accumulatedSpend v.store run
  count : ∀ run subject, GuardStore.subjectExecutedCount w.store run subject =
    GuardStore.subjectExecutedCount v.store run subject
  breaker : ∀ run, GuardStore.isBreakerOpen w.store run = GuardStore.isBreakerOpen v.store run
  result : ∀ run key, GuardStore.getResult w.store run key = GuardStore.getResult v.store run key
  approval : ∀ run key,
    (GuardStore.getApproval w.store run key).map (ApprovalRecord.renamed π) =
      (GuardStore.getApproval v.store run key).map (ApprovalRecord.renamed id)
  effects : w.env.1 = v.env.1

/-- One step of each side: the same answer, and the same state after it. -/
structure SameStep [GuardStore S] [GuardStore T] (π : ApprovalId → ApprovalId)
    (x : Except PyExc GuardAnswer × Fleet ι S (σ × κ))
    (y : Except PyExc GuardAnswer × Fleet ι T (σ × κ')) : Prop where
  answer : SameAnswer π x.1 y.1
  state : SameState π x.2.world y.2.world

/-! ## One renaming for all approvals -/

/-- The stores are compared on all runs. -/
def EveryRun (_ : String) : Prop := True

theorem everyRun (r : String) : EveryRun r := trivial

/-- The effects have done the same; the clocks may differ. -/
def SameEffects (env : σ × κ) (env' : σ × κ') : Prop := env.1 = env'.1

theorem timed_same (handler : EffectHandler σ) : SameHandler SameEffects
    (timed handler : EffectHandler (σ × κ)) (timed handler : EffectHandler (σ × κ')) := by
  intro action env env' henv
  unfold SameEffects at henv ⊢
  unfold timed
  rw [henv]
  exact ⟨rfl, rfl⟩

namespace GuardState

variable {g h : GuardState}

/-- Every approval known to both sides is renamed from one to the other. -/
def Linked (π : ApprovalId → ApprovalId) (g h : GuardState) : Prop :=
  ∀ a b, g.SameApproval h a b → π a = b

/-- An approval has one id. -/
theorem Wf.approvalKey_injective (hwf : g.Wf) {a b : ApprovalId} {rk : String × String}
    (ha : g.approvalKey a = some rk) (hb : g.approvalKey b = some rk) : a = b := by
  obtain ⟨rec, hrec, hid⟩ := hwf.approvalKey_held a rk.1 rk.2 ha
  obtain ⟨rec', hrec', hid'⟩ := hwf.approvalKey_held b rk.1 rk.2 hb
  rw [hrec] at hrec'
  injection hrec' with hrec'
  rw [← hid, ← hid', hrec']

instance : Infinite ApprovalId :=
  Infinite.of_injective ApprovalId.mk fun _ _ h => by injection h

/-- The finitely many approvals known to both sides are renamed by a bijection of all ids. -/
theorem exists_linked (hwf : g.Wf) (hwf' : h.Wf) (hfinite : {id | g.approvalKey id ≠ none}.Finite) :
    ∃ π : Equiv.Perm ApprovalId, Linked π g h := by
  have hknown : {id | ∃ b, g.SameApproval h id b}.Finite := by
    refine hfinite.subset fun id hid => ?_
    obtain ⟨b, rk, ha, _⟩ := hid
    exact Option.ne_none_iff_exists'.mpr ⟨rk, ha⟩
  have hname : ∀ a : {id | ∃ b, g.SameApproval h id b}, ∃ b, g.SameApproval h a b := fun a => a.2
  choose name hname using hname
  have hinjective : Function.Injective name := by
    intro a a' heq
    obtain ⟨rk, ha, hb⟩ := hname a
    obtain ⟨rk', ha', hb'⟩ := hname a'
    rw [heq, hb'] at hb
    injection hb with hb
    exact Subtype.ext (hwf.approvalKey_injective (hb ▸ ha) ha')
  obtain ⟨π, hπ⟩ := Cardinal.extend_function_of_lt ⟨name, hinjective⟩
    (lt_of_lt_of_le hknown.lt_aleph0 (Cardinal.aleph0_le_mk ApprovalId)) ⟨Equiv.refl ApprovalId⟩
  refine ⟨π, fun a b ⟨rk, ha, hb⟩ => ?_⟩
  have hmem : ∃ b, g.SameApproval h a b := ⟨b, rk, ha, hb⟩
  obtain ⟨rk', ha', hb'⟩ := hname ⟨a, hmem⟩
  rw [ha] at ha'
  injection ha' with ha'
  exact (hπ ⟨a, hmem⟩).trans (hwf'.approvalKey_injective (ha' ▸ hb') hb)

/-- What the second side knows under a new name, the first knows under the old one. -/
theorem Linked.back {π : Equiv.Perm ApprovalId} (hπ : Linked π g h)
    (hback : ∀ b rk, h.approvalKey b = some rk → ∃ a, g.approvalKey a = some rk)
    {id : ApprovalId} {rk : String × String} (hkey : h.approvalKey (π id) = some rk) :
    g.approvalKey id = some rk := by
  obtain ⟨a, ha⟩ := hback _ rk hkey
  have hsame := π.injective (hπ a (π id) ⟨rk, ha, hkey⟩)
  rw [← hsame]
  exact ha

/-- An unknown id is renamed to an unknown id. -/
theorem Linked.unknown {π : Equiv.Perm ApprovalId} (hπ : Linked π g h)
    (hback : ∀ b rk, h.approvalKey b = some rk → ∃ a, g.approvalKey a = some rk)
    {id : ApprovalId} (hid : g.approvalKey id = none) : h.approvalKey (π id) = none := by
  cases hkey : h.approvalKey (π id) with
  | none => rfl
  | some rk =>
    rw [hπ.back hback hkey] at hid
    cases hid

/-- Records under one key are renamed from one to the other. -/
theorem Linked.renamed {π : ApprovalId → ApprovalId} (hπ : Linked π g h) (hwf : g.Wf) (hwf' : h.Wf)
    {r k : String} {a b : ApprovalRecord} (ha : g.approval r k = some a)
    (hb : h.approval r k = some b) (hcontent : a.content = b.content) :
    a.renamed π = b.renamed id := by
  have hid : π a.approvalId = b.approvalId :=
    hπ _ _ ⟨_, (hwf.approval_own _ _ _ ha).2.2, (hwf'.approval_own _ _ _ hb).2.2⟩
  unfold ApprovalRecord.renamed
  rw [hcontent, hid]
  rfl

theorem Linked.approval {U : String → Prop} {π : ApprovalId → ApprovalId} (hπ : Linked π g h)
    (hg : Agree U g h) (hwf : g.Wf) (hwf' : h.Wf) {r : String} (hr : U r) (k : String) :
    (g.approval r k).map (ApprovalRecord.renamed π) =
      (h.approval r k).map (ApprovalRecord.renamed id) := by
  have hmap := hg.approval r k hr
  cases ha : g.approval r k with
  | none =>
    rw [ha] at hmap
    rw [Option.map_eq_none_iff.mp hmap.symm]
    rfl
  | some a =>
    obtain ⟨b, hb, hcontent⟩ := hg.approval_some hr ha
    rw [hb]
    exact congrArg some (hπ.renamed hwf hwf' ha hb hcontent)

/-- A smaller state needs no other renaming. -/
theorem Linked.mono {π : ApprovalId → ApprovalId} {g' h' : GuardState} (hπ : Linked π g' h')
    (hkeys : ∀ id rk, g.approvalKey id = some rk → g'.approvalKey id = some rk)
    (hkeys' : ∀ id rk, h.approvalKey id = some rk → h'.approvalKey id = some rk) :
    Linked π g h := by
  rintro a b ⟨rk, ha, hb⟩
  exact hπ a b ⟨rk, hkeys a rk ha, hkeys' b rk hb⟩

/-- A list of the pending approvals of a run, each once. -/
structure ListsPending (g : GuardState) (run : String) (l : List ApprovalRecord) : Prop where
  nodup : l.Nodup
  mem_iff : ∀ rec, rec ∈ l ↔ ∃ k, g.approval run k = some rec ∧ rec.state = .pending

theorem ListsPending.nodup_renamed {run : String} {l : List ApprovalRecord}
    (hl : ListsPending g run l) (hwf : g.Wf) (π : Equiv.Perm ApprovalId) :
    (l.map (ApprovalRecord.renamed π)).Nodup := by
  refine List.Nodup.map_on (fun a ha b hb heq => ?_) hl.nodup
  have hid : a.approvalId = b.approvalId :=
    π.injective (show (a.renamed π).approvalId = (b.renamed π).approvalId by rw [heq])
  obtain ⟨k, hka, _⟩ := (hl.mem_iff a).mp ha
  obtain ⟨k', hkb, _⟩ := (hl.mem_iff b).mp hb
  have ha' := hwf.approvalById_of_approval hka
  rw [hid, hwf.approvalById_of_approval hkb] at ha'
  injection ha' with ha'
  exact ha'.symm

/-- The two lists hold the same approvals, in some order. -/
theorem ListsPending.perm {U : String → Prop} {run : String} {as bs : List ApprovalRecord}
    (has : ListsPending g run as) (hbs : ListsPending h run bs) {π : Equiv.Perm ApprovalId}
    (hπ : Linked π g h) (hg : Agree U g h) (hwf : g.Wf) (hwf' : h.Wf) (hr : U run) :
    (as.map (ApprovalRecord.renamed π)).Perm (bs.map (ApprovalRecord.renamed id)) := by
  refine (List.perm_ext_iff_of_nodup (has.nodup_renamed hwf π)
    (hbs.nodup_renamed hwf' (Equiv.refl ApprovalId))).mpr fun x => ?_
  simp only [List.mem_map]
  constructor
  · rintro ⟨a, ha, rfl⟩
    obtain ⟨k, hka, hpending⟩ := (has.mem_iff a).mp ha
    obtain ⟨b, hkb, hcontent⟩ := hg.approval_some hr hka
    have hstate : b.state = .pending := show b.content.state = .pending by
      rw [← hcontent]
      exact hpending
    exact ⟨b, (hbs.mem_iff b).mpr ⟨k, hkb, hstate⟩, (hπ.renamed hwf hwf' hka hkb hcontent).symm⟩
  · rintro ⟨b, hb, rfl⟩
    obtain ⟨k, hkb, hpending⟩ := (hbs.mem_iff b).mp hb
    obtain ⟨a, hka, hcontent⟩ := hg.symm.approval_some hr hkb
    have hstate : a.state = .pending := show a.content.state = .pending by
      rw [← hcontent]
      exact hpending
    exact ⟨a, (has.mem_iff a).mpr ⟨k, hka, hstate⟩, hπ.renamed hwf hwf' hka hkb hcontent.symm⟩

end GuardState

/-- A store of finitely many approvals that lists each pending one once. -/
class FiniteGuardStore (S : Type) [GuardStore S] [LawfulGuardStore S] : Prop where
  finite_approvals : ∀ s : S, {id | (LawfulGuardStore.view s).approvalKey id ≠ none}.Finite
  nodup_listPending : ∀ (s : S) (run : String), (GuardStore.listPending s run).Nodup

theorem listsPending [GuardStore S] [LawfulGuardStore S] [FiniteGuardStore S] (s : S)
    (run : String) :
    (LawfulGuardStore.view s).ListsPending run (GuardStore.listPending s run) :=
  ⟨FiniteGuardStore.nodup_listPending s run, LawfulGuardStore.mem_listPending s run⟩

/-- The ids a store has given are below its supply. -/
theorem finite_serials (n : Nat) : {id : ApprovalId | id.serial < n}.Finite :=
  (Set.finite_lt_nat n).preimage fun a _ b _ h => by
    cases a
    cases b
    exact congrArg ApprovalId.mk h

instance : FiniteGuardStore InMemoryGuardStore where
  finite_approvals s := by
    refine (finite_serials s.nextApproval).subset fun id hid => ?_
    obtain ⟨rk, hkey⟩ := Option.ne_none_iff_exists'.mp hid
    obtain ⟨rec, hrec, _⟩ := Option.map_eq_some_iff.mp hkey
    exact s.wf.supply id rec hrec
  nodup_listPending s run := by
    refine List.Nodup.filter _ ?_
    -- the values carry the keys they sit under
    have hids : s.approvals.values.map (·.approvalId) = s.approvals.entries.map Prod.fst := by
      unfold Dict.values
      rw [List.map_map]
      refine List.map_congr_left fun entry hentry => ?_
      exact (s.wf.indexed entry.1 entry.2 (Dict.findEntry_of_mem s.approvals.nodup hentry)).1
    exact List.Nodup.of_map _ (hids ▸ s.approvals.nodup)

instance : FiniteGuardStore SqlGuardStore where
  finite_approvals s := by
    refine (finite_serials s.nextApproval).subset fun id hid => ?_
    obtain ⟨rk, hkey⟩ := Option.ne_none_iff_exists'.mp hid
    obtain ⟨rec, hrec, _⟩ := Option.map_eq_some_iff.mp hkey
    obtain ⟨hmem, hown⟩ := SqlGuardStore.approvalById_some.mp hrec
    exact hown ▸ s.wf.supply rec hmem
  nodup_listPending s run := (List.Nodup.of_map _ s.wf.approvalIds).filter _

/-- A store that lists pending approvals in the order they were queued in. -/
class OrderedGuardStore (S : Type) [GuardStore S] : Prop where
  listPending_createPending : ∀ (s : S) (run key name subject : String) (cost : ℚ)
    (params : JsonText) (t : Time), GuardStore.getApproval s run key = none →
    GuardStore.listPending (GuardStore.createPending s run key name subject cost params t).2 run =
      GuardStore.listPending s run ++
        [(GuardStore.createPending s run key name subject cost params t).1]
  listPending_appendAudit : ∀ (s : S) (run run' name subject key : String) (cost : ℚ)
    (decision detail : String), GuardStore.listPending
      (GuardStore.appendAudit s run' name subject key cost decision detail).2 run =
        GuardStore.listPending s run

instance : OrderedGuardStore InMemoryGuardStore where
  listPending_createPending s run key name subject cost params t hnone := by
    show (s.createPending run key name subject cost params t).2.approvals.values.filter _ =
      s.approvals.values.filter _ ++ [(s.createPending run key name subject cost params t).1]
    unfold InMemoryTables.createPending
    rw [show s.getApproval run key = none from hnone]
    dsimp only
    rw [Dict.values_set_new (InMemoryTables.fresh_approval s.wf), List.filter_append]
    simp
  listPending_appendAudit _ _ _ _ _ _ _ _ _ := rfl

instance : OrderedGuardStore SqlGuardStore where
  listPending_createPending s run key name subject cost params t hnone := by
    show (s.createPending run key name subject cost params t).2.approvals.filter _ =
      s.approvals.filter _ ++ [(s.createPending run key name subject cost params t).1]
    unfold SqlTables.createPending
    rw [show s.getApproval run key = none from hnone]
    dsimp only
    rw [List.filter_append]
    simp
  listPending_appendAudit _ _ _ _ _ _ _ _ _ := rfl

/-! ## One operation -/

section Steps

open LawfulGuardStore

variable [DecidableEq ι] [GuardStore S] [LawfulGuardStore S] [GuardStore T] [LawfulGuardStore T]

/-- The executors agree one by one, and their worlds do. -/
structure SameFleet (f : Fleet ι S (σ × κ)) (f' : Fleet ι T (σ × κ')) : Prop where
  executors : ∀ i, SameExecutor SameEffects (f.executors i) (f'.executors i)
  world : Parallel EveryRun SameEffects f.world f'.world

theorem call_keeps_keys (call : Call (σ × κ)) {w : World S (σ × κ)} {id : ApprovalId}
    {rk : String × String} (h : w.view.approvalKey id = some rk) :
    (call.program.run w).2.view.approvalKey id = some rk := by
  refine CallStep.keeps (P := fun s => s.state.approvalKey id = some rk) (call_step call w)
    (fun _ _ _ h => h) (fun action s answer s' hs hexec => ?_) h
  rcases hexec.approvals with ⟨_, hkeys⟩ | ⟨rec, _, _, _, _, _, _, _, hfresh, _, hkeys⟩
  · rw [hkeys]
    exact hs
  · rw [hkeys]
    show (if id = rec.approvalId then _ else _) = _
    rw [if_neg, hs]
    rintro rfl
    rw [hfresh] at hs
    cases hs

/-- No operation forgets an approval. -/
theorem op_keeps_keys (op : GuardOp ι σ) (f : Fleet ι S (σ × κ)) {id : ApprovalId}
    {rk : String × String} (h : f.world.view.approvalKey id = some rk) :
    (op.run f).2.world.view.approvalKey id = some rk := by
  cases hcall : op.call? f with
  | none =>
    rw [GuardOp.run_no_call hcall]
    exact h
  | some call =>
    rw [GuardOp.run_call? hcall]
    exact call_keeps_keys call h

/-- Results that name the same approval are each other's renaming. -/
theorem sameAnswer_result {g h : GuardState} {x y : Except PyExc ExecutionResult}
    (hxy : Answers (SameResult g h) x y) {π : ApprovalId → ApprovalId}
    (hπ : GuardState.Linked π g h) :
    SameAnswer π (GuardAnswer.result <$> x) (GuardAnswer.result <$> y) := by
  cases hxy with
  | error exc => exact .raised exc
  | @ok r s hsame =>
    have hs : s = r.renamed π := by
      obtain ⟨hstatus, hkey, hresult, hdetail, href⟩ := hsame
      cases r
      cases s
      dsimp only at hstatus hkey hresult hdetail href
      subst hstatus hkey hresult hdetail
      cases href with
      | none => rfl
      | some hab =>
        unfold ExecutionResult.renamed
        rw [Option.map_some, hπ _ _ hab]
    rw [hs]
    exact .result r

variable [FiniteGuardStore S] [FiniteGuardStore T]

/-- An operation on the same approval does the same on both sides. -/
theorem step_known {f : Fleet ι S (σ × κ)} {f' : Fleet ι T (σ × κ')} (hf : SameFleet f f')
    (op : GuardOp ι σ) (ρ : ApprovalId → ApprovalId)
    (hids : ∀ id, op.approvalId? = some id → f.world.view.SameApproval f'.world.view id (ρ id)) :
    SameFleet (op.run f).2 ((op.rename ρ).run f').2 ∧
      ∀ π : Equiv.Perm ApprovalId,
        GuardState.Linked π (op.run f).2.world.view ((op.rename ρ).run f').2.world.view →
        SameAnswer π (op.run f).1 ((op.rename ρ).run f').1 := by
  cases op with
  | register i actionName handler =>
    refine ⟨⟨fun j => ?_, hf.world⟩, fun π _ => .registered⟩
    simp only [GuardOp.rename, GuardOp.run]
    by_cases hj : j = i
    · subst hj
      rw [Function.update_self, Function.update_self]
      exact (hf.executors j).register actionName (timed_same handler)
    · rw [Function.update_of_ne hj, Function.update_of_ne hj]
      exact hf.executors j
  | execute i action =>
    obtain ⟨hpar, hanswers⟩ := execute_coupled (hf.executors i) (everyRun _) action f.world f'.world
      hf.world
    simp only [GuardOp.rename, GuardOp.run, Fleet.running_map]
    exact ⟨⟨hf.executors, hpar⟩, fun π hπ => sameAnswer_result hanswers hπ⟩
  | approve i id =>
    obtain ⟨hpar, hanswers⟩ := approve_parallel (hf.executors i) (everyRun _) hf.world
      (fun rk _ => everyRun rk.1) (hids id rfl)
    simp only [GuardOp.rename, GuardOp.run, Fleet.running_map]
    exact ⟨⟨hf.executors, hpar⟩, fun π hπ => sameAnswer_result hanswers hπ⟩
  | rejectApproval i id =>
    obtain ⟨hpar, hanswers⟩ := rejectApproval_parallel (hf.executors i) hf.world
      (fun rk _ => everyRun rk.1) (hids id rfl)
    simp only [GuardOp.rename, GuardOp.run, Fleet.running_map]
    refine ⟨⟨hf.executors, hpar⟩, fun π hπ => ?_⟩
    rw [← hanswers]
    cases (((f.executors i).rejectApproval id).run f.world).1 with
    | ok u => exact .rejected
    | error exc => exact .raised exc
  | pendingApprovals i =>
    refine ⟨⟨hf.executors, hf.world⟩, fun π hπ => .pending ?_⟩
    have has := listsPending f.world.store (f.executors i).runId
    have hbs := listsPending f'.world.store (f.executors i).runId
    rw [← (hf.executors i).runId]
    exact has.perm hbs hπ hf.world.agree (view_wf _) (view_wf _) (everyRun _)

omit [FiniteGuardStore S] [FiniteGuardStore T] in
/-- An operation on an unknown approval is refused. -/
theorem run_unknown {f : Fleet ι S (σ × κ)} {op : GuardOp ι σ} {id : ApprovalId}
    (hid : op.approvalId? = some id) (h : f.world.view.approvalKey id = none) :
    op.run f = (.error (noSuchApproval id), f) := by
  cases op with
  | approve i id' =>
    injection hid with hid
    subst hid
    simp only [GuardOp.run, Fleet.running_map, run_approve_unknown h]
    rfl
  | rejectApproval i id' =>
    injection hid with hid
    subst hid
    simp only [GuardOp.run, Fleet.running_map, run_rejectApproval_unknown h]
    rfl
  | register => cases hid
  | execute => cases hid
  | pendingApprovals => cases hid

/-! ## Any sequence of operations -/

omit [DecidableEq ι] [FiniteGuardStore S] [FiniteGuardStore T] in
/-- What agreeing worlds tell. -/
theorem sameState {w : World S (σ × κ)} {v : World T (σ × κ')}
    (hpar : Parallel EveryRun SameEffects w v)
    {π : ApprovalId → ApprovalId} (hπ : GuardState.Linked π w.view v.view) : SameState π w v where
  audit run := by rw [readAudit_eq, readAudit_eq, hpar.agree.audit run (everyRun run)]
  spend run := by rw [accumulatedSpend_eq, accumulatedSpend_eq, hpar.agree.spend run (everyRun run)]
  count run subject := by
    rw [subjectExecutedCount_eq, subjectExecutedCount_eq, hpar.agree.count run subject (everyRun run)]
  breaker run := by rw [isBreakerOpen_eq, isBreakerOpen_eq, hpar.agree.breaker run (everyRun run)]
  result run key := by rw [getResult_eq, getResult_eq, hpar.agree.result run key (everyRun run)]
  approval run key := by
    rw [getApproval_eq, getApproval_eq]
    exact hπ.approval hpar.agree (view_wf _) (view_wf _) (everyRun run) key
  effects := hpar.env

/-- By induction on the operations. The renaming is chosen when all approvals have been queued;
before that, an id it renames is known on both sides or on neither. -/
theorem trace_parity (ops : List (GuardOp ι σ)) {f : Fleet ι S (σ × κ)}
    {f' : Fleet ι T (σ × κ')} (hf : SameFleet f f') :
    ∃ π : Equiv.Perm ApprovalId, GuardState.Linked π f.world.view f'.world.view ∧
      List.Forall₂ (SameStep π) (trace ops f) (trace (ops.map (GuardOp.rename π)) f') := by
  induction ops generalizing f f' with
  | nil =>
    obtain ⟨π, hπ⟩ := GuardState.exists_linked (view_wf f.world.store) (view_wf f'.world.store)
      (FiniteGuardStore.finite_approvals f.world.store)
    exact ⟨π, hπ, .nil⟩
  | cons op ops ih =>
    -- a known approval has its counterpart, and the renaming of the rest finds it
    have hknown : ∀ ρ : ApprovalId → ApprovalId, (∀ id, op.approvalId? = some id →
        f.world.view.SameApproval f'.world.view id (ρ id)) → ∃ π : Equiv.Perm ApprovalId,
          GuardState.Linked π f.world.view f'.world.view ∧ List.Forall₂ (SameStep π)
            (trace (op :: ops) f) (trace ((op :: ops).map (GuardOp.rename π)) f') := by
      intro ρ hids
      obtain ⟨hf', hanswer⟩ := step_known hf op ρ hids
      obtain ⟨π, hπ, htrace⟩ := ih hf'
      have hlinked : GuardState.Linked π f.world.view f'.world.view :=
        hπ.mono (fun _ _ => op_keeps_keys op f) fun _ _ => op_keeps_keys (op.rename ρ) f'
      have hop : op.rename ρ = op.rename π :=
        GuardOp.rename_congr fun id hid => (hlinked id (ρ id) (hids id hid)).symm
      refine ⟨π, hlinked, ?_⟩
      rw [List.map_cons, trace_cons, trace_cons]
      rw [hop] at hf' hπ hanswer htrace
      exact .cons ⟨hanswer π hπ, sameState hf'.world hπ⟩ htrace
    cases hid : op.approvalId? with
    | none => exact hknown id fun id' hid' => by rw [hid] at hid'; cases hid'
    | some a =>
      cases hkey : f.world.view.approvalKey a with
      | some rk =>
        obtain ⟨b, hb⟩ := hf.world.agree.approvalKey_some (view_wf _) (view_wf _) (everyRun _) hkey
        refine hknown (fun _ => b) fun id hid' => ?_
        rw [hid] at hid'
        injection hid' with hid'
        exact hid' ▸ ⟨rk, hkey, hb⟩
      | none =>
        -- refused on both sides, and nothing changes
        obtain ⟨π, hπ, htrace⟩ := ih hf
        have hkey' := hπ.unknown (fun _ _ => hf.world.agree.symm.approvalKey_some (view_wf _)
          (view_wf _) (everyRun _)) hkey
        have hid' : (op.rename π).approvalId? = some (π a) := by
          cases op <;> cases hid <;> rfl
        refine ⟨π, hπ, ?_⟩
        rw [List.map_cons, trace_cons, trace_cons, run_unknown hid hkey, run_unknown hid' hkey']
        exact .cons ⟨.unknown a, sameState hf.world hπ⟩ htrace

omit [DecidableEq ι] [FiniteGuardStore S] [FiniteGuardStore T] in
/-- New executors with the same run and policy agree, over new stores. -/
theorem fresh_same (runId : ι → String) (policy : ι → GuardPolicy) (clock : κ → Time × κ)
    (clock' : κ' → Time × κ') (effects : σ) (time : κ) (time' : κ') :
    SameFleet (Fleet.fresh runId policy clock effects time : Fleet ι S (σ × κ))
      (Fleet.fresh runId policy clock' effects time' : Fleet ι T (σ × κ')) where
  executors i := ⟨rfl, rfl, fun _ _ henv => henv, fun _ => .inl ⟨rfl, rfl⟩⟩
  world := by
    refine ⟨?_, rfl⟩
    show (view (GuardStore.empty : S)).Agree EveryRun (view (GuardStore.empty : T))
    rw [view_empty, view_empty]
    exact .refl _

end Steps

/-- **Store parity.** Whatever the runs and their policies, the clocks of the two stores and the
deterministic handlers: any sequence of operations against the in-memory store and the SQL store
answers alike at every step and leaves alike stores, up to one bijective renaming of approval ids,
clock readings and the order of pending approvals. -/
theorem store_parity [DecidableEq ι] (runId : ι → String) (policy : ι → GuardPolicy)
    (clock : κ → Time × κ) (clock' : κ' → Time × κ') (effects : σ) (time : κ) (time' : κ')
    (ops : List (GuardOp ι σ)) :
    ∃ π : Equiv.Perm ApprovalId, List.Forall₂ (SameStep π)
      (trace ops (Fleet.fresh runId policy clock effects time :
        Fleet ι InMemoryGuardStore (σ × κ)))
      (trace (ops.map (GuardOp.rename π)) (Fleet.fresh runId policy clock' effects time' :
        Fleet ι SqlGuardStore (σ × κ'))) := by
  obtain ⟨π, _, htrace⟩ := trace_parity ops (fresh_same (S := InMemoryGuardStore)
    (T := SqlGuardStore) runId policy clock clock' effects time time')
  exact ⟨π, htrace⟩

end PaymentRecovery.Guardrails

import PaymentRecovery.Providers.Types
import PaymentRecovery.Lib.Table

/-!
# The recovery database

The tables of the recovery layer and the environment the pipeline works in.
Rows get the next number as their id and are never deleted. The unique column of
the ledger is part of its type: a second row for one internal event cannot be
built.
-/

namespace PaymentRecovery.Recovery

open PaymentRecovery.Python PaymentRecovery.Guardrails PaymentRecovery.Providers
open PaymentRecovery.Lib.Table

/-- A webhook after signature check and normalisation. -/
structure InternalEvent where
  id : Nat
  provider : String
  eventId : String
  eventType : String
  paymentId : String
  amountInr : ℚ
  failureReason : Option String
  occurredAt : Option Time
  route : Option String
  matchedRuleKey : Option String
  matchedRuleVersion : Option Int
  resolvedAction : Option String

/-- How a ledger row came about. -/
inductive LedgerPath where
  | deterministic
  | llm
  | duplicateDelivery
  | failed
  deriving DecidableEq

/-- What the processing of one event adds to its ledger row. -/
structure LedgerFields where
  path : LedgerPath
  action : Option String := none
  executionStatus : Option String := none
  outcome : String
  approvalId : Option ApprovalId := none
  ruleKey : Option String := none
  ruleVersion : Option Int := none
  trajectoryId : Option Nat := none
  toolCalls : Int := 0
  promptTokens : Int := 0
  completionTokens : Int := 0
  modelledCostUsd : ℚ := 0
  latencyMs : ℚ := 0
  error : Option String := none

/-- What a ledger row repeats from its event. -/
structure LedgerBase where
  internalEventId : Nat
  provider : String
  eventId : String
  paymentId : String
  amountInr : ℚ
  failureReason : Option String

/-- The outcome ledger: one row per processed failed-payment event. -/
structure LedgerEntry extends LedgerBase, LedgerFields where
  id : Nat

/-- The ledger table. -/
structure Ledger where
  rows : List LedgerEntry
  unique : (rows.map fun row => row.internalEventId).Nodup

namespace Ledger

def empty : Ledger := ⟨[], List.nodup_nil⟩

/-- The column `for_event` selects on. -/
def eventKey (row : LedgerEntry) : Nat := row.internalEventId

/-- `for_event`. -/
def forEvent (ledger : Ledger) (internalEventId : Nat) : Option LedgerEntry :=
  selectBy eventKey internalEventId ledger.rows

/-- The row `record` would insert. -/
def newRow (ledger : Ledger) (base : LedgerBase) (fields : LedgerFields) : LedgerEntry :=
  { toLedgerBase := base, toLedgerFields := fields, id := ledger.rows.length + 1 }

/-- `record`: the new row's id, or an `IntegrityError` for an event that has a row. -/
def record (ledger : Ledger) (base : LedgerBase) (fields : LedgerFields) :
    Except PyExc Nat × Ledger :=
  match h : ledger.forEvent base.internalEventId with
  | some _ =>
    (.error ⟨.integrityError, "UNIQUE constraint failed: ledger_entries.internal_event_id"⟩, ledger)
  | none =>
    (.ok (ledger.rows.length + 1),
      ⟨ledger.rows ++ [ledger.newRow base fields], by
        rw [List.map_append, List.nodup_append]
        refine ⟨ledger.unique, List.nodup_singleton _, ?_⟩
        intro a ha b hb he
        obtain ⟨row, hrow, rfl⟩ := List.mem_map.mp ha
        rw [List.mem_singleton.mp hb] at he
        exact selectBy_none.mp h row hrow he⟩)

/-- The paths of rows whose event was acted on. -/
def LedgerPath.counts : LedgerPath → Bool
  | .deterministic | .llm => true
  | .duplicateDelivery | .failed => false

/-- `processed_delivery`: an earlier successfully processed row for the same provider
event. A previous failed attempt does not count. -/
def processedDelivery (ledger : Ledger) (provider eventId : String) : Option LedgerEntry :=
  if eventId = "" then none
  else ledger.rows.find? fun row =>
    row.provider = provider ∧ row.eventId = eventId ∧ LedgerPath.counts row.path

/-- `pending_approvals`. -/
def pendingApprovals (ledger : Ledger) : List LedgerEntry :=
  ledger.rows.filter fun row => row.outcome = "pending_approval"

end Ledger

/-- A persisted agent trajectory. -/
structure TrajectoryRow where
  id : Nat
  runId : String
  subjectId : String
  outcome : String
  resolutionAction : Option String
  systemPromptId : String
  iterations : Int
  totalTokens : Int
  totalLatencyMs : ℚ
  trajectoryJson : JsonText

/-- A versioned rule stored as data. -/
structure RuleRow where
  ruleKey : String
  version : Int
  status : String
  priority : Int
  definitionJson : JsonText
  provenanceJson : JsonText

/-- The tables of the recovery layer. -/
structure Database where
  events : List InternalEvent
  ledger : Ledger
  trajectories : List TrajectoryRow
  rules : List RuleRow

/-- A call that leaves the process. -/
inductive OuterCall where
  | provider (name : String)
  | llm
  deriving DecidableEq

/-- An effect a provider applied, for which payment and under which key it was asked for,
and whether the call returned. -/
structure AppliedEffect where
  provider : String
  paymentId : String
  key : String
  returned : Bool
  deriving DecidableEq

/-- The environment of the pipeline: the database, the world outside, and two ghost
logs that no function of the source reads. -/
structure Env (τ : Type) where
  db : Database
  outer : τ
  calls : List OuterCall
  applied : List AppliedEffect

namespace Env

variable {τ α : Type}

/-- A call to the world outside. -/
def ask (call : OuterCall) (f : τ → α × τ) (env : Env τ) : α × Env τ :=
  ((f env.outer).1, { env with outer := (f env.outer).2, calls := env.calls ++ [call] })

/-- Something read off a clock. -/
def tick (f : τ → α × τ) (env : Env τ) : α × Env τ :=
  ((f env.outer).1, { env with outer := (f env.outer).2 })

/-- A call with an effect; an applied one is logged. -/
def effect (name paymentId key : String) (f : τ → EffectReply α × τ) (env : Env τ) :
    Except PyExc α × Env τ :=
  let (reply, outer) := f env.outer
  (reply.reply,
    { env with
      outer := outer
      calls := env.calls ++ [.provider name]
      applied := if reply.applied then
          env.applied ++ [⟨name, paymentId, key, reply.reply.toOption.isSome⟩]
        else env.applied })

end Env

/-- What `_persist_internal` writes for a normalised event. -/
def InternalEvent.ofNormalised (id : Nat) (event : NormalisedEvent) : InternalEvent where
  id := id
  provider := event.provider
  eventId := event.eventId
  eventType := event.eventType.value
  paymentId := event.paymentId
  amountInr := event.amountInr
  failureReason := event.failureReason.map FailureReason.value
  occurredAt := event.occurredAt
  route := none
  matchedRuleKey := none
  matchedRuleVersion := none
  resolvedAction := none

/-- `_normalised`: back from the row; unknown enum values raise. -/
def InternalEvent.normalised (row : InternalEvent) : Except PyExc NormalisedEvent := do
  let eventType ← EventType.ofValue row.eventType
  let failureReason ← match row.failureReason with
    | none => .ok none
    | some reason => if reason = "" then .ok none else some <$> FailureReason.ofValue reason
  return ⟨row.provider, row.eventId, eventType, row.paymentId, row.amountInr, failureReason,
    row.occurredAt⟩

/-- What was persisted is what comes back. -/
theorem InternalEvent.normalised_ofNormalised (id : Nat) (event : NormalisedEvent) :
    (InternalEvent.ofNormalised id event).normalised = .ok event := by
  obtain ⟨provider, eventId, eventType, paymentId, amountInr, failureReason, occurredAt⟩ := event
  unfold normalised ofNormalised
  rw [EventType.ofValue_value]
  cases failureReason with
  | none => rfl
  | some reason =>
    -- no failure reason is spelled as the empty string
    have hvalue : reason.value ≠ "" := by cases reason <;> decide
    simp only [Option.map_some, if_neg hvalue, FailureReason.ofValue_value]
    rfl

/-- `session.get(InternalEvent, id)`. -/
def Database.event (db : Database) (id : Nat) : Option InternalEvent :=
  selectBy InternalEvent.id id db.events

/-- `_persist_internal`: insert the event, answer its id. -/
def Database.persistInternal (db : Database) (event : NormalisedEvent) : Nat × Database :=
  let id := db.events.length + 1
  (id, { db with events := db.events ++ [.ofNormalised id event] })

end PaymentRecovery.Recovery

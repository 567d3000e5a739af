import PaymentRecovery.Recovery.RulesRepo

/-!
# The seed rules

Hand-written rules for obvious failure reasons, and the table they are inserted into.
-/

namespace PaymentRecovery.Recovery

open PaymentRecovery.Python PaymentRecovery.Rules

/-- One entry of `SEED_RULES`. -/
structure SeedRule where
  ruleKey : String
  priority : Int
  definition : PyVal

/-- A rule for one failure reason. -/
def seedDefinition (reason action : String) : PyVal :=
  .record [
    ("precondition", .record [("all", .list [.record
      [("field", .str "failure_reason"), ("op", .str "eq"), ("value", .str reason)]])]),
    ("action", .record [("name", .str action), ("params", .record [])])]

/-- `SEED_RULES`. -/
def seedRules : List SeedRule := [
  ⟨"seed-risk-blocked-escalate", 10,
    seedDefinition "risk_blocked" RecoveryAction.escalateToHuman.value⟩,
  ⟨"seed-invalid-details-resend-link", 20,
    seedDefinition "invalid_details" RecoveryAction.sendPaymentLink.value⟩]

/-- The loop of `seed`, with the clock's reading at each entry. -/
def addSeeds (schema : Schema) (now : String → String) :
    List SeedRule → List RuleRow → Except PyExc Unit × List RuleRow
  | [], rows => (.ok (), rows)
  | entry :: rest, rows =>
    match addRule schema entry.ruleKey entry.definition .active none entry.priority none
        (now entry.ruleKey) rows with
    | (.error exc, rows) => (.error exc, rows)
    | (.ok _, rows) => addSeeds schema now rest rows

/-- `seed`: insert the seed rules as ACTIVE, version 1. -/
def seed (schema : Schema) (now : String → String) (rows : List RuleRow) :
    Except PyExc Unit × List RuleRow :=
  addSeeds schema now seedRules rows

/-- The row of a seed rule. -/
def seedRow (ruleKey : String) (priority : Int) (reason action now : String) : RuleRow :=
  ⟨ruleKey, 1, RuleStatus.active.value, priority,
    .doc (.obj [
      ("precondition", .obj [("all", .arr [.obj
        [("field", .str "failure_reason"), ("op", .str "eq"), ("value", .str reason)]])]),
      ("action", .obj [("name", .str action), ("params", .obj [])])]),
    .doc (.obj [("origin", .str "seed"), ("trajectory_ids", .arr []), ("created_at", .str now),
      ("promoted_at", .str now), ("demoted_at", .null), ("demotion_history", .arr []),
      ("performance", .obj [])])⟩

/-- Seeding an empty table. -/
theorem seed_empty (now : String → String) : seed paymentRuleSchema now [] = (.ok (), [
    seedRow "seed-risk-blocked-escalate" 10 "risk_blocked" "escalate_to_human"
      (now "seed-risk-blocked-escalate"),
    seedRow "seed-invalid-details-resend-link" 20 "invalid_details" "send_payment_link"
      (now "seed-invalid-details-resend-link")]) := by
  with_unfolding_all rfl

end PaymentRecovery.Recovery

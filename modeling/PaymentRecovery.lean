import PaymentRecovery.Guardrails.InMemoryStore
import PaymentRecovery.Guardrails.Idempotency
import PaymentRecovery.Guardrails.Limits
import PaymentRecovery.Rules.Validator
import PaymentRecovery.Recovery.History
import PaymentRecovery.Recovery.Effects
import PaymentRecovery.Recovery.Resolutions
import PaymentRecovery.Recovery.Approvals
import PaymentRecovery.Recovery.AtMostOnce
import PaymentRecovery.Recovery.Retries
import PaymentRecovery.Recovery.Drain
import PaymentRecovery.Recovery.RulesRepo
import PaymentRecovery.Recovery.HighValue
import PaymentRecovery.Evals.Promotions
import PaymentRecovery.Recovery.Confinement
import PaymentRecovery.Guardrails.StoreParity
import PaymentRecovery.Recovery.Paths
import PaymentRecovery.Recovery.Isolation
import PaymentRecovery.Recovery.Routing
import PaymentRecovery.Recovery.Webhooks
import PaymentRecovery.Recovery.RuleLives
import PaymentRecovery.Recovery.SeedRules
import PaymentRecovery.Recovery.Ties
import PaymentRecovery.Recovery.Trajectories
import PaymentRecovery.Agent.Faithful
import PaymentRecovery.Guardrails.Interleaving
import PaymentRecovery.Evals.Demotions
import PaymentRecovery.Guardrails.OneEntry
import PaymentRecovery.Distill.Wilson
import PaymentRecovery.Agent.Fed
import PaymentRecovery.Providers.StripeHeader
import PaymentRecovery.Evals.RetrySweep
import PaymentRecovery.Recovery.RateLimiter
import PaymentRecovery.Recovery.Candidates
import PaymentRecovery.Recovery.StubRuns
import PaymentRecovery.Guardrails.SharedKeys
import PaymentRecovery.Guardrails.SharedAudit
import PaymentRecovery.Llm.Reruns
import PaymentRecovery.Recovery.LiveRuns
import PaymentRecovery.Recovery.Seeding
import PaymentRecovery.Recovery.PlayResults
import PaymentRecovery.Recovery.Sent

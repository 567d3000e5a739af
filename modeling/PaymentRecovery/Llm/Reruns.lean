import PaymentRecovery.Llm.Cache
import PaymentRecovery.Agent.Alongside
import PaymentRecovery.Guardrails.InMemoryStore
import PaymentRecovery.Lib.Foresight

/-!
# Rerunning a decision from the cache

A run of the agent leaves its completions on disk. Run again over these files, from a world that
looks the same to the tools, the agent takes the same steps and comes to the same trajectory,
every step flagged as cached, and the inner client is not called: any other does as well.
-/

namespace PaymentRecovery.Llm

open PaymentRecovery.Python PaymentRecovery.Agent PaymentRecovery.Guardrails PaymentRecovery.Lib
open Program AgentLoop

variable {S T τ : Type}

/-! ## The flags -/

/-- Every step flagged as cached. -/
def allCached (steps : List TrajectoryStep) : List TrajectoryStep :=
  steps.map fun step => { step with cached := true }

def cachedProgress (progress : Progress) : Progress :=
  { progress with steps := allCached progress.steps }

def cachedTurn : Turn → Turn
  | .stop outcome progress => .stop outcome (cachedProgress progress)
  | .next progress => .next (cachedProgress progress)

def cachedTrajectory (trajectory : Trajectory) : Trajectory :=
  { trajectory with steps := allCached trajectory.steps }

@[simp] theorem record_cached (progress : Progress) (index : Nat) (thought : String)
    (tool : Option String) (args : Option PyVal) (decision : String) (observation : PyVal)
    (response : LLMResponse) :
    (cachedProgress progress).record index thought tool args decision observation
        (fromCache response) =
      cachedProgress (progress.record index thought tool args decision observation response) := by
  unfold cachedProgress allCached Progress.record
  simp only [List.map_append]
  rfl

@[simp] theorem remember_cached (progress : Progress) (tool : String) (args observation : PyVal) :
    (cachedProgress progress).remember tool args observation =
      cachedProgress (progress.remember tool args observation) := rfl

/-! ## One turn -/

section Turns

variable [GuardStore S]

theorem refuse_cached (progress : Progress) (index : Nat) (thought tool : String) (args : PyVal)
    (decision : String) (observation : PyVal) (response : LLMResponse) :
    refuse (cachedProgress progress) index thought tool args decision observation
        (fromCache response) =
      cachedTurn (refuse progress index thought tool args decision observation response) := by
  unfold refuse cachedTurn
  rw [record_cached, remember_cached]

/-- A turn looks neither at the flag of its response nor at those of the steps before. -/
theorem turn_cached (loop : AgentLoop (OnDisk τ)) (decision : Option Decision)
    (progress : Progress) (index : Nat) (response : LLMResponse) :
    (loop.turn decision (cachedProgress progress) index (fromCache response) :
        Program (World S (OnDisk τ)) PyExc Turn) =
      cachedTurn <$> loop.turn decision progress index response := by
  unfold AgentLoop.turn
  split
  · rw [record_cached]
    rfl
  · rw [record_cached]
    rfl
  · split
    · rw [refuse_cached]
      rfl
    · split
      · rw [refuse_cached]
        rfl
      · split
        · unfold AgentLoop.effectTurn
          rw [Program.map_bind]
          congr 1
          funext built
          cases built with
          | error exc =>
            show (Pure.pure _ : Program _ _ _) = Pure.pure _
            rw [refuse_cached]
          | ok action =>
            dsimp only
            rw [Program.map_bind]
            congr 1
            funext result
            show (Pure.pure _ : Program _ _ _) = Pure.pure (Turn.next (cachedProgress _))
            rw [← remember_cached, ← record_cached]
            rfl
        · unfold AgentLoop.readTurn
          rw [Program.map_bind]
          congr 1
          funext value
          show (Pure.pure _ : Program _ _ _) = Pure.pure (Turn.next (cachedProgress _))
          rw [← remember_cached, ← record_cached]

end Turns

/-! ## What the cache foretells -/

/-- The outer states are related by `E`, and the files by `F`. -/
def Beside (E : τ → τ → Prop) (F : Dict String JsonText → Dict String JsonText → Prop)
    (a b : OnDisk τ) : Prop :=
  E a.outer b.outer ∧ F a.entries b.entries

/-- The clocks, the tools and the executor know nothing of the files. -/
structure OffDisk (E : τ → τ → Prop) (loop : AgentLoop (OnDisk τ)) : Prop where
  clock : ∀ F, Respects (Beside E F) loop.clock
  now : ∀ F, Respects (Beside E F) loop.now
  build : ∀ F {name spec build}, loop.registry.get? name = some spec →
    spec.body = .effect build → ∀ args, Respects (Beside E F) (build args)
  handler : ∀ F {name spec handler}, loop.registry.get? name = some spec →
    spec.body = .read handler → ∀ args, Respects (Beside E F) (handler args)
  executor : ∀ F, SameExecutor (Beside E F) loop.executor loop.executor

/-- The same files before another client. -/
def CachingLLMClient.over (cache : CachingLLMClient τ)
    (other : Request → τ → Except PyExc LLMResponse × τ) : CachingLLMClient τ :=
  { cache with inner := other }

/-- The loop with another client. -/
def withLLM (loop : AgentLoop (OnDisk τ)) (llm : LLMClient (OnDisk τ)) : AgentLoop (OnDisk τ) :=
  { loop with llm := llm }

/-- A turn never calls the client, so it keeps step whatever the client is. -/
theorem OffDisk.turn_coupled [GuardStore S] [LawfulGuardStore S] [GuardStore T]
    [LawfulGuardStore T] {E : τ → τ → Prop} {loop : AgentLoop (OnDisk τ)} (h : OffDisk E loop)
    (F : Dict String JsonText → Dict String JsonText → Prop) {U : String → Prop}
    (hU : U loop.executor.runId) (llm llm' : LLMClient (OnDisk τ)) (decision : Option Decision)
    (progress : Progress) (index : Nat) (response : LLMResponse) :
    InStep (Parallel (S := S) (T := T) U (Beside E F))
      ((withLLM loop llm).turn decision progress index response)
      ((withLLM loop llm').turn decision progress index response) := by
  -- any client that keeps to itself will do
  have hquiet : SameLoop (Beside E F)
      (withLLM loop fun _ disk => (.error ⟨.valueError, ""⟩, disk)) :=
    ⟨fun _ _ _ hR => ⟨rfl, hR⟩, h.clock F, h.now F, h.build F, h.handler F, h.executor F⟩
  exact Agent.turn_coupled hquiet hU decision progress index response

/-- All the files are among these. -/
def Within (files : Dict String JsonText) (w : World S (OnDisk τ)) : Prop :=
  ∀ name file, w.env.entries.get? name = some file → files.get? name = some file

section Foretold

variable [GuardStore S] [LawfulGuardStore S] {E : τ → τ → Prop} {files : Dict String JsonText}
  {U : String → Prop} {loop : AgentLoop (OnDisk τ)} {α : Type}

/-- What knows nothing of the files leaves them there. -/
theorem within_of_inStep (hrefl : ∀ outer, E outer outer)
    {p : Program (World S (OnDisk τ)) PyExc α}
    (h : ∀ F, InStep (Parallel (S := S) (T := S) U (Beside E F)) p p) (w : World S (OnDisk τ))
    (hend : Within files (p.run w).2) : Within files w := by
  intro name file hfile
  have hkept := h (fun a _ => a.get? name = some file) w w ⟨.refl _, hrefl _, hfile⟩
  exact hend name file hkept.1.env.2

end Foretold

/-! ## The second run -/

/-- The outer world after a completion: as it was, or as the inner client left it. -/
theorem complete_outer (cache : CachingLLMClient τ) (request : Request) (disk : OnDisk τ) :
    (cache.complete request disk).2.outer = disk.outer ∨
      (cache.complete request disk).2.outer = (cache.inner request disk.outer).2 := by
  rw [cache.complete_eq]
  cases hentry : disk.entries.get? (cache.memoised.key request) with
  | some file => exact .inl (by rw [Memoised.answer_hit hentry])
  | none =>
    cases hinner : (cache.inner request disk.outer).1 with
    | error exc => exact .inr (by rw [Memoised.answer_error hentry hinner])
    | ok response => exact .inr (by rw [Memoised.answer_ok hentry hinner])

section Rerun

variable [GuardStore S] [LawfulGuardStore S] [GuardStore T] [LawfulGuardStore T]
  {E : τ → τ → Prop} {U : String → Prop} {loop : AgentLoop (OnDisk τ)}
  (cache : CachingLLMClient τ) (other : Request → τ → Except PyExc LLMResponse × τ)

/-- The second run holds the files, and outside everything is as in the first. -/
abbrev Rerun (U : String → Prop) (E : τ → τ → Prop) (files : Dict String JsonText) :
    World S (OnDisk τ) → World T (OnDisk τ) → Prop :=
  Parallel U (Beside E fun _ b => b = files)

/-- The inner client does nothing that the tools would notice. -/
def Unnoticed (E : τ → τ → Prop) : Prop :=
  ∀ request outer outer', E outer outer' → E (cache.inner request outer).2 outer'

/-- What the first run was answered, the second finds on disk. -/
theorem complete_repeats (hunnoticed : Unnoticed cache E)
    (hspells : ∀ request outer response,
      (cache.inner request outer).1 = .ok response → cache.Spells response)
    (files : Dict String JsonText) (messages : List LLMMessage) :
    Repeats (Rerun (S := S) (T := T) U E files) (Within files) fromCache
      (attemptEnv (cache.client messages))
      (attemptEnv ((cache.over other).client messages)) := by
  refine .attempt (fun w hend name file hfile => hend name file ?_) ?_
  · show (cache.complete _ w.env).2.entries.get? name = some file
    rw [cache.complete_eq]
    exact Memoised.get?_after_of_entry [_] hfile
  · intro w v response hR hanswer hwithin
    obtain ⟨file, hfile, hread⟩ := cache.complete_stored hspells hanswer
    have hheld : v.env.entries.get? (CachingLLMClient.path
        (cache.key { messages := messages })) = some file := by
      rw [hR.env.2]
      exact hwithin _ _ hfile
    -- so the other client is not called
    have hhit : ((cache.over other).client messages) v.env =
        (.ok (fromCache response), v.env) := by
      show ((cache.over other).complete _) v.env = _
      rw [CachingLLMClient.complete_eq, Memoised.answer_hit
        (M := (cache.over other).memoised) hheld]
      exact congrArg (·, v.env) hread
    rw [hhit]
    refine ⟨rfl, hR.agree, ?_, hR.env.2⟩
    show E (cache.complete _ w.env).2.outer v.env.outer
    rcases complete_outer cache { messages := messages } w.env with hsame | hinner
    · rw [hsame]
      exact hR.env.1
    · rw [hinner]
      exact hunnoticed _ _ _ hR.env.1

variable {cache other}

theorem turn_repeats (hrefl : ∀ outer, E outer outer) (h : OffDisk E loop)
    (hU : U loop.executor.runId) (files : Dict String JsonText)
    (llm llm' : LLMClient (OnDisk τ)) (decision : Option Decision) (progress : Progress)
    (index : Nat) (response : LLMResponse) :
    Repeats (Rerun (S := S) (T := T) U E files) (Within files) cachedTurn
      ((withLLM loop llm).turn decision progress index response)
      ((withLLM loop llm').turn decision (cachedProgress progress) index
        (fromCache response)) := by
  rw [turn_cached]
  have hsteps : Repeats (Rerun (S := S) (T := T) U E files) (Within files) id
      ((withLLM loop llm).turn decision progress index response)
      ((withLLM loop llm').turn decision progress index response) :=
    .of_inStep (h.turn_coupled _ hU llm llm' decision progress index response)
      (within_of_inStep (U := U) hrefl fun F =>
        h.turn_coupled F hU llm llm decision progress index response)
  exact hsteps.map_right cachedTurn

theorem onEnv_repeats (hrefl : ∀ outer, E outer outer) (files : Dict String JsonText)
    {α : Type} {f : OnDisk τ → α × OnDisk τ} (h : ∀ F, Respects (Beside E F) f) :
    Repeats (Rerun (S := S) (T := T) U E files) (Within files) id
      (onEnv f : Program _ PyExc α) (onEnv f) :=
  .of_inStep (onEnv_coupled (h _)) (within_of_inStep (U := U) hrefl fun F => onEnv_coupled (h F))

/-- By induction on the iterations that are left. -/
theorem iterate_repeats (hrefl : ∀ outer, E outer outer) (hunnoticed : Unnoticed cache E)
    (hspells : ∀ request outer response,
      (cache.inner request outer).1 = .ok response → cache.Spells response)
    (h : OffDisk E loop) (hU : U loop.executor.runId) (files : Dict String JsonText)
    (case : List (String × PyVal)) (start : ℚ) (remaining index : Nat) (progress : Progress) :
    Repeats (Rerun (S := S) (T := T) U E files) (Within files)
      (fun ended => (ended.1, cachedProgress ended.2))
      ((withLLM loop cache.client).iterate case start remaining index progress)
      ((withLLM loop (cache.over other).client).iterate case start
        remaining index (cachedProgress progress)) := by
  induction remaining generalizing index progress with
  | zero => exact .pure (AgentOutcome.maxIterations, progress)
  | succ remaining ih =>
    refine .bind (onEnv_repeats hrefl files h.clock) fun t => ?_
    show Repeats _ _ _ (if loop.timeoutSeconds < t - start then _ else _)
      (if loop.timeoutSeconds < t - start then _ else _)
    by_cases hlate : loop.timeoutSeconds < t - start
    · rw [if_pos hlate, if_pos hlate]
      exact .pure (AgentOutcome.failedTimeout, progress)
    · rw [if_neg hlate, if_neg hlate]
      refine .bind (.orRaise _) fun messages => ?_
      refine .bind (complete_repeats cache other hunnoticed hspells files messages)
        fun response => ?_
      refine .bind (.orRaise (parseDecision response)) fun decision => ?_
      refine .bind (turn_repeats hrefl h hU files _ _ decision progress index response)
        fun turn => ?_
      cases turn with
      | stop outcome progress => exact .pure (outcome, progress)
      | next progress => exact ih (index + 1) progress

/-- **A rerun needs no LLM.** A run of the agent over the cache returns a trajectory and leaves its
files. Over these files, from a world where the stores agree on its run and nothing outside looks
different to the tools, the agent returns the same trajectory with every step flagged as cached,
whatever client stands behind the cache, and writes no file. -/
theorem rerun_from_cache (cache : CachingLLMClient τ)
    (other : Request → τ → Except PyExc LLMResponse × τ) (loop : AgentLoop (OnDisk τ))
    (hrefl : ∀ outer, E outer outer) (hunnoticed : Unnoticed cache E)
    (hspells : ∀ request outer response,
      (cache.inner request outer).1 = .ok response → cache.Spells response)
    (h : OffDisk E loop) (subjectId : String) (case : List (String × PyVal))
    (w w' : World S (OnDisk τ)) (v : World T (OnDisk τ)) (trajectory : Trajectory)
    (hsame : Parallel (· = loop.executor.runId) (Beside E fun _ _ => True) w v)
    (hfirst : ((withLLM loop cache.client).run subjectId case).run w = (.ok trajectory, w'))
    (hfiles : ∀ name file, w'.env.entries.get? name = some file →
      v.env.entries.get? name = some file) :
    ∃ v', ((withLLM loop (cache.over other).client).run subjectId
        case).run v = (.ok (cachedTrajectory trajectory), v') ∧
      v'.env.entries = v.env.entries ∧
      Parallel (· = loop.executor.runId) (Beside E fun _ _ => True) w' v' := by
  have hrun : Repeats (Rerun (S := S) (T := T) (· = loop.executor.runId) E v.env.entries)
      (Within v.env.entries) cachedTrajectory
      ((withLLM loop cache.client).run subjectId case)
      ((withLLM loop (cache.over other).client).run subjectId
        case) := by
    refine .bind (onEnv_repeats hrefl _ h.now) fun startedAt => ?_
    refine .bind (onEnv_repeats hrefl _ h.clock) fun start => ?_
    refine .bind (iterate_repeats (U := (· = loop.executor.runId)) hrefl hunnoticed hspells h rfl
      _ case start _ 1 .init) fun ended => ?_
    refine .bind (onEnv_repeats hrefl _ h.now) fun endedAt => ?_
    exact .pure _
  obtain ⟨v', hsecond, hend⟩ := hrun.returns w v trajectory w'
    ⟨hsame.agree, hsame.env.1, rfl⟩ hfirst hfiles
  exact ⟨v', hsecond, hend.env.2, hend.agree, hend.env.1, trivial⟩

end Rerun

namespace Sample

/-- The LLM's calls and the provider's links. -/
abbrev Desk := Nat × Nat

/-- An LLM looks the payment up, sends a link and is done. -/
def script : List (String × Json) :=
  [("\x7b\"action\": \x7b\"tool\": \"get_payment\", \"args\": \x7b\x7d\x7d\x7d",
      .obj [("action", .obj [("tool", .str "get_payment"), ("args", .obj [])])]),
    ("\x7b\"action\": \x7b\"tool\": \"create_payment_link\", \"args\": " ++
        "\x7b\"amount_inr\": 900\x7d\x7d\x7d",
      .obj [("action", .obj [("tool", .str "create_payment_link"),
        ("args", .obj [("amount_inr", .int 900)])])]),
    ("\x7b\"final\": \x7b\"resolution\": \"send_payment_link\"\x7d\x7d",
      .obj [("final", .obj [("resolution", .str "send_payment_link")])])]

/-- Its texts, read back. -/
def parsed (text : String) : Except PyExc Json :=
  match script.find? fun answer => answer.1 = text with
  | some answer => .ok answer.2
  | none => .error ⟨.jsonDecodeError, "Expecting value"⟩

def scripted : Request → Desk → Except PyExc LLMResponse × Desk := fun _ desk =>
  let text := ((script[desk.1]?).map Prod.fst).getD ""
  (.ok ⟨text, parsed text, 60, 8, 5, false⟩, (desk.1 + 1, desk.2))

/-- A request is spelled by how much history it holds, and has the digest of its JSON. -/
def recalling : CachingLLMClient Desk where
  inner := scripted
  spelling
    | .malformed raw => raw
    | .doc (.obj [_, _, ("history", .arr history)]) => toString history.length
    | .doc (.obj [_, ("messages", .arr [_, .obj (("content", .str content) :: _)]), _]) => content
    | .doc _ => ""
  loads := parsed
  sha256
    | "0" => "d09ac935ea3b82b44224d1dfb1828ae0a918a48ca5b1f1376fb1a7382124359b"
    | "1" => "94000896d4a5b3433d6efcc8ef353d57cfb6827e482a3157797df55d699a3cbb"
    | "2" => "ad35035f9760c6dab5e2c023f7d75bcc5897a17e4efc15c33b4b32622e76d173"
    | _ => ""

def getPayment : ToolSpec (OnDisk Desk) where
  name := "get_payment"
  description := "Get the payment."
  params := []
  body := .read fun _ env =>
    (.ok (.record [("status", .str "failed"), ("amount_inr", .int 900)]), env)
  distinct := List.nodup_nil

def createPaymentLink : ToolSpec (OnDisk Desk) where
  name := "create_payment_link"
  description := "Send a link."
  params := [("amount_inr", ⟨.number, true⟩)]
  body := .effect fun args env => ((do
    let amount ← args.get "amount_inr"
    return ⟨"send_payment_link", "pay_1", "link:pay_1", ← toFloat amount,
      .record [("amount_inr", amount)]⟩), env)
  distinct := List.nodup_singleton _

/-- The provider numbers its links. -/
def sendLink : EffectHandler (OnDisk Desk) := fun _ env =>
  (.ok (.record [("link_id", .str ("plink_" ++ toString env.outer.2))]),
    { env with outer := (env.outer.1, env.outer.2 + 1) })

/-- A run with a tool that reads and one that has an effect. -/
def assisted : AgentLoop (OnDisk Desk) where
  llm := recalling.client
  registry := (Dict.empty.set "get_payment" getPayment).set "create_payment_link" createPaymentLink
  executor := (GuardedExecutor.new "pay_1" ⟨2000, 3, 5000⟩ fun env => (0, env)).register
    "send_payment_link" sendLink
  systemPrompt := .malformed "Recover the payment."
  systemPromptId := "recovery_agent/v1"
  maxIterations := 5
  timeoutSeconds := 30
  clock := fun env => (0, env)
  now := fun env => ("2026-01-01T00:00:00+00:00", env)

/-- No link was sent yet. -/
def start (files : Dict String JsonText) (calls : Nat) : World InMemoryGuardStore (OnDisk Desk) :=
  ⟨⟨.empty, InMemoryTables.empty_wf⟩, ⟨files, (calls, 0)⟩, []⟩

/-- The first run. -/
def first : Except PyExc Trajectory × World InMemoryGuardStore (OnDisk Desk) :=
  (assisted.run "pay_1" [("amount_inr", .float 900)]).run (start .empty 0)

/-- No network. -/
def offline : Request → Desk → Except PyExc LLMResponse × Desk := fun _ desk =>
  (.error ⟨.other "ConnectionError", "offline"⟩, desk)

end Sample

open Sample

theorem scripted_spells (request : Request) (outer : Desk) (response : LLMResponse)
    (h : (recalling.inner request outer).1 = .ok response) : recalling.Spells response := by
  injection h with h
  rw [← h]
  rfl

/-- The tools see the links alone. -/
theorem assisted_offDisk : OffDisk (fun a b => a.2 = b.2) assisted where
  clock _ _ _ hR := ⟨rfl, hR⟩
  now _ _ _ hR := ⟨rfl, hR⟩
  build F name spec build hspec hbody args := by
    unfold assisted at hspec
    rw [Dict.get?_set, Dict.get?_set] at hspec
    split at hspec
    · injection hspec with hspec
      rw [← hspec] at hbody
      injection hbody with hbody
      rw [← hbody]
      exact fun _ _ hR => ⟨rfl, hR⟩
    · split at hspec
      · injection hspec with hspec
        rw [← hspec] at hbody
        cases hbody
      · cases hspec
  handler F name spec handler hspec hbody args := by
    unfold assisted at hspec
    rw [Dict.get?_set, Dict.get?_set] at hspec
    split at hspec
    · injection hspec with hspec
      rw [← hspec] at hbody
      cases hbody
    · split at hspec
      · injection hspec with hspec
        rw [← hspec] at hbody
        injection hbody with hbody
        rw [← hbody]
        exact fun _ _ hR => ⟨rfl, hR⟩
      · cases hspec
  executor F := by
    refine SameExecutor.register ⟨rfl, rfl, fun _ _ hR => hR, fun _ => .inl ⟨rfl, rfl⟩⟩ _ ?_
    rintro _ a b ⟨hlinks, hfiles⟩
    unfold sendLink
    rw [show a.outer.2 = b.outer.2 from hlinks]
    exact ⟨rfl, rfl, hfiles⟩

/-- Offline, from a fresh store and before the first link, the run is repeated from its files. -/
theorem sample_reruns : ∃ trajectory v', first.1 = .ok trajectory ∧
    trajectory.steps.map (·.decision) = ["tool_call", "effect_executed", "final"] ∧
    ((withLLM assisted (recalling.over offline).client).run "pay_1"
      [("amount_inr", .float 900)]).run (start first.2.env.entries 7) =
        (.ok (cachedTrajectory trajectory), v') := by
  have hreturns : first.1.toOption.map (fun trajectory => trajectory.steps.map (·.decision)) =
      some ["tool_call", "effect_executed", "final"] := by decide +kernel
  rcases hfirst : first with ⟨exc | trajectory, w'⟩
  · rw [hfirst] at hreturns
    cases hreturns
  · rw [hfirst] at hreturns
    obtain ⟨v', hsecond, _⟩ := rerun_from_cache (E := fun a b : Desk => a.2 = b.2) recalling offline
      assisted (fun _ => rfl) (fun _ _ _ h => h) scripted_spells assisted_offDisk "pay_1"
      [("amount_inr", .float 900)] (start .empty 0) w' (start w'.env.entries 7) trajectory
      ⟨.refl _, rfl, trivial⟩ hfirst (fun _ _ h => h)
    exact ⟨trajectory, v', rfl, Option.some.inj hreturns, hsecond⟩

end PaymentRecovery.Llm

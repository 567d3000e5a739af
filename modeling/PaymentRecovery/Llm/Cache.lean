import PaymentRecovery.Agent.Loop
import PaymentRecovery.Lib.Memo
import PaymentRecovery.Rules.Parsing

/-!
# The disk cache

A wrapper for any LLM client. A completion is stored in a file named by the hash
of its messages and sampling parameters; a request whose file exists is answered
from it, flagged as cached, and the inner client is not called.
-/

namespace PaymentRecovery.Llm

open PaymentRecovery.Python PaymentRecovery.Agent PaymentRecovery.Lib

/-- The files of the cache directory by name, and what lies outside it. -/
abbrev OnDisk (τ : Type) := Memo String JsonText τ

/-- What `complete` is called with. -/
structure Request where
  messages : List LLMMessage
  temperature : ℚ := 0
  maxTokens : Int := 1024

/-- Another client's completions on disk. `spelling` gives the characters of a text, `loads` is
`json.loads` on them, and `sha256` the hexadecimal digest. -/
structure CachingLLMClient (τ : Type) where
  inner : Request → τ → Except PyExc LLMResponse × τ
  spelling : JsonText → String
  loads : String → Except PyExc Json
  sha256 : String → String

/-- What is written of a response. -/
def stored (response : LLMResponse) : PyVal :=
  .record [("text", .str response.text), ("prompt_tokens", .int response.promptTokens),
    ("completion_tokens", .int response.completionTokens),
    ("latency_ms", .float response.latencyMs)]

/-- A whole number, of whichever type. -/
def countOf (value : PyVal) : Option Int :=
  value.number?.bind fun x => if x.den = 1 then some x.num else none

theorem countOf_int (i : Int) : countOf (.int i) = some i := by
  simp [countOf, PyVal.number?]

namespace CachingLLMClient

variable {τ : Type} (cache : CachingLLMClient τ)

/-- `_key`: the members of every object are sorted. -/
def key (request : Request) : String :=
  let payload : Json := .obj [("max_tokens", .int request.maxTokens),
    ("messages", .arr (request.messages.map fun m =>
      .obj [("content", .str (cache.spelling m.content)), ("role", .str m.role)])),
    ("temperature", .float request.temperature)]
  cache.sha256 (cache.spelling (.doc payload))

/-- `_path`, inside the directory. -/
def path (key : String) : String := key ++ ".json"

/-- The response with these members. The source takes them as they are; a text that is none, a
number that is none and a count that is not whole are no response here. -/
def responseOf (text promptTokens completionTokens latencyMs : PyVal) :
    Except PyExc LLMResponse :=
  match text, countOf promptTokens, countOf completionTokens, latencyMs.number? with
  | .str text, some prompt, some completion, some latency =>
    .ok ⟨text, cache.loads text, prompt, completion, latency, true⟩
  | _, _, _, _ => .error ⟨.typeError, "not a stored completion"⟩

/-- The response a file spells. -/
def readBack (file : JsonText) : Except PyExc LLMResponse := do
  let data ← jsonLoads file
  let text ← getItem data "text"
  let promptTokens ← getKey data "prompt_tokens" (.int 0)
  let completionTokens ← getKey data "completion_tokens" (.int 0)
  let latencyMs ← getKey data "latency_ms" (.float 0)
  cache.responseOf text promptTokens completionTokens latencyMs

/-- `complete`. -/
def complete (request : Request) (disk : OnDisk τ) : Except PyExc LLMResponse × OnDisk τ :=
  let name := path (cache.key request)
  match disk.entries.get? name with
  | some file => (cache.readBack file, disk)
  | none =>
    match cache.inner request disk.outer with
    | (.error exc, outer) => (.error exc, { disk with outer := outer })
    | (.ok response, outer) =>
      match jsonDumps (stored response) with
      | .error exc => (.error exc, { disk with outer := outer })
      | .ok file => (.ok response, ⟨disk.entries.set name file, outer⟩)

/-- The cache as the loop's client, which leaves the sampling parameters at their defaults. -/
def client : LLMClient (OnDisk τ) := fun messages => cache.complete { messages := messages }

end CachingLLMClient

/-! ## Files -/

/-- The text of a stored response. -/
def fileOf (response : LLMResponse) : JsonText :=
  .doc (.obj [("text", .str response.text), ("prompt_tokens", .int response.promptTokens),
    ("completion_tokens", .int response.completionTokens),
    ("latency_ms", .float response.latencyMs)])

/-- The response as a cache hands it out. -/
def fromCache (response : LLMResponse) : LLMResponse := { response with cached := true }

namespace CachingLLMClient

variable {τ : Type} (cache : CachingLLMClient τ)

/-- `parsed` is what the text of a response parses to. -/
def Spells (response : LLMResponse) : Prop := response.parsed = cache.loads response.text

/-- A response comes back from its file. -/
theorem readBack_fileOf {response : LLMResponse} (h : cache.Spells response) :
    cache.readBack (fileOf response) = .ok (fromCache response) := by
  show cache.responseOf (.str response.text) (.int response.promptTokens)
    (.int response.completionTokens) (.float response.latencyMs) = _
  unfold Spells at h
  unfold responseOf fromCache
  rw [countOf_int, countOf_int, h]
  rfl

/-- What a file answers is flagged. -/
theorem readBack_cached {file : JsonText} {response : LLMResponse}
    (h : cache.readBack file = .ok response) : fromCache response = response := by
  unfold readBack at h
  obtain ⟨data, _, h⟩ := Rules.bind_ok h
  obtain ⟨text, _, h⟩ := Rules.bind_ok h
  obtain ⟨promptTokens, _, h⟩ := Rules.bind_ok h
  obtain ⟨completionTokens, _, h⟩ := Rules.bind_ok h
  obtain ⟨latencyMs, _, h⟩ := Rules.bind_ok h
  unfold responseOf at h
  split at h
  · injection h with h
    rw [← h]
    rfl
  · cases h

/-- The cache remembers, in the sense of the library. -/
def memoised : Memoised Request LLMResponse String JsonText PyExc where
  key request := path (cache.key request)
  encode := fileOf
  decode := cache.readBack

theorem complete_eq (request : Request) (disk : OnDisk τ) :
    cache.complete request disk = cache.memoised.answer cache.inner request disk := by
  unfold complete
  dsimp only
  cases hentry : disk.entries.get? (path (cache.key request)) with
  | some file => rw [Memoised.answer_hit (M := cache.memoised) hentry]; rfl
  | none =>
    rcases hinner : cache.inner request disk.outer with ⟨exc | response, outer⟩
    · rw [Memoised.answer_error (M := cache.memoised) hentry (by rw [hinner]), hinner]
    · rw [Memoised.answer_ok (M := cache.memoised) hentry (by rw [hinner]), hinner]
      rfl

/-! ## Runs -/

/-- The disk after some completions. -/
def after (requests : List Request) (disk : OnDisk τ) : OnDisk τ :=
  Run.exec cache.complete requests disk

/-- The calls of the inner client in a run, each with the name of the file it was missing. -/
def innerCalls (requests : List Request) (disk : OnDisk τ) :
    List (String × Except PyExc LLMResponse) :=
  cache.memoised.log cache.inner requests disk

/-- The completions the inner client returned for one file. -/
def returned (name : String) (calls : List (String × Except PyExc LLMResponse)) :
    List LLMResponse :=
  Memoised.got name calls

theorem after_eq (requests : List Request) (disk : OnDisk τ) :
    cache.after requests disk = cache.memoised.after cache.inner requests disk := by
  unfold after
  rw [show cache.complete = cache.memoised.answer cache.inner from
    funext fun request => funext fun disk => cache.complete_eq request disk]

/-- A completion that raises leaves every file as it was. -/
theorem complete_error {request : Request} {disk : OnDisk τ} {exc : PyExc}
    (h : (cache.complete request disk).1 = .error exc) :
    (cache.complete request disk).2.entries = disk.entries := by
  rw [complete_eq] at h ⊢
  cases hentry : disk.entries.get? (cache.memoised.key request) with
  | some file => rw [Memoised.answer_hit hentry]
  | none =>
    cases hinner : (cache.inner request disk.outer).1 with
    | error e => rw [Memoised.answer_error hentry hinner]
    | ok response =>
      rw [Memoised.answer_ok hentry hinner] at h
      cases h

/-- Whatever a completion answers, its file answers, with the flag. -/
theorem complete_stored {request : Request} {disk : OnDisk τ}
    {response : LLMResponse}
    (hspells : ∀ request outer response,
      (cache.inner request outer).1 = .ok response → cache.Spells response)
    (h : (cache.complete request disk).1 = .ok response) :
    ∃ file, (cache.complete request disk).2.entries.get?
        (path (cache.key request)) = some file ∧
      cache.readBack file = .ok (fromCache response) := by
  rw [cache.complete_eq] at h ⊢
  cases hentry : disk.entries.get? (cache.memoised.key request) with
  | some file =>
    rw [Memoised.answer_hit hentry] at h ⊢
    refine ⟨file, hentry, ?_⟩
    rw [cache.readBack_cached h]
    exact h
  | none =>
    cases hinner : (cache.inner request disk.outer).1 with
    | error exc =>
      rw [Memoised.answer_error hentry hinner] at h
      cases h
    | ok answered =>
      rw [Memoised.answer_ok hentry hinner] at h ⊢
      injection h with h
      subst h
      exact ⟨fileOf answered, Dict.get?_set_self _ _ _,
        cache.readBack_fileOf (hspells _ _ _ hinner)⟩

/-- What a file holds stays. -/
theorem after_keeps (requests : List Request) {disk : OnDisk τ} {name : String} {file : JsonText}
    (hfile : disk.entries.get? name = some file) :
    (cache.after requests disk).entries.get? name = some file := by
  rw [after_eq]
  exact Memoised.get?_after_of_entry _ hfile

/-- A file answers, and nothing changes. -/
theorem complete_hit {request : Request} {disk : OnDisk τ} {file : JsonText}
    (hfile : disk.entries.get? (path (cache.key request)) = some file) :
    cache.complete request disk = (cache.readBack file, disk) := by
  rw [complete_eq, Memoised.answer_hit hfile]
  rfl

/-- **The inner client completes each request once at most.** Whatever it does, over any requests,
on any directory: for each file it returns at most one completion; from then on a request for that
file is answered with it, flagged as cached, and changes nothing; the same goes for a file that
was there at the start and for whatever a request was answered; a request that raises leaves the
files as they were; and what a file holds stays. -/
theorem inner_completes_once (requests : List Request) (disk : OnDisk τ)
    (hspells : ∀ request outer response,
      (cache.inner request outer).1 = .ok response → cache.Spells response) :
    (∀ name, (returned name (cache.innerCalls requests disk)).length ≤ 1) ∧
    ∀ before request rest, requests = before ++ request :: rest →
      (∀ response ∈ returned (path (cache.key request)) (cache.innerCalls before disk),
        cache.complete request (cache.after before disk) =
          (.ok (fromCache response), cache.after before disk)) ∧
      (∀ file, disk.entries.get? (path (cache.key request)) = some file →
        cache.complete request (cache.after before disk) =
          (cache.readBack file, cache.after before disk)) ∧
      (∀ response, (cache.complete request (cache.after before disk)).1 = .ok response →
        cache.complete request (cache.after requests disk) =
          (.ok (fromCache response), cache.after requests disk)) ∧
      (∀ exc, (cache.complete request (cache.after before disk)).1 = .error exc →
        (cache.complete request (cache.after before disk)).2.entries =
          (cache.after before disk).entries) ∧
      ∀ name file, (cache.after before disk).entries.get? name = some file →
        (cache.after requests disk).entries.get? name = some file := by
  refine ⟨fun name => Memoised.got_length_le_one requests disk name, ?_⟩
  rintro before request rest rfl
  have hsplit : cache.after (before ++ request :: rest) disk =
      cache.after rest (cache.complete request (cache.after before disk)).2 :=
    Run.exec_append cache.complete before (request :: rest) disk
  refine ⟨fun response hresponse => ?_, fun file hfile => ?_, fun response hanswered => ?_,
    fun exc hexc => cache.complete_error hexc, ?_⟩
  · have hspelled : cache.Spells response := by
      obtain ⟨asked, outer, hasked⟩ := Memoised.asked_of_got before hresponse
      exact hspells asked outer response hasked
    have hentry : (cache.after before disk).entries.get? (path (cache.key request)) =
        some (fileOf response) := by
      rw [after_eq]
      exact Memoised.entry_of_got before hresponse
    rw [cache.complete_hit hentry, cache.readBack_fileOf hspelled]
  · exact cache.complete_hit (cache.after_keeps before hfile)
  · obtain ⟨file, hfile, hread⟩ := cache.complete_stored hspells hanswered
    rw [hsplit, cache.complete_hit (cache.after_keeps rest hfile), hread]
  · intro name file hfile
    rw [hsplit]
    exact cache.after_keeps (request :: rest) hfile

end CachingLLMClient

namespace Sample

/-- The first request of a run without tools. -/
def request : Request where
  messages := [⟨"system", .malformed "Recover the payment."⟩,
    ⟨"user", .doc (.obj [("case", .obj []), ("tools", .arr []), ("history", .arr [])])⟩]

/-- It finishes at once, and counts its completions. -/
def finishing : Request → Nat → Except PyExc LLMResponse × Nat := fun _ calls =>
  (.ok ⟨"\x7b\"thought\": \"done\", \"final\": \x7b\x7d\x7d",
    .ok (.obj [("thought", .str "done"), ("final", .obj [])]), 60, 8, 5, false⟩, calls + 1)

def cache : CachingLLMClient Nat where
  inner := finishing
  spelling
    | .malformed raw => raw
    | .doc (.obj (("max_tokens", _) :: _)) => "\x7b\"max_tokens\": 1024, \"messages\": [\x7b" ++
        "\"content\": \"Recover the payment.\", \"role\": \"system\"\x7d, \x7b\"content\": " ++
        "\"\x7b\\\"case\\\": \x7b\x7d, \\\"history\\\": [], \\\"tools\\\": []\x7d\", " ++
        "\"role\": \"user\"\x7d], \"temperature\": 0.0\x7d"
    | .doc _ => "\x7b\"case\": \x7b\x7d, \"history\": [], \"tools\": []\x7d"
  loads _ := .ok (.obj [("thought", .str "done"), ("final", .obj [])])
  sha256 _ := "4be3bdc1c4eedfdb4a495d073fb83e5fd8a7c706edde0d36f0327af20ba28baf"

def disk : OnDisk Nat := ⟨.empty, 0⟩

/-- What the inner client returns. -/
def response : LLMResponse :=
  ⟨"\x7b\"thought\": \"done\", \"final\": \x7b\x7d\x7d",
    .ok (.obj [("thought", .str "done"), ("final", .obj [])]), 60, 8, 5, false⟩

end Sample

theorem finishing_spells (request : Request) (outer : Nat) (response : LLMResponse)
    (h : (Sample.cache.inner request outer).1 = .ok response) : Sample.cache.Spells response := by
  injection h with h
  rw [← h]
  rfl

/-- Asked a second time, the sample answers from its file. -/
theorem second_from_cache : Sample.cache.complete Sample.request
    (Sample.cache.after [Sample.request] Sample.disk) =
      (.ok (fromCache Sample.response), Sample.cache.after [Sample.request] Sample.disk) :=
  ((Sample.cache.inner_completes_once [Sample.request, Sample.request] Sample.disk
    finishing_spells).2 [Sample.request] Sample.request [] rfl).1 Sample.response (by
      show Sample.response ∈ [Sample.response]
      exact List.mem_singleton_self _)

end PaymentRecovery.Llm

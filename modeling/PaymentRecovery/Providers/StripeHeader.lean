import PaymentRecovery.Providers.Webhooks

/-!
# The elements of a `Stripe-Signature` header

The header is a list of `scheme=value` elements, and a scheme may occur more than
once: while a secret is being rotated there is a `v1` element for each secret. The
adapter makes a dictionary of it and looks at the last `v1` element alone.
-/

namespace PaymentRecovery.Providers

open PaymentRecovery.Python PaymentRecovery.Lib

/-- The values of the comma-separated elements of a scheme, in order. -/
def elements (scheme signature : String) : List String :=
  (signature.toList.splitOn ',').filterMap fun item =>
    afterPrefix (scheme ++ "=") (String.ofList item)

/-- The digest of the body with a timestamp in front, under the endpoint's secret. -/
def stripeDigest (rt : Runtime) (secret body : ByteArray) (timestamp : String) : String :=
  hexdigest (rt.hmacSha256 secret (encodeUtf8 (timestamp ++ ".") ++ body))

/-- The header has a timestamp, and one of its `v1` elements is the digest. -/
def SignedByAny (rt : Runtime) (secret body : ByteArray) (signature : String) : Prop :=
  ∃ timestamp ∈ elements "t" signature, timestamp ≠ "" ∧
    stripeDigest rt secret body timestamp ∈ elements "v1" signature

/-- Verification answers, and says whether a `v1` element of the header is the digest. -/
def VerifiesAny (rt : Runtime) (secret body : ByteArray) (signature : String) : Prop :=
  ∃ answer, verifySignature rt (.stripe secret) body signature = .ok answer ∧
    (answer = true ↔ SignedByAny rt secret body signature)

/-- With a timestamp, the last `v1` element is ASCII, and it is the digest if any of them is. -/
def LastDecides (rt : Runtime) (secret body : ByteArray) (signature : String) : Prop :=
  ∀ timestamp ∈ elements "t" signature, timestamp ≠ "" →
    ∀ last, (elements "v1" signature).getLast? = some last →
      isAscii last = true ∧
      (stripeDigest rt secret body timestamp ∈ elements "v1" signature →
        last = stripeDigest rt secret body timestamp ∧ last ≠ "")

/-- What the digest is compared with is ASCII: the last `v1` element, where there is a timestamp. -/
def LastComparable (signature : String) : Prop :=
  ∀ timestamp last, (elements "t" signature).getLast? = some timestamp → timestamp ≠ "" →
    (elements "v1" signature).getLast? = some last → isAscii last = true

/-- If any elements of the header sign the body, the last timestamp and the last `v1` element do,
and neither is empty. -/
def LastSigns (rt : Runtime) (secret body : ByteArray) (signature : String) : Prop :=
  SignedByAny rt secret body signature → ∃ timestamp last,
    (elements "t" signature).getLast? = some timestamp ∧ timestamp ≠ "" ∧
    (elements "v1" signature).getLast? = some last ∧
    last = stripeDigest rt secret body timestamp ∧ last ≠ ""

/-! ## The dictionary holds the last element of each scheme -/

/-- Up to the first `=` stands the scheme. -/
theorem splitOnce_append {scheme value : List Char} (h : '=' ∉ scheme) :
    splitOnce (scheme ++ '=' :: value) = (String.ofList scheme, String.ofList value) := by
  have hbefore : ∀ c ∈ scheme, decide (c ≠ '=') = true := by
    intro c hc
    exact decide_eq_true fun heq => h (heq ▸ hc)
  unfold splitOnce
  rw [List.takeWhile_append_of_pos hbefore, List.dropWhile_append_of_pos hbefore,
    List.takeWhile_cons_of_neg (by decide), List.dropWhile_cons_of_neg (by decide),
    List.append_nil]
  rfl

/-- An element of a scheme is an item that `split` takes apart at that scheme. -/
theorem afterPrefix_splitOnce {scheme : String} (h : '=' ∉ scheme.toList) (item : List Char) :
    afterPrefix (scheme ++ "=") (String.ofList item) =
      if '=' ∈ item ∧ (splitOnce item).1 = scheme then some (splitOnce item).2 else none := by
  have hstart : (scheme ++ "=").toList = scheme.toList ++ ['='] := String.toList_append
  by_cases hitem : '=' ∈ item
  · obtain ⟨before, value, rfl, hbefore⟩ := List.eq_append_cons_of_mem hitem
    by_cases hscheme : before = scheme.toList
    · subst hscheme
      have hsame : String.ofList (scheme.toList ++ '=' :: value) =
          (scheme ++ "=") ++ String.ofList value := by
        apply String.toList_injective
        rw [String.toList_ofList, String.toList_append, hstart, String.toList_ofList,
          List.append_assoc]
        rfl
      rw [hsame, afterPrefix_append, splitOnce_append hbefore, if_pos]
      exact ⟨hitem, String.ofList_toList⟩
    · rw [splitOnce_append hbefore, if_neg]
      · unfold afterPrefix
        rw [if_neg]
        rintro ⟨rest, hrest⟩
        rw [hstart, String.toList_ofList, List.append_assoc] at hrest
        -- both sides are cut at their first `=`
        have hsplit := congrArg (fun item => (splitOnce item).1) hrest
        dsimp only [List.singleton_append] at hsplit
        rw [splitOnce_append h, splitOnce_append hbefore] at hsplit
        exact hscheme (String.ofList_injective hsplit).symm
      · rintro ⟨_, hsame⟩
        exact hscheme (by rw [← hsame, String.toList_ofList])
  · rw [if_neg fun hin => hitem hin.1]
    unfold afterPrefix
    rw [if_neg]
    rintro ⟨rest, hrest⟩
    rw [hstart, String.toList_ofList] at hrest
    exact hitem (hrest ▸ by simp)

theorem stripeParts_get? {scheme : String} (h : '=' ∉ scheme.toList) (signature : String) :
    (stripeParts signature).get? scheme = (elements scheme signature).getLast? := by
  unfold stripeParts elements
  rw [Dict.get?_foldl_set, Dict.get?_empty, Option.or_none]
  congr 1
  induction signature.toList.splitOn ',' with
  | nil => rfl
  | cons item rest ih =>
    rw [List.filterMap_cons, afterPrefix_splitOnce h, ← ih]
    by_cases hitem : '=' ∈ item
    · rw [List.filter_cons_of_pos (by simpa using hitem), List.map_cons]
      by_cases hscheme : (splitOnce item).1 = scheme
      · rw [List.filter_cons_of_pos (by simpa using hscheme), if_pos ⟨hitem, hscheme⟩]
        rfl
      · rw [List.filter_cons_of_neg (by simpa using hscheme), if_neg fun hboth => hscheme hboth.2]
    · rw [List.filter_cons_of_neg (by simpa using hitem), if_neg fun hboth => hitem hboth.1]

/-! ## What the adapter answers -/

variable {rt : Runtime} {secret body : ByteArray} {signature timestamp : String}

theorem verifySignature_stripe (rt : Runtime) (secret body : ByteArray) (signature : String) :
    verifySignature rt (.stripe secret) body signature =
      match (elements "t" signature).getLast?, (elements "v1" signature).getLast? with
      | some timestamp, some provided =>
        if timestamp = "" ∨ provided = "" then .ok false
        else compareDigest (stripeDigest rt secret body timestamp) provided
      | _, _ => .ok false := by
  unfold verifySignature stripeSigned
  dsimp only
  rw [stripeParts_get? (by decide), stripeParts_get? (by decide)]
  cases (elements "t" signature).getLast? with
  | none => rfl
  | some timestamp =>
    cases (elements "v1" signature).getLast? with
    | none => rfl
    | some provided =>
      dsimp only
      by_cases hempty : timestamp = "" ∨ provided = ""
      · rw [if_pos hempty, if_pos hempty]
      · rw [if_neg hempty, if_neg hempty]
        rfl

/-- A verification that answers is right if its answer is. -/
theorem right_answer_iff {verified : Except PyExc Bool} {answer : Bool} {authentic : Prop}
    (hverify : verified = .ok answer) :
    (∃ answer, verified = .ok answer ∧ (answer = true ↔ authentic)) ↔
      (answer = true ↔ authentic) := by
  rw [hverify]
  refine ⟨?_, fun h => ⟨answer, rfl, h⟩⟩
  rintro ⟨answer', hanswer, hiff⟩
  injection hanswer with hanswer
  exact hanswer ▸ hiff

theorem verifiesAny_of_ok {answer : Bool}
    (hverify : verifySignature rt (.stripe secret) body signature = .ok answer) :
    VerifiesAny rt secret body signature ↔
      (answer = true ↔ SignedByAny rt secret body signature) :=
  right_answer_iff hverify

/-- Where verification says no, that is right if no element is the digest. -/
theorem verifiesAny_of_false
    (hverify : verifySignature rt (.stripe secret) body signature = .ok false) :
    VerifiesAny rt secret body signature ↔ ¬ SignedByAny rt secret body signature := by
  rw [verifiesAny_of_ok hverify]
  simp

theorem signedByAny_single (ht : elements "t" signature = [timestamp]) (hne : timestamp ≠ "") :
    SignedByAny rt secret body signature ↔
      stripeDigest rt secret body timestamp ∈ elements "v1" signature := by
  unfold SignedByAny
  rw [ht]
  simp [hne]

theorem lastDecides_single (ht : elements "t" signature = [timestamp]) (hne : timestamp ≠ "")
    {last : String} (hlast : (elements "v1" signature).getLast? = some last) :
    LastDecides rt secret body signature ↔ isAscii last = true ∧
      (stripeDigest rt secret body timestamp ∈ elements "v1" signature →
        last = stripeDigest rt secret body timestamp ∧ last ≠ "") := by
  unfold LastDecides
  rw [ht, hlast]
  simp [hne]

/-- Two last elements that are there decide what is compared. -/
theorem lastComparable_some {last : String} (ht : (elements "t" signature).getLast? = some timestamp)
    (hne : timestamp ≠ "") (hlast : (elements "v1" signature).getLast? = some last) :
    LastComparable signature ↔ isAscii last = true := by
  unfold LastComparable
  simp [ht, hne, hlast]

theorem lastSigns_some {last : String} (ht : (elements "t" signature).getLast? = some timestamp)
    (hne : timestamp ≠ "") (hlast : (elements "v1" signature).getLast? = some last) :
    LastSigns rt secret body signature ↔ (SignedByAny rt secret body signature →
      last = stripeDigest rt secret body timestamp ∧ last ≠ "") := by
  unfold LastSigns
  rw [ht, hlast]
  refine ⟨fun h hany => ?_, fun h hany => ⟨timestamp, last, rfl, hne, rfl, h hany⟩⟩
  obtain ⟨timestamp', last', ht', _, hlast', hdigest⟩ := h hany
  injection ht' with ht'
  injection hlast' with hlast'
  subst ht' hlast'
  exact hdigest

/-- Where nothing is compared, it is right to say no if no element is the digest. -/
theorem verifiesAny_uncompared
    (hverify : verifySignature rt (.stripe secret) body signature = .ok false)
    (hnone : ∀ timestamp last, (elements "t" signature).getLast? = some timestamp →
      timestamp ≠ "" → (elements "v1" signature).getLast? = some last → last = "") :
    VerifiesAny rt secret body signature ↔
      LastComparable signature ∧ LastSigns rt secret body signature := by
  rw [verifiesAny_of_false hverify]
  refine ⟨fun hunsigned => ⟨?_, fun hsigned => absurd hsigned hunsigned⟩, fun h hsigned => ?_⟩
  · intro timestamp last ht hne hlast
    rw [hnone timestamp last ht hne hlast]
    rfl
  · obtain ⟨timestamp, last, ht, hne, hlast, _, hne'⟩ := h.2 hsigned
    exact hne' (hnone timestamp last ht hne hlast)

/-- Verification answers, and says whether a `v1` element is the digest, if and only if what it
compares is ASCII and the last elements sign the body whenever any do. -/
theorem verifiesAny_lasts (rt : Runtime) (secret body : ByteArray) (signature : String) :
    VerifiesAny rt secret body signature ↔
      LastComparable signature ∧ LastSigns rt secret body signature := by
  have hverify := verifySignature_stripe rt secret body signature
  cases ht : (elements "t" signature).getLast? with
  | none =>
    rw [ht] at hverify
    exact verifiesAny_uncompared hverify (by simp [ht])
  | some timestamp =>
    cases hlast : (elements "v1" signature).getLast? with
    | none =>
      rw [ht, hlast] at hverify
      exact verifiesAny_uncompared hverify (by simp [hlast])
    | some last =>
      rw [ht, hlast] at hverify
      dsimp only at hverify
      by_cases hempty : timestamp = "" ∨ last = ""
      · rw [if_pos hempty] at hverify
        refine verifiesAny_uncompared hverify fun timestamp' last' ht' hne hlast' => ?_
        rw [ht] at ht'
        rw [hlast] at hlast'
        injection ht' with ht'
        injection hlast' with hlast'
        rw [← hlast']
        exact hempty.resolve_left (ht' ▸ hne)
      · -- the last element is compared
        obtain ⟨hne, hne'⟩ := not_or.mp hempty
        rw [if_neg hempty] at hverify
        rw [lastComparable_some ht hne hlast, lastSigns_some ht hne hlast]
        obtain ⟨hanswers, hraises⟩ := compareDigest_spec
          (rt.hmacSha256 secret (encodeUtf8 (timestamp ++ ".") ++ body)) last
        by_cases hascii : isAscii last = true
        · rw [stripeDigest, hanswers hascii] at hverify
          rw [verifiesAny_of_ok hverify, decide_eq_true_eq]
          refine ⟨fun h => ⟨hascii, fun hany => ⟨h.mpr hany, hne'⟩⟩,
            fun h => ⟨fun hsame => ?_, fun hany => (h.2 hany).1⟩⟩
          refine ⟨timestamp, List.mem_of_getLast? ht, hne, ?_⟩
          rw [stripeDigest, ← hsame]
          exact List.mem_of_getLast? hlast
        · obtain ⟨exc, hexc⟩ := hraises hascii
          rw [stripeDigest, hexc] at hverify
          refine iff_of_false ?_ fun h => hascii h.1
          rintro ⟨answer, hanswer, _⟩
          rw [hverify] at hanswer
          cases hanswer

/-- **Rotated secrets.** For every HMAC, secret, body and header with at most one timestamp:
verification answers, and says whether one of the `v1` elements is the digest, if and only if the
last of them is ASCII and is the digest whenever any of them is. -/
theorem verifies_any_iff (rt : Runtime) (secret body : ByteArray) (signature : String)
    (hone : (elements "t" signature).length ≤ 1) :
    VerifiesAny rt secret body signature ↔ LastDecides rt secret body signature := by
  rw [verifiesAny_lasts]
  cases ht : elements "t" signature with
  | nil =>
    -- no timestamp
    have hunsigned : ¬ SignedByAny rt secret body signature := by
      unfold SignedByAny
      simp [ht]
    refine iff_of_true ⟨?_, fun h => absurd h hunsigned⟩ ?_
    · unfold LastComparable
      simp [ht]
    · unfold LastDecides
      simp [ht]
  | cons timestamp others =>
    have hsingle : others = [] := by
      rw [ht] at hone
      exact List.length_eq_zero_iff.mp (by simpa using hone)
    subst hsingle
    by_cases hne : timestamp = ""
    · -- an empty one
      have hunsigned : ¬ SignedByAny rt secret body signature := by
        unfold SignedByAny
        simp [ht, hne]
      refine iff_of_true ⟨?_, fun h => absurd h hunsigned⟩ ?_
      · intro timestamp' last ht' hne'
        rw [ht, List.getLast?_singleton] at ht'
        injection ht' with ht'
        exact absurd (ht' ▸ hne) hne'
      · unfold LastDecides
        simp [ht, hne]
    · cases hlast : (elements "v1" signature).getLast? with
      | none =>
        have hunsigned : ¬ SignedByAny rt secret body signature := by
          rw [signedByAny_single ht hne, List.getLast?_eq_none_iff.mp hlast]
          exact List.not_mem_nil
        refine iff_of_true ⟨?_, fun h => absurd h hunsigned⟩ ?_
        · unfold LastComparable
          simp [hlast]
        · unfold LastDecides
          simp [hlast]
      | some last =>
        have htlast : (elements "t" signature).getLast? = some timestamp := by
          rw [ht]
          rfl
        rw [lastComparable_some htlast hne hlast, lastSigns_some htlast hne hlast,
          signedByAny_single ht hne, lastDecides_single ht hne hlast]

/-- A runtime whose digests are the secrets, with nothing to parse. -/
def Sample.rotating : Runtime where
  hmacSha256 := fun secret _ => secret.data.toList
  jsonLoads := fun _ => .ok (.dict [])
  intOfText := fun _ => .ok 0
  floatOfText := fun _ => .ok 0
  fromTimestamp := fun _ => .ok 0
  fromIsoformat := fun _ => .ok 0

/-- The element of the endpoint's secret comes last. -/
theorem verifies_any_last :
    VerifiesAny Sample.rotating ⟨#[1]⟩ ByteArray.empty "v0=zz,t=1,v1=02,v1=01" := by
  have ht : elements "t" "v0=zz,t=1,v1=02,v1=01" = ["1"] := by decide +kernel
  have hv1 : (elements "v1" "v0=zz,t=1,v1=02,v1=01").getLast? = some "01" := by decide +kernel
  refine (verifies_any_iff _ _ _ _ (by rw [ht]; decide)).mpr ?_
  rw [lastDecides_single ht (by decide) hv1]
  have hdigest : stripeDigest Sample.rotating ⟨#[1]⟩ ByteArray.empty "1" = "01" := by decide +kernel
  rw [hdigest]
  decide

/-- It comes first, and that of the retired secret after it. -/
theorem rotated_secret_refused :
    ¬ VerifiesAny Sample.rotating ⟨#[1]⟩ ByteArray.empty "t=1,v1=01,v1=02" := by
  have ht : elements "t" "t=1,v1=01,v1=02" = ["1"] := by decide +kernel
  have hv1 : "01" ∈ elements "v1" "t=1,v1=01,v1=02" := by decide +kernel
  have hdigest : stripeDigest Sample.rotating ⟨#[1]⟩ ByteArray.empty "1" = "01" := by decide +kernel
  have hverify : verifySignature Sample.rotating (.stripe ⟨#[1]⟩) ByteArray.empty
      "t=1,v1=01,v1=02" = .ok false := by decide +kernel
  rw [verifiesAny_of_false hverify, signedByAny_single ht (by decide), hdigest]
  exact fun h => h hv1

end PaymentRecovery.Providers

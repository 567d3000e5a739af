import PaymentRecovery.Python.Value

/-!
# Bytes and texts

`bytes.decode`, `str.encode`, and the comparison of two digests. Decoding with
`errors="replace"` never fails, and gives back what it read only where that was
UTF-8.
-/

namespace PaymentRecovery.Python

/-- `text.encode("utf-8")`. -/
def encodeUtf8 (text : String) : ByteArray := text.toByteArray

/-- The byte at an index, and none past the end. -/
def byteAt (bytes : ByteArray) (i : Nat) : Option Nat :=
  if h : i < bytes.size then some bytes[i].toNat else none

/-- May the byte follow this lead byte? The first continuation byte of some leads is restricted. -/
def follows (lead second : Nat) : Bool :=
  if lead = 0xE0 then 0xA0 ≤ second && second ≤ 0xBF
  else if lead = 0xED then 0x80 ≤ second && second ≤ 0x9F
  else if lead = 0xF0 then 0x90 ≤ second && second ≤ 0xBF
  else if lead = 0xF4 then 0x80 ≤ second && second ≤ 0x8F
  else 0x80 ≤ second && second ≤ 0xBF

/-- How many bytes one replacement character stands for: the longest start of a sequence, or one. -/
def malformedSize (bytes : ByteArray) (i : Nat) : Nat :=
  match byteAt bytes i, byteAt bytes (i + 1), byteAt bytes (i + 2) with
  | some lead, some second, third =>
    if 0xE0 ≤ lead ∧ lead ≤ 0xEF ∧ follows lead second then 2
    else if 0xF0 ≤ lead ∧ lead ≤ 0xF4 ∧ follows lead second then
      match third with
      | some third => if 0x80 ≤ third ∧ third ≤ 0xBF then 3 else 2
      | none => 2
    else 1
  | _, _, _ => 1

/-- The characters from an index on; every step consumes a byte at least. -/
def decodeFrom (bytes : ByteArray) : Nat → Nat → List Char
  | 0, _ => []
  | fuel + 1, i =>
    if i < bytes.size then
      match bytes.utf8DecodeChar? i with
      | some c => c :: decodeFrom bytes fuel (i + c.utf8Size)
      | none => '\uFFFD' :: decodeFrom bytes fuel (i + malformedSize bytes i)
    else []

/-- `bytes.decode("utf-8", errors="replace")`. -/
def decodeReplace (bytes : ByteArray) : String :=
  String.ofList (decodeFrom bytes bytes.size 0)

theorem size_utf8Encode_singleton (c : Char) : [c].utf8Encode.size = c.utf8Size := by
  rw [List.utf8Encode_singleton, List.size_toByteArray, String.length_utf8EncodeChar]

theorem size_utf8Encode_cons (c : Char) (l : List Char) :
    (c :: l).utf8Encode.size = c.utf8Size + l.utf8Encode.size := by
  rw [← List.singleton_append, List.utf8Encode_append, ByteArray.size_append,
    size_utf8Encode_singleton]

theorem length_le_size_utf8Encode (l : List Char) : l.length ≤ l.utf8Encode.size := by
  induction l with
  | nil => exact Nat.zero_le _
  | cons c l ih =>
    rw [size_utf8Encode_cons, List.length_cons]
    have hpos := c.utf8Size_pos
    omega

/-- What follows in UTF-8 is decoded to the characters it encodes. -/
theorem decodeFrom_utf8Encode (l : List Char) :
    ∀ (before : ByteArray) (fuel : Nat), l.length ≤ fuel →
      decodeFrom (before ++ l.utf8Encode) fuel before.size = l := by
  induction l with
  | nil =>
    intro before fuel _
    cases fuel with
    | zero => rfl
    | succ fuel =>
      unfold decodeFrom
      rw [if_neg (by simp)]
  | cons c l ih =>
    intro before fuel hfuel
    cases fuel with
    | zero => cases hfuel
    | succ fuel =>
      have hsize := size_utf8Encode_cons c l
      have hpos := c.utf8Size_pos
      have hchar : (before ++ (c :: l).utf8Encode).utf8DecodeChar? before.size = some c := by
        rw [ByteArray.utf8DecodeChar?_eq_utf8DecodeChar?_extract, ByteArray.size_append,
          ByteArray.extract_append_eq_right rfl rfl]
        exact List.utf8DecodeChar?_utf8Encode_cons
      have hsplit : before ++ (c :: l).utf8Encode = (before ++ [c].utf8Encode) ++ l.utf8Encode := by
        rw [ByteArray.append_assoc, ← List.utf8Encode_append, List.singleton_append]
      have hnext : before.size + c.utf8Size = (before ++ [c].utf8Encode).size := by
        rw [ByteArray.size_append, size_utf8Encode_singleton]
      unfold decodeFrom
      rw [if_pos (by rw [ByteArray.size_append]; omega), hchar]
      dsimp only
      rw [hsplit, hnext, ih _ fuel (by simpa using hfuel)]

/-- Decoding and encoding again gives the same bytes if and only if they were UTF-8. -/
theorem encode_decodeReplace_iff (bytes : ByteArray) :
    encodeUtf8 (decodeReplace bytes) = bytes ↔ bytes.IsValidUTF8 := by
  refine ⟨fun h => ?_, ?_⟩
  · rw [← h]
    exact (decodeReplace bytes).isValidUTF8
  · rintro ⟨l, rfl⟩
    have h := decodeFrom_utf8Encode l ByteArray.empty _ (length_le_size_utf8Encode l)
    rw [ByteArray.empty_append] at h
    unfold encodeUtf8 decodeReplace
    rw [show ByteArray.empty.size = 0 from rfl] at h
    rw [h, String.toByteArray_ofList]

/-- A byte that starts nothing becomes a replacement character. -/
example : decodeReplace ⟨#[0x7B, 0xFF, 0x7D]⟩ = "\x7b\uFFFD\x7d" := by decide +kernel

/-- `raw.decode("latin-1")`, as header values are read. -/
def decodeLatin1 (raw : List UInt8) : String :=
  String.ofList (raw.map fun byte => Char.ofNat byte.toNat)

/-! ## Digests -/

/-- `text.isascii()`. -/
def isAscii (text : String) : Bool := text.toList.all fun c => c.toNat < 128

/-- A digit of `hexdigest`. -/
def hexDigit (n : Nat) : Char :=
  if n < 10 then Char.ofNat (48 + n) else Char.ofNat (87 + n)

/-- `digest.hex()`. -/
def hexdigest (digest : List UInt8) : String :=
  String.ofList (digest.flatMap fun byte => [hexDigit (byte.toNat / 16), hexDigit (byte.toNat % 16)])

theorem hexDigit_lt {n : Nat} (h : n < 16) : (hexDigit n).toNat < 128 := by
  have hall : ∀ digit : Fin 16, (hexDigit digit).toNat < 128 := by decide
  exact hall ⟨n, h⟩

theorem isAscii_hexdigest (digest : List UInt8) : isAscii (hexdigest digest) = true := by
  unfold isAscii hexdigest
  rw [String.toList_ofList, List.all_eq_true]
  intro c hc
  obtain ⟨byte, _, hc⟩ := List.mem_flatMap.mp hc
  have hbyte := byte.toNat_lt
  simp only [List.mem_cons, List.not_mem_nil, or_false] at hc
  rcases hc with rfl | rfl
  · exact decide_eq_true (hexDigit_lt (by omega))
  · exact decide_eq_true (hexDigit_lt (by omega))

/-- `hmac.compare_digest`, on two texts. -/
def compareDigest (a b : String) : Except PyExc Bool :=
  if isAscii a && isAscii b then .ok (a = b)
  else .error ⟨.typeError, "comparing strings with non-ASCII characters is not supported"⟩

/-- Against a hex digest only the given text can be the one that is not ASCII. -/
theorem compareDigest_hexdigest (digest : List UInt8) (given : String) :
    compareDigest (hexdigest digest) given =
      if isAscii given then .ok (hexdigest digest = given)
      else .error ⟨.typeError, "comparing strings with non-ASCII characters is not supported"⟩ := by
  unfold compareDigest
  rw [isAscii_hexdigest, Bool.true_and]

end PaymentRecovery.Python

import GreengrassLite.Core.Object
import GreengrassLite.Library.Bytes
import GreengrassLite.Library.Region

/-!
# Base64

`ggl-lib/src/base64.c`.  The decoder is strict: it wants whole segments, refuses
data after padding and refuses set bits that the padding would drop.  So a text
is accepted exactly when it is the encoding of what it decodes to.

In place, the bytes are written over the text that they come from.  They never
reach the segments still to be read.
-/

namespace GreengrassLite

open Library List

/-- `base64_char_to_byte`. -/
def base64CharToByte (digit : UInt8) : Option UInt8 :=
  if 65 ≤ digit ∧ digit ≤ 90 then
    some (digit - 65)
  else if 97 ≤ digit ∧ digit ≤ 122 then
    some (digit - 97 + (90 - 65 + 1))
  else if 48 ≤ digit ∧ digit ≤ 57 then
    some (digit - 48 + (90 - 65 + 1) + (122 - 97 + 1))
  else if digit = 43 then
    some 62
  else if digit = 47 then
    some 63
  else
    none

/-- `BASE64_TABLE`. -/
def base64Table : Buffer :=
  gglStr "ABCDEFGHIJKLMNOPQRSTUVWXYZabcdefghijklmnopqrstuvwxyz0123456789+/"

def base64Digit (value : Nat) : UInt8 :=
  base64Table.getD value 0

/-- The character that fills a last segment. -/
def base64Padding : UInt8 :=
  61

/-- `base64_decode_segment`: the bytes of one segment.  A segment of fewer than
three bytes is padded, and must be the last. -/
def base64DecodeSegment (first second third fourth : UInt8) : Option Buffer :=
  match base64CharToByte first with
  | none => none
  | some decodedFirst =>
    match base64CharToByte second with
    | none => none
    | some decodedSecond =>
      let high := decodedFirst <<< 2 ||| decodedSecond >>> 4
      let middle := decodedSecond <<< 4
      if third = base64Padding then
        if fourth ≠ base64Padding then
          none
        else if middle ≠ 0 then
          none
        else
          some [high]
      else
        match base64CharToByte third with
        | none => none
        | some decodedThird =>
          let middle := middle ||| decodedThird >>> 2
          let low := decodedThird <<< 6
          if fourth = base64Padding then
            if low ≠ 0 then
              none
            else
              some [high, middle]
          else
            match base64CharToByte fourth with
            | none => none
            | some decodedFourth => some [high, middle, low ||| decodedFourth]

/-- The loop of `ggl_base64_decode`; `last` is set after a padded segment. -/
def base64DecodeLoop (last : Bool) : Buffer → Option Buffer
  | [] => some []
  | first :: second :: third :: fourth :: rest =>
    if last then
      none
    else
      match base64DecodeSegment first second third fourth with
      | none => none
      | some bytes =>
        (base64DecodeLoop (bytes.length ≠ 3) rest).map fun decoded => bytes ++ decoded
  | _ => none

/-- `ggl_base64_decode` into a target of `capacity` bytes. -/
def gglBase64Decode (base64 : Buffer) (capacity : Nat) : Option Buffer :=
  if base64.length % 4 ≠ 0 then
    none
  else if capacity < base64.length / 4 * 3 then
    none
  else
    base64DecodeLoop false base64

/-- Three bytes as one number. -/
def base64Chunk (first second third : UInt8) : Nat :=
  (first.toNat <<< 16) + (second.toNat <<< 8) + third.toNat

/-- The text `ggl_base64_encode` writes. -/
def gglBase64Encode : Buffer → Buffer
  | [] => []
  | [first] =>
    let chunk := base64Chunk first 0 0
    [base64Digit (chunk >>> 18), base64Digit (chunk >>> 12 &&& 0x3F), base64Padding,
      base64Padding]
  | [first, second] =>
    let chunk := base64Chunk first second 0
    [base64Digit (chunk >>> 18), base64Digit (chunk >>> 12 &&& 0x3F),
      base64Digit (chunk >>> 6 &&& 0x3F), base64Padding]
  | first :: second :: third :: rest =>
    let chunk := base64Chunk first second third
    base64Digit (chunk >>> 18) :: base64Digit (chunk >>> 12 &&& 0x3F) ::
      base64Digit (chunk >>> 6 &&& 0x3F) :: base64Digit (chunk &&& 0x3F) ::
      gglBase64Encode rest

/-! ## Digits -/

/-- A character that is read is the digit of a value below 64. -/
theorem base64Digit_of_char {digit value : UInt8} (read : base64CharToByte digit = some value) :
    value.toNat < 64 ∧ base64Digit value.toNat = digit := by
  have all : ∀ code < 256, ((base64CharToByte (UInt8.ofNat code)).all fun value =>
      value.toNat < 64 ∧ base64Digit value.toNat = UInt8.ofNat code) = true := by
    decide +kernel
  have found := all digit.toNat digit.toNat_lt
  rw [UInt8.ofNat_toNat, read] at found
  simpa using found

theorem ne_padding {digit value : UInt8} (read : base64CharToByte digit = some value) :
    digit ≠ base64Padding := by
  rintro rfl
  cases read

/-! ## Bits of a segment -/

section Bits

variable {first second third fourth : UInt8}

theorem base64_shifts (digit : UInt8) :
    (digit <<< 4).toNat = digit.toNat % 16 * 2 ^ 4 ∧
      (digit <<< 6).toNat = digit.toNat % 4 * 2 ^ 6 := by
  simp only [UInt8.toNat_shiftLeft, UInt8.reduceToNat, Nat.reduceMod, Nat.shiftLeft_eq]
  omega

theorem base64Chunk_eq :
    base64Chunk first second third = first.toNat * 65536 + second.toNat * 256 + third.toNat := by
  simp [base64Chunk, Nat.shiftLeft_eq]

theorem and_low_bits (value : Nat) : value &&& 0x3F = value % 64 :=
  Nat.and_two_pow_sub_one_eq_mod value 6

/-- The digits of a number of twenty-four bits. -/
theorem base64_digits {a b c d : Nat} (bSmall : b < 64) (cSmall : c < 64) (dSmall : d < 64) :
    (a * 262144 + b * 4096 + c * 64 + d) >>> 18 = a ∧
      (a * 262144 + b * 4096 + c * 64 + d) >>> 12 &&& 0x3F = b ∧
      (a * 262144 + b * 4096 + c * 64 + d) >>> 6 &&& 0x3F = c ∧
      (a * 262144 + b * 4096 + c * 64 + d) &&& 0x3F = d := by
  simp only [and_low_bits, Nat.shiftRight_eq_div_pow]
  omega

end Bits

/-! ## Segments -/

section Segments

variable {first second third fourth : UInt8} {bytes : Buffer}

/-- The bytes of a segment are the number that its digits are. -/
theorem base64Chunk_segment {a b c d : UInt8} (aSmall : a.toNat < 64) (bSmall : b.toNat < 64)
    (cSmall : c.toNat < 64) (dSmall : d.toNat < 64) :
    base64Chunk (a <<< 2 ||| b >>> 4) (b <<< 4 ||| c >>> 2) (c <<< 6 ||| d) =
      a.toNat * 262144 + b.toNat * 4096 + c.toNat * 64 + d.toNat := by
  have high := mul_two_pow_or a.toNat 2 (show b.toNat / 2 ^ 4 < _ by omega)
  have middle := mul_two_pow_or (b.toNat % 16) 4 (show c.toNat / 2 ^ 2 < _ by omega)
  have low := mul_two_pow_or (c.toNat % 4) 6 dSmall
  have shifted : (a <<< 2).toNat = a.toNat * 2 ^ 2 := by
    simp only [UInt8.toNat_shiftLeft, UInt8.reduceToNat, Nat.reduceMod, Nat.shiftLeft_eq]
    omega
  simp only [base64Chunk_eq, UInt8.toNat_or, shifted, base64_shifts, UInt8.toNat_shiftRight,
    UInt8.reduceToNat, Nat.reduceMod, Nat.shiftRight_eq_div_pow, high, middle, low]
  omega

theorem base64Chunk_inj {first' second' third' : UInt8}
    (same : base64Chunk first second third = base64Chunk first' second' third') :
    first = first' ∧ second = second' ∧ third = third' := by
  have secondBound := second.toNat_lt
  have thirdBound := third.toNat_lt
  have secondBound' := second'.toNat_lt
  have thirdBound' := third'.toNat_lt
  rw [base64Chunk_eq, base64Chunk_eq] at same
  simp only [← UInt8.toNat_inj]
  omega

theorem encode_two_bytes {a b c : UInt8} (aSmall : a.toNat < 64) (bSmall : b.toNat < 64)
    (cSmall : c.toNat < 64) (unused : c <<< 6 = 0) :
    gglBase64Encode [a <<< 2 ||| b >>> 4, b <<< 4 ||| c >>> 2]
      = [base64Digit a.toNat, base64Digit b.toNat, base64Digit c.toNat, base64Padding] := by
  have zero : (0 : UInt8).toNat < 64 := by decide
  have chunk := base64Chunk_segment aSmall bSmall cSmall zero
  rw [unused, UInt8.or_self] at chunk
  simp only [gglBase64Encode, chunk, base64_digits bSmall cSmall zero]

theorem encode_one_byte {a b : UInt8} (aSmall : a.toNat < 64) (bSmall : b.toNat < 64)
    (unused : b <<< 4 = 0) :
    gglBase64Encode [a <<< 2 ||| b >>> 4]
      = [base64Digit a.toNat, base64Digit b.toNat, base64Padding, base64Padding] := by
  have zero : (0 : UInt8).toNat < 64 := by decide
  have chunk := base64Chunk_segment aSmall bSmall zero zero
  rw [unused] at chunk
  change base64Chunk _ 0 0 = _ at chunk
  simp only [gglBase64Encode, chunk, base64_digits bSmall zero zero]

/-- A segment that is decoded is the encoding of its bytes. -/
theorem encode_of_base64DecodeSegment
    (decoded : base64DecodeSegment first second third fourth = some bytes) :
    gglBase64Encode bytes = [first, second, third, fourth] ∧ bytes ≠ [] ∧ bytes.length ≤ 3 := by
  revert decoded
  fun_cases base64DecodeSegment first second third fourth <;> rintro ⟨⟩
  case case5 a readFirst b readSecond high middle padded fourthPadded unused =>
    rcases base64Digit_of_char readFirst with ⟨aSmall, rfl⟩
    rcases base64Digit_of_char readSecond with ⟨bSmall, rfl⟩
    rw [encode_one_byte aSmall bSmall (not_not.mp unused), padded, not_not.mp fourthPadded]
    exact ⟨rfl, by simp, by simp⟩
  case case8 a readFirst b readSecond high _ _ c readThird middle low padded unused =>
    rcases base64Digit_of_char readFirst with ⟨aSmall, rfl⟩
    rcases base64Digit_of_char readSecond with ⟨bSmall, rfl⟩
    rcases base64Digit_of_char readThird with ⟨cSmall, rfl⟩
    rw [encode_two_bytes aSmall bSmall cSmall (not_not.mp unused), padded]
    exact ⟨rfl, by simp, by simp⟩
  case case10 a readFirst b readSecond high begun _ c readThird middle low _ d readFourth =>
    rcases base64Digit_of_char readFirst with ⟨aSmall, rfl⟩
    rcases base64Digit_of_char readSecond with ⟨bSmall, rfl⟩
    rcases base64Digit_of_char readThird with ⟨cSmall, rfl⟩
    rcases base64Digit_of_char readFourth with ⟨dSmall, rfl⟩
    refine ⟨?_, by simp, by simp⟩
    simp only [gglBase64Encode, high, begun, middle, low,
      base64Chunk_segment aSmall bSmall cSmall dSmall, base64_digits bSmall cSmall dSmall]

theorem base64CharToByte_ofNat (value : Nat) (small : value < 64) :
    ∃ decoded : UInt8, base64CharToByte (base64Digit value) = some decoded ∧
      decoded.toNat = value ∧ decoded.toNat < 64 := by
  have all : ∀ value < 64, base64CharToByte (base64Digit value) = some (UInt8.ofNat value) ∧
      (UInt8.ofNat value).toNat = value := by
    decide +kernel
  obtain ⟨read, round⟩ := all value small
  exact ⟨_, read, round, round.symm ▸ small⟩

/-- The digits of a chunk decode to values whose bits are its bytes. -/
theorem chunk_digits (first second third : UInt8) :
    ∃ a b c d : UInt8,
      base64CharToByte (base64Digit (base64Chunk first second third >>> 18)) = some a ∧
      base64CharToByte (base64Digit (base64Chunk first second third >>> 12 &&& 0x3F)) = some b ∧
      base64CharToByte (base64Digit (base64Chunk first second third >>> 6 &&& 0x3F)) = some c ∧
      base64CharToByte (base64Digit (base64Chunk first second third &&& 0x3F)) = some d ∧
      a <<< 2 ||| b >>> 4 = first ∧ b <<< 4 ||| c >>> 2 = second ∧ c <<< 6 ||| d = third := by
  have bound : base64Chunk first second third < 2 ^ 24 := by
    have firstBound := first.toNat_lt
    have secondBound := second.toNat_lt
    have thirdBound := third.toNat_lt
    rw [base64Chunk_eq]
    omega
  generalize chunk : base64Chunk first second third = number at bound
  simp only [and_low_bits, Nat.shiftRight_eq_div_pow]
  obtain ⟨a, readA, valueA, aSmall⟩ := base64CharToByte_ofNat (number / 2 ^ 18) (by omega)
  obtain ⟨b, readB, valueB, bSmall⟩ := base64CharToByte_ofNat (number / 2 ^ 12 % 64) (by omega)
  obtain ⟨c, readC, valueC, cSmall⟩ := base64CharToByte_ofNat (number / 2 ^ 6 % 64) (by omega)
  obtain ⟨d, readD, valueD, dSmall⟩ := base64CharToByte_ofNat (number % 64) (by omega)
  refine ⟨a, b, c, d, readA, readB, readC, readD, base64Chunk_inj ?_⟩
  rw [base64Chunk_segment aSmall bSmall cSmall dSmall]
  omega

end Segments

/-! ## The decoder -/

/-- What the decoder accepts is an encoding. -/
theorem encode_of_base64DecodeLoop {last : Bool} {base64 bytes : Buffer}
    (decoded : base64DecodeLoop last base64 = some bytes) :
    gglBase64Encode bytes = base64 ∧ (last = true → base64 = []) := by
  fun_induction base64DecodeLoop last base64 generalizing bytes with
  | case1 last =>
    cases decoded
    exact ⟨rfl, fun _ => rfl⟩
  | case2 | case3 | case5 => cases decoded
  | case4 last first second third fourth rest continuing segment read ih =>
    rcases Option.map_eq_some_iff.mp decoded with ⟨others, decodedRest, rfl⟩
    rcases encode_of_base64DecodeSegment read with ⟨encoded, nonempty, short⟩
    rcases ih decodedRest with ⟨encodedRest, padded⟩
    refine ⟨?_, fun stop => absurd stop continuing⟩
    match segment, encoded, nonempty, short with
    | [a, b, c], encoded, _, _ =>
      change gglBase64Encode [a, b, c] ++ gglBase64Encode others = _
      rw [encoded, encodedRest]
      rfl
    | [a], encoded, _, _ =>
      cases padded rfl
      cases decodedRest
      exact encoded
    | [a, b], encoded, _, _ =>
      cases padded rfl
      cases decodedRest
      exact encoded

@[simp]
theorem base64DecodeLoop_encode (bytes : Buffer) :
    base64DecodeLoop false (gglBase64Encode bytes) = some bytes := by
  induction bytes using gglBase64Encode.induct with
  | case1 => rfl
  | case2 first =>
    obtain ⟨a, b, c, d, readA, readB, -, -, high, middle, -⟩ := chunk_digits first 0 0
    simp [gglBase64Encode, base64DecodeLoop, base64DecodeSegment, readA, readB, high,
      (UInt8.or_eq_zero_iff.mp middle).1]
  | case3 first second =>
    obtain ⟨a, b, c, d, readA, readB, readC, -, high, middle, low⟩ := chunk_digits first second 0
    simp [gglBase64Encode, base64DecodeLoop, base64DecodeSegment, readA, readB, readC,
      ne_padding readC, high, middle, (UInt8.or_eq_zero_iff.mp low).1]
  | case4 first second third rest ih =>
    obtain ⟨a, b, c, d, readA, readB, readC, readD, high, middle, low⟩ :=
      chunk_digits first second third
    simp [gglBase64Encode, base64DecodeLoop, base64DecodeSegment, readA, readB, readC, readD,
      ne_padding readC, ne_padding readD, high, middle, low, ih]

theorem base64DecodeLoop_eq_some_iff {base64 bytes : Buffer} :
    base64DecodeLoop false base64 = some bytes ↔ base64 = gglBase64Encode bytes := by
  constructor
  · exact fun decoded => (encode_of_base64DecodeLoop decoded).1.symm
  · rintro rfl
    exact base64DecodeLoop_encode bytes

/-- The length `ggl_base64_encode` allocates. -/
@[simp]
theorem gglBase64Encode_length (bytes : Buffer) :
    (gglBase64Encode bytes).length = (bytes.length + 2) / 3 * 4 := by
  fun_induction gglBase64Encode bytes with
  | case1 => rfl
  | case2 | case3 => simp
  | case4 first second third rest chunk ih =>
    simp only [length_cons, ih]
    omega

/-- A text is decoded exactly when it is the encoding of the result. -/
@[simp]
theorem gglBase64Decode_eq_some_iff {base64 bytes : Buffer} {capacity : Nat} :
    gglBase64Decode base64 capacity = some bytes ↔
      base64 = gglBase64Encode bytes ∧ base64.length / 4 * 3 ≤ capacity := by
  rw [gglBase64Decode]
  constructor
  · intro decoded
    split at decoded
    · cases decoded
    · split at decoded
      · cases decoded
      next room => exact ⟨base64DecodeLoop_eq_some_iff.mp decoded, Nat.le_of_not_lt room⟩
  · rintro ⟨rfl, room⟩
    have whole := gglBase64Encode_length bytes
    rw [if_neg (by omega), if_neg (Nat.not_lt.mpr room), base64DecodeLoop_eq_some_iff]

/-! ## Canonical texts -/

/-- Four digits, or in the last segment a padding whose unused bits are zero. -/
def CanonicalSegment (isLast : Prop) (first second third fourth : UInt8) : Prop :=
  ∃ a b, base64CharToByte first = some a ∧ base64CharToByte second = some b ∧
    ((∃ c d, base64CharToByte third = some c ∧ base64CharToByte fourth = some d) ∨
      isLast ∧ fourth = base64Padding ∧
        ((∃ c, base64CharToByte third = some c ∧ c.toNat % 4 = 0) ∨
          third = base64Padding ∧ b.toNat % 16 = 0))

/-- Whole segments, of which only the last may be padded. -/
def Base64Canonical : Buffer → Prop
  | [] => True
  | first :: second :: third :: fourth :: rest =>
    CanonicalSegment (rest = []) first second third fourth ∧ Base64Canonical rest
  | _ => False

theorem base64DecodeSegment_iff {isLast : Prop} {first second third fourth : UInt8} :
    (∃ bytes, base64DecodeSegment first second third fourth = some bytes ∧
        (bytes.length = 3 ∨ isLast)) ↔
      CanonicalSegment isLast first second third fourth := by
  have middle : ∀ b : UInt8, b <<< 4 = 0 ↔ b.toNat % 16 = 0 := by
    intro b
    rw [← UInt8.toNat_inj, (base64_shifts b).1, UInt8.toNat_zero]
    omega
  have low : ∀ c : UInt8, c <<< 6 = 0 ↔ c.toNat % 4 = 0 := by
    intro c
    rw [← UInt8.toNat_inj, (base64_shifts c).2, UInt8.toNat_zero]
    omega
  have noDigit : base64CharToByte base64Padding = none := rfl
  unfold base64DecodeSegment CanonicalSegment
  cases base64CharToByte first with
  | none => simp
  | some a =>
    cases base64CharToByte second with
    | none => simp
    | some b =>
      by_cases padded : third = base64Padding
      · subst padded
        by_cases both : fourth = base64Padding
        · by_cases unused : b.toNat % 16 = 0 <;> simp [noDigit, both, middle, unused]
        · simp [noDigit, both]
      · cases base64CharToByte third with
        | none => simp [padded]
        | some c =>
          by_cases one : fourth = base64Padding
          · subst one
            by_cases unused : c.toNat % 4 = 0 <;> simp [noDigit, padded, low, unused]
          · cases base64CharToByte fourth <;> simp [padded, one]

theorem base64DecodeLoop_isSome_iff {last : Bool} {text : Buffer} :
    (∃ bytes, base64DecodeLoop last text = some bytes) ↔
      Base64Canonical text ∧ (last = true → text = []) := by
  induction text using Base64Canonical.induct generalizing last with
  | case1 => exact iff_of_true ⟨[], rfl⟩ ⟨trivial, fun _ => rfl⟩
  | case2 first second third fourth rest ih =>
    rw [Base64Canonical, ← base64DecodeSegment_iff]
    constructor
    · rintro ⟨bytes, decoded⟩
      rw [base64DecodeLoop] at decoded
      split at decoded
      · cases decoded
      next continuing =>
        split at decoded
        · cases decoded
        next segment read =>
          rcases Option.map_eq_some_iff.mp decoded with ⟨others, decodedRest, -⟩
          obtain ⟨canonical, ends⟩ := ih.mp ⟨others, decodedRest⟩
          refine ⟨⟨⟨segment, read, ?_⟩, canonical⟩, fun stop => absurd stop continuing⟩
          exact (Decidable.em _).imp_right fun short => ends (decide_eq_true short)
    · rintro ⟨⟨⟨segment, read, ends⟩, canonical⟩, first_⟩
      have continuing : last ≠ true := fun stop => by cases first_ stop
      obtain ⟨others, decodedRest⟩ := ih.mpr ⟨canonical, fun short =>
        ends.resolve_left (of_decide_eq_true short)⟩
      refine ⟨segment ++ others, ?_⟩
      rw [base64DecodeLoop, if_neg continuing, read]
      exact congrArg (Option.map (segment ++ ·)) decodedRest
  | case3 text notEmpty notSegment =>
    rw [Base64Canonical, base64DecodeLoop] <;> simp_all

/-- The text of some bytes is decoded to them, a text is decoded exactly when it is canonical,
and then it is the text of what it is decoded to. -/
theorem gglBase64Decode_canonical {text : Buffer} {capacity : Nat}
    (room : text.length / 4 * 3 ≤ capacity) :
    (∀ bytes, text = gglBase64Encode bytes → gglBase64Decode text capacity = some bytes) ∧
      ((∃ bytes, gglBase64Decode text capacity = some bytes) ↔ Base64Canonical text) ∧
      ∀ bytes, gglBase64Decode text capacity = some bytes → gglBase64Encode bytes = text := by
  simp only [gglBase64Decode_eq_some_iff, and_iff_left room]
  refine ⟨fun _ => id, ?_, fun _ => Eq.symm⟩
  simp only [← base64DecodeLoop_eq_some_iff, base64DecodeLoop_isSome_iff, Bool.false_eq_true,
    false_implies, and_true]

/-- The text `TWE=` of the two bytes of `Ma`. -/
theorem gglBase64Decode_canonical_padded :
    gglBase64Decode (gglStr "TWE=") 3 = some (gglStr "Ma") :=
  (gglBase64Decode_canonical (by decide)).1 _ (by decide)

/-! ## In place -/

/-- The loop of `ggl_base64_decode` over a text in the memory of its own target.  The next
segment is read at `index` and its bytes go to `out`; the end of what was written is
answered. -/
def base64InPlaceLoop : (segments : Nat) → (last : Bool) → (index out : Nat) → Buffer →
    Option Nat × Buffer
  | 0, _, _, out, memory => (some out, memory)
  | segments + 1, last, index, out, memory =>
    if last then
      (none, memory)
    else
      match region memory index 4 with
      | [first, second, third, fourth] =>
        match base64DecodeSegment first second third fourth with
        | none => (none, memory)
        | some bytes =>
          if memory.length - out < bytes.length then
            (none, memory)
          else
            base64InPlaceLoop segments (bytes.length ≠ 3) (index + 4) (out + bytes.length)
              (overwrite memory out bytes)
      | _ => (none, memory)

/-- `ggl_base64_decode_in_place`: whether it succeeds, and the buffer afterwards.  A failure
leaves the length as it was, and what was decoded before it in front of the text. -/
def gglBase64DecodeInPlace (target : Buffer) : Bool × Buffer :=
  if target.length % 4 ≠ 0 then
    (false, target)
  else if target.length < target.length / 4 * 3 then
    (false, target)
  else
    match base64InPlaceLoop (target.length / 4) false 0 0 target with
    | (none, memory) => (false, memory)
    | (some len, memory) => (true, memory.take len)

/-- The bytes of a segment stand behind those of the segments before, and the text that is
left keeps its place. -/
theorem overwrite_segment (written gap segment rest bytes : Buffer)
    (short : bytes.length ≤ segment.length) :
    ∃ gap', overwrite (written ++ gap ++ (segment ++ rest)) written.length bytes =
        written ++ bytes ++ gap' ++ rest ∧
      (written ++ bytes ++ gap').length = (written ++ gap).length + segment.length := by
  have long : bytes.length ≤ (gap ++ segment).length := by
    rw [length_append]
    omega
  refine ⟨(gap ++ segment).drop bytes.length, ?_, ?_⟩
  · have replaced := overwrite_append written ((gap ++ segment).take bytes.length)
      ((gap ++ segment).drop bytes.length ++ rest) bytes rfl (length_take_of_le long).symm
    rw [← append_assoc ((gap ++ segment).take bytes.length)] at replaced
    simpa using replaced
  · simp only [length_append, length_drop] at long ⊢
    omega

/-- The loop in place reads the text as it was, and leaves the bytes it stands for. -/
theorem base64InPlaceLoop_eq {segments : Nat} {last : Bool} {text : Buffer}
    (whole : text.length = 4 * segments) (written gap : Buffer) :
    ∃ memory, base64InPlaceLoop segments last (written ++ gap).length written.length
        (written ++ gap ++ text) =
          ((base64DecodeLoop last text).map fun bytes => written.length + bytes.length, memory) ∧
      ∀ bytes, base64DecodeLoop last text = some bytes →
        memory.take (written.length + bytes.length) = written ++ bytes := by
  induction segments generalizing last text written gap with
  | zero =>
    cases eq_nil_of_length_eq_zero whole
    refine ⟨_, rfl, ?_⟩
    rintro bytes ⟨⟩
    simp
  | succ segments ih =>
    obtain ⟨first, second, third, fourth, rest, rfl⟩ : ∃ first second third fourth rest,
        text = first :: second :: third :: fourth :: rest := by
      match text, whole with
      | first :: second :: third :: fourth :: rest, _ => exact ⟨_, _, _, _, _, rfl⟩
    rw [base64InPlaceLoop, base64DecodeLoop]
    cases last with
    | true => exact ⟨_, rfl, nofun⟩
    | false =>
      have here : region (written ++ gap ++ (first :: second :: third :: fourth :: rest))
          (written ++ gap).length 4 = [first, second, third, fourth] :=
        region_append (written ++ gap) [first, second, third, fourth] rest rfl rfl
      rw [here]
      dsimp only
      cases read : base64DecodeSegment first second third fourth with
      | none => exact ⟨_, rfl, nofun⟩
      | some segment =>
        have short : segment.length ≤ 3 := (encode_of_base64DecodeSegment read).2.2
        have room : ¬(written ++ gap ++ (first :: second :: third :: fourth :: rest)).length -
            written.length < segment.length := by
          simp only [length_append, length_cons]
          omega
        rcases overwrite_segment written gap [first, second, third, fourth] rest segment
          (Nat.le_succ_of_le short) with ⟨gap', replaced, moved⟩
        have shorter : rest.length = 4 * segments := by
          simp only [length_cons] at whole
          omega
        rcases @ih (segment.length ≠ 3) rest shorter (written ++ segment) gap' with
          ⟨memory, looped, left⟩
        rw [moved, ← replaced] at looped
        dsimp only
        rw [if_neg room, ← length_append]
        refine ⟨memory, looped.trans ?_, ?_⟩
        · cases base64DecodeLoop (segment.length ≠ 3) rest <;> simp [Nat.add_assoc]
        · intro bytes decoded
          rcases Option.map_eq_some_iff.mp decoded with ⟨others, decodedRest, rfl⟩
          have taken := left others decodedRest
          rwa [length_append, append_assoc, Nat.add_assoc, ← length_append] at taken

/-- In place, a text is decoded as into another buffer. -/
theorem gglBase64DecodeInPlace_eq (target : Buffer) :
    ∃ memory, gglBase64DecodeInPlace target =
      match gglBase64Decode target target.length with
      | none => (false, memory)
      | some bytes => (true, bytes) := by
  rw [gglBase64DecodeInPlace, gglBase64Decode]
  split_ifs with whole room
  · exact ⟨_, rfl⟩
  · exact ⟨_, rfl⟩
  · have segments : target.length = 4 * (target.length / 4) := by omega
    rcases @base64InPlaceLoop_eq _ false target segments [] [] with ⟨memory, looped, left⟩
    simp only [append_nil, nil_append, length_nil, Nat.zero_add] at looped left
    rw [looped]
    cases decoded : base64DecodeLoop false target with
    | none => exact ⟨_, rfl⟩
    | some bytes => exact ⟨[], congrArg (Prod.mk true) (left bytes decoded)⟩

/-- The text of some bytes is replaced by them. -/
@[simp]
theorem gglBase64DecodeInPlace_encode (bytes : Buffer) :
    gglBase64DecodeInPlace (gglBase64Encode bytes) = (true, bytes) := by
  obtain ⟨memory, inPlace⟩ := gglBase64DecodeInPlace_eq (gglBase64Encode bytes)
  have room : (gglBase64Encode bytes).length / 4 * 3 ≤ (gglBase64Encode bytes).length := by omega
  rwa [gglBase64Decode_eq_some_iff.mpr ⟨rfl, room⟩] at inPlace

/-- The decoding in place succeeds exactly when the one into a buffer of the same size does, and
leaves the same bytes then. -/
theorem gglBase64DecodeInPlace_agrees (target : Buffer) :
    (gglBase64DecodeInPlace target).1 = (gglBase64Decode target target.length).isSome ∧
      ∀ bytes, gglBase64Decode target target.length = some bytes →
        (gglBase64DecodeInPlace target).2 = bytes := by
  obtain ⟨memory, inPlace⟩ := gglBase64DecodeInPlace_eq target
  rw [inPlace]
  cases gglBase64Decode target target.length with
  | none => exact ⟨rfl, by simp⟩
  | some bytes => exact ⟨rfl, fun _ => Option.some.inj⟩

end GreengrassLite

import GreengrassLite.Json.Encode
import Mathlib.Data.Nat.Digits.Defs

/-!
# JSON texts

The text of an object, as a function of its own.  `ggl_json_encode` writes it into
every buffer that has a byte more than the text, and into one that it fills unless it
ends with a number of `snprintf`, whose last byte is lost.
-/

namespace GreengrassLite.Json

open List

variable {out : Buffer}

/-! ## The text of an object -/

/-- The text of one byte of a string. -/
def escapeByte (byte : UInt8) : Buffer :=
  if byte = 34 then [92, 34]
  else if byte = 92 then [92, 92]
  else if byte ≤ 0x1F then unicodeEscape byte
  else [byte]

theorem not_control {byte : UInt8} (printable : 0x20 ≤ byte) : ¬byte ≤ 0x1F := by
  change 32 ≤ byte.toNat at printable
  change ¬byte.toNat ≤ 31
  omega

theorem escapeByte_ne_nil (byte : UInt8) : escapeByte byte ≠ [] := by
  unfold escapeByte
  split_ifs <;> simp [unicodeEscape]

/-- The text of a string between its quotes. -/
def escapeText (bytes : Buffer) : Buffer :=
  bytes.flatMap escapeByte

/-- The text of a string. -/
def stringText (bytes : Buffer) : Buffer :=
  34 :: (escapeText bytes ++ [34])

mutual

/-- The text of an object. -/
def jsonText (printG : UInt64 → Buffer) : GglObject → Buffer
  | .null => gglStr "null"
  | .boolean value => if value then gglStr "true" else gglStr "false"
  | .i64 value => gglStr (toString value)
  | .f64 bits => printG bits
  | .buf bytes => stringText bytes
  | .list items => 91 :: (intercalate [44] (itemTexts printG items) ++ [93])
  | .map pairs => 123 :: (intercalate [44] (pairTexts printG pairs) ++ [125])

def itemTexts (printG : UInt64 → Buffer) : List GglObject → List Buffer
  | [] => []
  | item :: items => jsonText printG item :: itemTexts printG items

def pairTexts (printG : UInt64 → Buffer) : GglMap → List Buffer
  | [] => []
  | (key, value) :: pairs =>
    (stringText key ++ 58 :: jsonText printG value) :: pairTexts printG pairs

end

/-! ## The text of an integer -/

/-- The digits of a number. -/
def decimal (number : Nat) : Buffer :=
  gglStr (toString number)

/-- The digit of a number below ten. -/
def digitByte (digit : Nat) : UInt8 :=
  UInt8.ofNat (48 + digit)

variable {digit : Nat} {bytes : Buffer}

@[simp]
theorem digitChar_eq_digitByte (small : digit < 10) :
    UInt8.ofNat (Nat.digitChar digit).toNat = digitByte digit := by
  have all : ∀ digit : Fin 10,
      UInt8.ofNat (Nat.digitChar digit).toNat = digitByte digit := by decide
  exact all ⟨digit, small⟩

theorem decimal_eq_toDigits (number : Nat) :
    decimal number = (Nat.toDigits 10 number).map fun char => UInt8.ofNat char.toNat := by
  change ((Nat.repr number).toList.map _) = _
  rw [Nat.toList_repr]

@[simp]
theorem decimal_of_lt {number : Nat} (small : number < 10) :
    decimal number = [digitByte number] := by
  rw [decimal_eq_toDigits, Nat.toDigits_of_lt_base small, map_singleton,
    digitChar_eq_digitByte small]

theorem decimal_of_le {number : Nat} (large : 10 ≤ number) :
    decimal number = decimal (number / 10) ++ [digitByte (number % 10)] := by
  rw [decimal_eq_toDigits, Nat.toDigits_of_base_le (by decide) large, map_append,
    ← decimal_eq_toDigits, map_singleton,
    digitChar_eq_digitByte (Nat.mod_lt _ (by decide))]

@[simp]
theorem toNat_digitByte (small : digit < 10) : (digitByte digit).toNat = 48 + digit := by
  exact Nat.mod_eq_of_lt (by omega)

/-- A digit. -/
def IsDigit (byte : UInt8) : Prop :=
  48 ≤ byte ∧ byte ≤ 57

theorem isDigit_digitByte (small : digit < 10) : IsDigit (digitByte digit) := by
  constructor <;> rw [UInt8.le_iff_toNat_le, toNat_digitByte small]
  · exact Nat.le_add_right 48 digit
  · exact Nat.add_le_add_left (Nat.le_of_lt_succ small) 48

/-- A positive number begins with a digit that is not zero, and only digits follow. -/
theorem decimal_of_pos (number : Nat) (positive : 0 < number) :
    ∃ first digits, decimal number = first :: digits ∧ 49 ≤ first ∧ first ≤ 57 ∧
      ∀ digit ∈ digits, IsDigit digit := by
  induction number using Nat.strong_induction_on with
  | _ number ih =>
    by_cases small : number < 10
    · refine ⟨digitByte number, [], decimal_of_lt small, ?_, (isDigit_digitByte small).2,
        by simp⟩
      rw [UInt8.le_iff_toNat_le, toNat_digitByte small]
      exact Nat.add_le_add_left positive 48
    · have large : 10 ≤ number := Nat.le_of_not_lt small
      rcases ih (number / 10) (by omega) (by omega) with
        ⟨first, digits, shape, lower, upper, all⟩
      refine ⟨first, digits ++ [digitByte (number % 10)], ?_, lower, upper, ?_⟩
      · rw [decimal_of_le large, shape]
        rfl
      · intro digit mem
        rcases mem_append.mp mem with mem | mem
        · exact all digit mem
        · rw [mem_singleton.mp mem]
          exact isDigit_digitByte (Nat.mod_lt _ (by decide))

/-- The sign and the digits of an integer. -/
@[simp]
theorem intText_eq (value : Int) :
    gglStr (toString value) = (if value < 0 then [45] else []) ++ decimal value.natAbs := by
  cases value with
  | ofNat number => rfl
  | negSucc number =>
    change gglStr ("-" ++ toString (number + 1)) = _
    rw [if_pos (Int.negSucc_lt_zero number), gglStr, String.toList_append]
    rfl

theorem decimal_head (number : Nat) :
    ∃ first digits, decimal number = first :: digits ∧ IsDigit first := by
  rcases Nat.eq_zero_or_pos number with rfl | positive
  · exact ⟨_, _, decimal_of_lt (by decide), isDigit_digitByte (by decide)⟩
  · rcases decimal_of_pos number positive with ⟨first, digits, shape, lower, upper, -⟩
    refine ⟨first, digits, shape, UInt8.le_trans ?_ lower, upper⟩
    decide

/-- The last byte is a digit. -/
theorem intText_concat (value : Int) :
    ∃ front digit, gglStr (toString value) = front ++ [digitByte digit] ∧ digit < 10 := by
  rw [intText_eq]
  by_cases small : value.natAbs < 10
  · rw [decimal_of_lt small]
    exact ⟨_, _, rfl, small⟩
  · rw [decimal_of_le (Nat.le_of_not_lt small), ← append_assoc]
    exact ⟨_, _, rfl, Nat.mod_lt _ (by decide)⟩

@[simp]
theorem itemTexts_eq_map (printG : UInt64 → Buffer) (items : List GglObject) :
    itemTexts printG items = items.map (jsonText printG) := by
  induction items with
  | nil => rfl
  | cons item items ih => rw [itemTexts, ih, map_cons]

/-- The text of a pair. -/
def pairText (printG : UInt64 → Buffer) (pair : Buffer × GglObject) : Buffer :=
  stringText pair.1 ++ 58 :: jsonText printG pair.2

@[simp]
theorem pairTexts_eq_map (printG : UInt64 → Buffer) (pairs : GglMap) :
    pairTexts printG pairs = pairs.map (pairText printG) := by
  induction pairs with
  | nil => rfl
  | cons pair pairs ih => rw [pairTexts, ih, map_cons, pairText]

theorem intercalate_cons (separator text : Buffer) (texts : List Buffer) :
    intercalate separator (text :: texts) = text ++ texts.flatMap (separator ++ ·) := by
  induction texts generalizing text with
  | nil => simp
  | cons second texts ih =>
    rw [intercalate_cons_cons, ih, flatMap_cons, append_assoc,
      append_assoc]

theorem intercalate_concat (separator last : Buffer) (texts : List Buffer) :
    intercalate separator (texts ++ [last]) = texts.flatMap (· ++ separator) ++ last := by
  induction texts with
  | nil => simp
  | cons text texts ih =>
    have shape : ∃ second others, texts ++ [last] = second :: others := by
      cases texts with
      | nil => exact ⟨last, [], rfl⟩
      | cons second texts => exact ⟨second, texts ++ [last], rfl⟩
    rcases shape with ⟨second, others, shape⟩
    rw [cons_append, shape, intercalate_cons_cons, ← shape, ih, flatMap_cons,
      append_assoc _ _ last]

/-! ## Encoding -/

section Encoding

variable {capacity : Nat} {printG : UInt64 → Buffer} {write next : Buffer → Except GglError Buffer}
  {text more : Buffer}

/-- The writer appends a text.  Where the text fills the buffer its last byte may be another,
and a text that does not fit is refused. -/
structure Writes (capacity : Nat) (write : Buffer → Except GglError Buffer) (text : Buffer) :
    Prop where
  fits : ∀ {out}, (out ++ text).length < capacity → write out = .ok (out ++ text)
  full : ∀ {out}, (out ++ text).length = capacity →
    ∃ result, write out = .ok result ∧ result.length = capacity ∧
      result.dropLast = (out ++ text).dropLast
  refuses : ∀ {out}, out.length ≤ capacity → capacity < (out ++ text).length →
    write out = .error .nomem

@[simp]
theorem bufWrite_of_fits (fits : (out ++ text).length ≤ capacity) :
    bufWrite capacity text out = .ok (out ++ text) := by
  rw [length_append] at fits
  rw [bufWrite, if_neg (by omega)]

theorem writes_bufWrite (text : Buffer) : Writes capacity (bufWrite capacity text) text where
  fits room := bufWrite_of_fits (Nat.le_of_lt room)
  full filled := ⟨_, bufWrite_of_fits (Nat.le_of_eq filled), filled, rfl⟩
  refuses bounded beyond := by
    rw [length_append] at beyond
    exact if_pos (by omega)

theorem writes_snprintfWrite (text : Buffer) :
    Writes capacity (snprintfWrite capacity text) text where
  fits room := by
    rw [length_append] at room
    rw [snprintfWrite, if_neg (by omega), if_pos (.inl (by omega))]
  full {out} filled := by
    rw [length_append] at filled
    rw [snprintfWrite, if_neg (by omega)]
    by_cases empty : text = []
    · exact ⟨_, if_pos (.inr empty), by rw [length_append, filled], rfl⟩
    · have positive := length_pos_of_ne_nil empty
      refine ⟨_, if_neg (by simp [empty]; omega), ?_, ?_⟩
      · simp only [length_append, length_dropLast, length_singleton]
        omega
      · rw [dropLast_concat, dropLast_append_of_ne_nil empty]
  refuses bounded beyond := by
    rw [length_append] at beyond
    exact if_pos (by omega)

theorem writes_nothing : Writes capacity (fun out => .ok out) [] where
  fits _ := by rw [append_nil]
  full filled := ⟨_, rfl, by rwa [append_nil] at filled, by rw [append_nil]⟩
  refuses bounded beyond := by
    rw [append_nil] at beyond
    omega

/-- A writer after another writes one text behind the other. -/
theorem Writes.seq (first : Writes capacity write text) (second : Writes capacity next more) :
    Writes capacity (fun out => write out >>= next) (text ++ more) where
  fits room := by
    rw [← append_assoc] at room ⊢
    rw [first.fits (by rw [length_append] at room; omega)]
    exact second.fits room
  full {out} filled := by
    rw [← append_assoc] at filled ⊢
    rcases eq_or_ne more [] with rfl | nonempty
    · rw [append_nil] at filled ⊢
      obtain ⟨middle, wrote, length, same⟩ := first.full filled
      obtain ⟨result, ends, total, last⟩ := @second.full middle (by rwa [append_nil])
      rw [wrote]
      exact ⟨result, ends, total, by rw [last, append_nil, same]⟩
    · have room : (out ++ text).length < capacity := by
        have positive := length_pos_of_ne_nil nonempty
        rw [length_append] at filled
        omega
      rw [first.fits room]
      exact second.full filled
  refuses {out} bounded beyond := by
    rw [← append_assoc] at beyond
    rcases Nat.lt_trichotomy (out ++ text).length capacity with room | filled | beyond
    · rw [first.fits room]
      exact second.refuses (Nat.le_of_lt room) beyond
    · obtain ⟨middle, wrote, length, -⟩ := first.full filled
      rw [wrote]
      refine second.refuses (Nat.le_of_eq length) ?_
      rw [length_append] at beyond ⊢
      omega
    · rw [first.refuses bounded beyond]
      rfl

theorem writes_jsonWriteByte (byte : UInt8) :
    Writes capacity (jsonWriteByte capacity byte) (escapeByte byte) := by
  unfold jsonWriteByte escapeByte
  split_ifs
  · exact writes_bufWrite _
  · exact writes_bufWrite _
  · exact writes_snprintfWrite _
  · exact writes_bufWrite _

theorem writes_jsonWriteBytes (bytes : Buffer) :
    Writes capacity (jsonWriteBytes capacity bytes) (escapeText bytes) := by
  induction bytes with
  | nil => exact writes_nothing
  | cons byte bytes ih => exact (writes_jsonWriteByte byte).seq ih

/-- What a writer writes between two bytes. -/
theorem Writes.between (inner : Writes capacity write text) (opening closing : UInt8) :
    Writes capacity (fun out => do
      let out ← bufWrite capacity [opening] out
      let out ← write out
      bufWrite capacity [closing] out) (opening :: (text ++ [closing])) :=
  (writes_bufWrite [opening]).seq (inner.seq (writes_bufWrite [closing]))

theorem writes_jsonWriteBuf (bytes : Buffer) :
    Writes capacity (jsonWriteBuf capacity bytes) (stringText bytes) :=
  (writes_jsonWriteBytes bytes).between 34 34

/-- The comma before an item, as the loops write it. -/
def commaText (first : Bool) : Buffer :=
  if first then [] else [44]

theorem writes_jsonWriteComma (first : Bool) :
    Writes capacity (jsonWriteComma capacity first) (commaText first) := by
  cases first with
  | true => exact writes_nothing
  | false => exact writes_bufWrite [44]

/-- What the loops write: the texts with a comma before every one but the first. -/
def commaTexts : Bool → List Buffer → Buffer
  | _, [] => []
  | first, text :: texts => commaText first ++ (text ++ commaTexts false texts)

@[simp]
theorem commaTexts_false (texts : List Buffer) :
    commaTexts false texts = texts.flatMap ([44] ++ ·) := by
  induction texts with
  | nil => rfl
  | cons text texts ih =>
    rw [commaTexts, ih]
    rfl

@[simp]
theorem commaTexts_true (texts : List Buffer) :
    commaTexts true texts = intercalate [44] texts := by
  cases texts with
  | nil => rfl
  | cons text texts =>
    rw [commaTexts, commaTexts_false, intercalate_cons]
    rfl

mutual

theorem writes_jsonWrite : ∀ object : GglObject,
    Writes capacity (jsonWrite capacity printG object) (jsonText printG object)
  | .null | .boolean _ => writes_bufWrite _
  | .i64 _ | .f64 _ => writes_snprintfWrite _
  | .buf bytes => writes_jsonWriteBuf bytes
  | .list items => by
    have written := (writes_jsonWriteItems items true).between 91 93
    rwa [commaTexts_true] at written
  | .map pairs => by
    have written := (writes_jsonWritePairs pairs true).between 123 125
    rwa [commaTexts_true] at written

theorem writes_jsonWriteItems : ∀ (items : List GglObject) (first : Bool),
    Writes capacity (jsonWriteItems capacity printG first items)
      (commaTexts first (itemTexts printG items))
  | [], _ => writes_nothing
  | item :: items, first =>
    (writes_jsonWriteComma first).seq
      ((writes_jsonWrite item).seq (writes_jsonWriteItems items false))

theorem writes_jsonWritePairs : ∀ (pairs : GglMap) (first : Bool),
    Writes capacity (jsonWritePairs capacity printG first pairs)
      (commaTexts first (pairTexts printG pairs))
  | [], _ => writes_nothing
  | (key, value) :: pairs, first => by
    have written := (writes_jsonWriteComma first).seq ((writes_jsonWriteBuf key).seq
      ((writes_bufWrite [58]).seq
        ((writes_jsonWrite value).seq (writes_jsonWritePairs pairs false))))
    rw [pairTexts, commaTexts, append_assoc]
    exact written

end

variable {object : GglObject} {result : Buffer}

/-- A buffer with a byte more than the text takes it. -/
@[simp]
theorem gglJsonEncode_of_fits (fits : (jsonText printG object).length < capacity) :
    gglJsonEncode capacity printG object = .ok (jsonText printG object) :=
  @Writes.fits _ _ _ (writes_jsonWrite object) [] fits

/-- What is written is as long as the text, and agrees with it up to the last byte. -/
theorem gglJsonEncode_eq_ok (encoded : gglJsonEncode capacity printG object = .ok result) :
    (jsonText printG object).length ≤ capacity ∧
      result.length = (jsonText printG object).length ∧
      result.dropLast = (jsonText printG object).dropLast := by
  have written := @writes_jsonWrite capacity printG object
  rcases Nat.lt_trichotomy (jsonText printG object).length capacity with room | filled | beyond
  · cases encoded.symm.trans (gglJsonEncode_of_fits room)
    exact ⟨Nat.le_of_lt room, rfl, rfl⟩
  · obtain ⟨other, wrote, length, same⟩ := @written.full [] filled
    cases encoded.symm.trans wrote
    exact ⟨Nat.le_of_eq filled, length.trans filled.symm, same⟩
  · cases encoded.symm.trans (@written.refuses [] (Nat.zero_le _) beyond)

theorem Writes.whole (inner : Writes capacity write text) {opening closing : UInt8}
    (fits : (opening :: (text ++ [closing])).length ≤ capacity) :
    (do
      let out ← bufWrite capacity [opening] []
      let out ← write out
      bufWrite capacity [closing] out) = .ok (opening :: (text ++ [closing])) := by
  have room : ([opening] ++ text).length < capacity := by
    rw [length_cons, length_append] at fits
    exact Nat.lt_of_lt_of_le (Nat.lt_succ_self _) fits
  have front : ([] ++ [opening]).length ≤ capacity := by
    rw [length_append] at room
    exact Nat.le_of_lt (Nat.lt_of_le_of_lt (Nat.le_add_right _ _) room)
  rw [bufWrite_of_fits front]
  change write [opening] >>= _ = _
  rw [inner.fits room]
  exact bufWrite_of_fits fits

/-- Only a number can lose its last byte. -/
theorem gglJsonEncode_of_le (noInteger : ∀ value, object ≠ .i64 value)
    (noDouble : ∀ bits, object ≠ .f64 bits)
    (fits : (jsonText printG object).length ≤ capacity) :
    gglJsonEncode capacity printG object = .ok (jsonText printG object) := by
  cases object with
  | null | boolean => exact @bufWrite_of_fits [] _ _ fits
  | i64 value => exact absurd rfl (noInteger value)
  | f64 bits => exact absurd rfl (noDouble bits)
  | buf bytes => exact (writes_jsonWriteBytes bytes).whole fits
  | list items =>
    have inner := @writes_jsonWriteItems capacity printG items true
    rw [commaTexts_true] at inner
    exact inner.whole fits
  | map pairs =>
    have inner := @writes_jsonWritePairs capacity printG pairs true
    rw [commaTexts_true] at inner
    exact inner.whole fits

/-- Strings without a backslash in their text are that text. -/
@[simp]
theorem escapeText_of_plain (plain : 92 ∉ escapeText bytes) : escapeText bytes = bytes := by
  induction bytes with
  | nil => rfl
  | cons byte bytes ih =>
    rw [escapeText, flatMap_cons, mem_append, not_or] at plain
    have here : escapeByte byte = [byte] := by
      have first := plain.1
      unfold escapeByte at first ⊢
      split_ifs at first ⊢ <;> simp_all [unicodeEscape, gglStr]
    rw [escapeText, flatMap_cons, here]
    exact congrArg (byte :: ·) (ih plain.2)

theorem eq_of_gglJsonEncode_buf
    (encoded : gglJsonEncode capacity printG (.buf bytes) = .ok (34 :: (text ++ [34])))
    (plain : 92 ∉ text) : bytes = text := by
  have fits := (gglJsonEncode_eq_ok encoded).1
  have whole := encoded.symm.trans (gglJsonEncode_of_le (by simp) (by simp) fits)
  have same : text = escapeText bytes :=
    append_cancel_right (tail_eq_of_cons_eq (Except.ok.inj whole))
  rw [same] at plain ⊢
  exact (escapeText_of_plain plain).symm

/-- The object is encoded whenever its text fits, and then as its text. -/
def EncodesExactly (printG : UInt64 → Buffer) (object : GglObject) (capacity : Nat) : Prop :=
  ((∃ result, gglJsonEncode capacity printG object = .ok result) ↔
      (jsonText printG object).length ≤ capacity) ∧
    ∀ result, gglJsonEncode capacity printG object = .ok result → result = jsonText printG object

/-- An object that is no double is encoded exactly, except for an integer on its own that fills
the buffer. -/
theorem encodesExactly_iff (noDouble : ∀ bits, object ≠ .f64 bits) :
    EncodesExactly printG object capacity ↔
      ¬((∃ value, object = .i64 value) ∧ capacity = (jsonText printG object).length) := by
  constructor
  · rintro ⟨-, whole⟩ ⟨⟨value, rfl⟩, rfl⟩
    obtain ⟨front, digit, shape, small⟩ := intText_concat value
    have spoilt : gglJsonEncode (jsonText printG (.i64 value)).length printG (.i64 value) =
        .ok (front ++ [0]) := by
      rw [jsonText, gglJsonEncode, jsonWrite, snprintfWrite, shape]
      simp
    have last := whole _ spoilt
    rw [jsonText, shape, append_cancel_left_eq, singleton_inj] at last
    have byte := toNat_digitByte small
    rw [← last] at byte
    change 0 = 48 + digit at byte
    omega
  · intro noLoss
    have taken : (jsonText printG object).length ≤ capacity →
        gglJsonEncode capacity printG object = .ok (jsonText printG object) := by
      intro fits
      by_cases integer : ∃ value, object = .i64 value
      · refine gglJsonEncode_of_fits (Nat.lt_of_le_of_ne fits fun filled => ?_)
        exact noLoss ⟨integer, filled.symm⟩
      · exact gglJsonEncode_of_le (not_exists.mp integer) noDouble fits
    refine ⟨⟨?_, fun fits => ⟨_, taken fits⟩⟩, ?_⟩
    · rintro ⟨result, encoded⟩
      exact (gglJsonEncode_eq_ok encoded).1
    · intro result encoded
      exact Except.ok.inj (encoded.symm.trans (taken (gglJsonEncode_eq_ok encoded).1))

theorem encodesExactly_iff_list : EncodesExactly (fun _ => []) (.list [.i64 7]) 3 := by
  refine (encodesExactly_iff ?_).mpr ?_
  · rintro bits ⟨⟩
  · rintro ⟨⟨value, ⟨⟩⟩, -⟩

/-- The number seven in a buffer of one byte. -/
theorem lone_digit_lost :
    gglJsonEncode 1 (fun _ => []) (.i64 7) = .ok [0] ∧
      ¬EncodesExactly (fun _ => []) (.i64 7) 1 := by
  have encoded : gglJsonEncode 1 (fun _ => []) (.i64 7) = .ok [0] := rfl
  refine ⟨encoded, fun exactly => ?_⟩
  cases exactly.2 _ encoded

end Encoding

end GreengrassLite.Json

import GreengrassLite.Json.Decode
import GreengrassLite.Json.Text

/-!
# Recognition of encoded texts

The parser of the decoder takes the text of an object up to what stands behind it,
and notes the type, the content and the number of items.  Behind a value stands a
separator, a closing bracket or nothing.

The strings are plain ones, of bytes from `0x20` to `0x7F`: all other bytes are
written as escapes that the decoder misreads, or rejected by its check of UTF-8.
-/

namespace GreengrassLite.Json

open GreengrassLite.Library List

/-! ## Plain objects -/

/-- Bytes from the space to the delete character. -/
def PlainText (bytes : Buffer) : Prop :=
  ∀ byte ∈ bytes, 0x20 ≤ byte ∧ byte ≤ 0x7F

mutual

/-- Objects of null, booleans, integers, lists, maps and plain strings. -/
def Plain : GglObject → Prop
  | .null => True
  | .boolean _ => True
  | .i64 value => int64Min ≤ value ∧ value ≤ int64Max
  | .f64 _ => False
  | .buf bytes => PlainText bytes
  | .list items => PlainItems items
  | .map pairs => PlainPairs pairs

def PlainItems : List GglObject → Prop
  | [] => True
  | item :: items => Plain item ∧ PlainItems items

def PlainPairs : GglMap → Prop
  | [] => True
  | (key, value) :: pairs => PlainText key ∧ Plain value ∧ PlainPairs pairs

end

@[simp]
theorem plainItems_iff {items : List GglObject} :
    PlainItems items ↔ ∀ item ∈ items, Plain item := by
  induction items with
  | nil => simp [PlainItems]
  | cons item items ih => rw [PlainItems, ih, forall_mem_cons]

@[simp]
theorem plainPairs_iff {pairs : GglMap} :
    PlainPairs pairs ↔ ∀ pair ∈ pairs, PlainText pair.1 ∧ Plain pair.2 := by
  induction pairs with
  | nil => simp [PlainPairs]
  | cons pair pairs ih => rw [PlainPairs, ih, forall_mem_cons, and_assoc]

/-- What may stand behind a value: a comma, a colon, a closing bracket or nothing. -/
def Ends : Buffer → Prop
  | [] => True
  | c :: _ => c = 44 ∨ c = 58 ∨ c = 93 ∨ c = 125

/-- The text does not begin with white space. -/
def SpaceFree : Buffer → Prop
  | [] => True
  | c :: _ => c ≠ 32 ∧ c ≠ 10 ∧ c ≠ 13 ∧ c ≠ 9

theorem Ends.spaceFree {rest : Buffer} (ends : Ends rest) : SpaceFree rest := by
  cases rest with
  | nil => trivial
  | cons c rest => rcases ends with rfl | rfl | rfl | rfl <;> simp [SpaceFree]

section Combinators

variable {parser : JsonParser} {text rest : Buffer}
  {note : Nat → Option ParseResult → Option ParseResult}

/-- A result with a type and a content, as `COMB_RESULT_VAL` notes them. -/
def noted (type : JsonType) (content : Span) : Option ParseResult → Option ParseResult :=
  Option.map fun result => ⟨type, content, result.count⟩

/-- `count` more items. -/
def counted (count : Nat) : Option ParseResult → Option ParseResult :=
  Option.map fun result => { result with count := result.count + count }

theorem takes_combResultVal (type : JsonType) (takes : Takes parser text rest note) :
    Takes (combResultVal type parser) text rest
      fun data output => noted type ⟨data, text.length⟩ (note data output) := by
  intro data output
  rw [combResultVal, takes]
  dsimp only
  cases note data output with
  | none => rfl
  | some result => simp [noted]

theorem takes_combIncrementCount (takes : Takes parser text rest note) :
    Takes (combIncrementCount parser) text rest
      fun data output => counted 1 (note data output) := by
  intro data output
  rw [combIncrementCount, takes]
  dsimp only
  cases note data output <;> rfl

theorem rejects_combIncrementCount (rejects : Rejects parser rest) :
    Rejects (combIncrementCount parser) rest := by
  intro data output
  rw [combIncrementCount, rejects]

theorem takes_combNested (takes : Takes parser text rest note) :
    Takes (combNested parser) text rest keep := by
  intro data output
  rw [combNested, takes]

@[simp]
theorem counted_iterate (count : Nat) (output : Option ParseResult) :
    (counted 1)^[count] output = counted count output := by
  induction count generalizing output with
  | zero => cases output <;> rfl
  | succ count ih =>
    rw [Function.iterate_succ_apply, ih]
    cases output with
    | none => rfl
    | some result => simp [counted, Nat.add_assoc, Nat.add_comm 1]

theorem takes_char (c : UInt8) : Takes (parserChar c) [c] rest keep :=
  takes_tokenIf (decide_eq_true rfl)

theorem rejects_char {c d : UInt8} (differs : d ≠ c) : Rejects (parserChar c) (d :: rest) :=
  rejects_tokenIf (decide_eq_false differs)

/-- White space is skipped, and there is none. -/
theorem takes_whitespace (free : SpaceFree rest) : Takes parserJsonWhitespace [] rest keep := by
  apply Rejects.zeroOrMore
  cases rest with
  | nil => exact fun _ _ => rfl
  | cons c rest =>
    rcases free with ⟨blank, feed, return_, tab⟩
    apply rejects_oneOf
    simp [rejects_char, blank, feed, return_, tab]

end Combinators

/-! ## Strings -/

variable {byte : UInt8}

/-- A byte below `0x80` is a UTF-8 sequence of its own. -/
theorem utf8Len_of_ascii (ascii : byte ≤ 0x7F) :
    byte &&& 0b11000000 ≠ 0b10000000 ∧ utf8Len byte = some 1 := by
  have small : byte.toNat < 128 := Nat.lt_succ_of_le (UInt8.le_iff_toNat_le.mp ascii)
  have all : ∀ number : Fin 128, UInt8.ofNat number &&& 0b11000000 ≠ 0b10000000 ∧
      utf8Len (UInt8.ofNat number) = some 1 := by decide
  have here := all ⟨byte.toNat, small⟩
  rwa [UInt8.ofNat_toNat] at here

theorem takes_codepoint {rest : Buffer} (printable : 0x20 ≤ byte) (ascii : byte ≤ 0x7F)
    (quote : byte ≠ 34) (backslash : byte ≠ 92) :
    Takes parserJsonStrCodepoint [byte] rest keep := by
  intro data output
  have control := not_control printable
  rcases utf8Len_of_ascii ascii with ⟨start, single⟩
  simp [parserJsonStrCodepoint, control, quote, backslash, start, single, Input.skip]

/-- The text of a plain byte is taken by the parser of a string. -/
theorem takes_escapeByte {rest : Buffer} (plain : 0x20 ≤ byte ∧ byte ≤ 0x7F) :
    Takes (oneOf [parserJsonStrCodepoint, parserJsonStrEscape]) (escapeByte byte) rest keep := by
  have control := not_control plain.1
  unfold escapeByte
  split_ifs with quote backslash
  · exact fun _ _ => rfl
  · exact fun _ _ => rfl
  · exact (takes_codepoint plain.1 plain.2 quote backslash).oneOf

/-- The text of a plain string is taken between its quotes. -/
theorem takes_stringText {bytes rest : Buffer} (plain : PlainText bytes) :
    Takes parserJsonStr (stringText bytes) rest
      fun data => noted .str ⟨data + 1, (escapeText bytes).length⟩ := by
  have inner := @takes_zeroOrMore _ _ _ (oneOf [parserJsonStrCodepoint, parserJsonStrEscape])
    escapeByte id ([34] ++ rest) (fun _ => True) bytes
    (fun byte mem _ _ => takes_escapeByte (plain byte mem)) (fun _ _ _ => trivial) trivial
    (fun byte _ => escapeByte_ne_nil byte) (fun _ _ => rfl)
  rw [Function.iterate_id] at inner
  exact (takes_char 34).sequence
    ((takes_combResultVal .str inner).sequence (takes_char 34).alone)

/-! ## Numbers -/

theorem rejects_digit {rest : Buffer} (ends : Ends rest) : Rejects parserDigit rest := by
  cases rest with
  | nil => exact fun _ _ => rfl
  | cons c rest => rcases ends with rfl | rfl | rfl | rfl <;> exact fun _ _ => rfl

theorem takes_digits {digits rest : Buffer} (all : ∀ digit ∈ digits, IsDigit digit)
    (ends : Ends rest) : Takes (zeroOrMore parserDigit) digits rest keep := by
  have taken := @takes_zeroOrMore _ _ _ parserDigit (fun digit => [digit]) id rest
    (fun _ => True) digits
    (fun digit mem _ _ => takes_tokenIf (decide_eq_true (all digit mem)))
    (fun _ _ _ => trivial) trivial (fun _ _ => cons_ne_nil _ _) (rejects_digit ends)
  rwa [Function.iterate_id, flatMap_singleton'] at taken

section

variable {rest : Buffer} (ends : Ends rest)

include ends

/-- The digits of a number are taken, up to what stands behind. -/
theorem takes_decimal (number : Nat) :
    Takes (oneOf [parserChar 48, sequence [parserCharRange 49 57, zeroOrMore parserDigit]])
      (decimal number) rest keep := by
  rcases Nat.eq_zero_or_pos number with rfl | positive
  · exact (takes_char 48).oneOf
  · rcases decimal_of_pos number positive with ⟨first, digits, shape, lower, upper, all⟩
    have nonzero : first ≠ 48 := by
      rintro rfl
      exact absurd lower (by decide)
    have leading : Takes (parserCharRange 49 57) [first] (digits ++ rest) keep :=
      takes_tokenIf (decide_eq_true ⟨lower, upper⟩)
    rw [shape]
    exact (rejects_char nonzero).oneOf (leading.sequence (takes_digits all ends).alone).oneOf

theorem takes_intPart (value : Int) : Takes parserIntPart (gglStr (toString value)) rest keep := by
  have digits := (takes_decimal ends value.natAbs).alone
  rw [intText_eq]
  split_ifs with negative
  · exact (takes_char 45).maybe.sequence digits
  · rcases decimal_head value.natAbs with ⟨first, others, shape, digit⟩
    have unsigned : first ≠ 45 := by
      rintro rfl
      exact absurd digit.1 (by decide)
    have absent : Takes (maybe (parserChar 45)) [] (decimal value.natAbs ++ rest) keep := by
      rw [shape]
      exact (rejects_char unsigned).maybe
    exact absent.sequence digits

theorem rejects_fracPart : Rejects parserFracPart rest := by
  cases rest with
  | nil => exact fun _ _ => rfl
  | cons c rest => rcases ends with rfl | rfl | rfl | rfl <;> exact fun _ _ => rfl

theorem rejects_exponent : Rejects parserExponent rest := by
  cases rest with
  | nil => exact fun _ _ => rfl
  | cons c rest => rcases ends with rfl | rfl | rfl | rfl <;> exact fun _ _ => rfl

theorem takes_number (value : Int) :
    Takes parserJsonNumber (gglStr (toString value)) rest
      fun data => noted .number ⟨data, (gglStr (toString value)).length⟩ := by
  apply takes_combResultVal .number
  have rest_ := (rejects_fracPart ends).maybe.sequence (rejects_exponent ends).maybe.alone
  have taken := (takes_intPart ends value).sequence rest_
  rwa [append_nil, append_nil] at taken

end

/-! ## Containers -/

section Containers

/-- The entries of a container: all but the last stand before a comma. -/
def parserEntries (elem : JsonParser) (comma : List JsonParser) : JsonParser :=
  sequence [
    zeroOrMore (combIncrementCount (sequence (elem :: comma))),
    combIncrementCount elem]

variable {elem : JsonParser} {comma : List JsonParser} {texts : List Buffer} {closing : UInt8}
  {tail : Buffer} (closes : Ends (closing :: tail))
  (accepts : ∀ text ∈ texts, ∀ rest, Ends rest → Takes elem text rest keep)
  (starts : ∀ text ∈ texts, ∀ rest, SpaceFree (text ++ rest))
  (separates : ∀ rest, SpaceFree rest → Takes (sequence comma) [44] rest keep)
  (stops : Rejects (sequence comma) (closing :: tail))

include closes accepts starts separates stops in
/-- The entries of a container are taken and counted. -/
theorem takes_intercalate (nonempty : texts ≠ []) :
    Takes (parserEntries elem comma) (intercalate [44] texts) (closing :: tail)
      fun _ => counted texts.length := by
  rcases eq_nil_or_concat texts with rfl | ⟨others, last, rfl⟩
  · exact absurd rfl nonempty
  rw [concat_eq_append] at accepts starts ⊢
  have lastTaken : Takes elem last (closing :: tail) keep := accepts last (by simp) _ closes
  have othersTaken := @takes_zeroOrMore _ _ _ (combIncrementCount (sequence (elem :: comma)))
    (· ++ [44]) (counted 1) (last ++ closing :: tail) SpaceFree others
    (fun text mem rest follows => by
      have behind : Ends ([44] ++ rest) := Or.inl rfl
      exact takes_combIncrementCount
        ((accepts text (by simp [mem]) _ behind).sequence (separates rest follows)))
    (fun text mem rest => by
      rw [append_assoc]
      exact starts text (by simp [mem]) _)
    (starts last (by simp) _) (fun text _ => by simp)
    (rejects_combIncrementCount (lastTaken.sequence_rejects stops))
  have taken := othersTaken.sequence (takes_combIncrementCount lastTaken).alone
  intro data output
  have total : counted 1 ((counted 1)^[others.length] output) =
      counted (others ++ [last]).length output := by
    rw [← Function.iterate_succ_apply' (counted 1), counted_iterate]
    simp
  dsimp only
  rw [← total, intercalate_concat]
  exact taken data output

include closes accepts starts separates stops in
/-- What stands between the brackets of a container is taken and noted.  If there are no
entries, the parser of an entry has to reject the closing bracket. -/
theorem takes_entries (type : JsonType) (rejects : Rejects elem (closing :: tail)) :
    Takes (combResultVal type (maybe (parserEntries elem comma)))
      (intercalate [44] texts) (closing :: tail)
      fun data output => noted type ⟨data, (intercalate [44] texts).length⟩
        (counted texts.length output) := by
  apply takes_combResultVal type
  by_cases empty : texts = []
  · subst empty
    have before := rejects_combIncrementCount (@Rejects.sequence _ _ _ comma _ rejects)
    have rejected : Rejects (parserEntries elem comma) (closing :: tail) :=
      before.zeroOrMore.sequence_rejects (rejects_combIncrementCount rejects).sequence
    intro data output
    have same : counted 0 output = output := by cases output <;> rfl
    exact (rejected.maybe data output).trans (congrArg _ same.symm)
  · exact (takes_intercalate closes accepts starts separates stops empty).maybe

include closes accepts starts separates stops in
/-- The text of a container is taken, given that those of its entries are. -/
theorem takes_container (opening : UInt8) (type : JsonType)
    (rejects : Rejects elem (closing :: tail)) :
    Takes (sequence [parserChar opening, parserJsonWhitespace,
        combResultVal type (maybe (parserEntries elem comma)), parserChar closing])
      (opening :: (intercalate [44] texts ++ [closing])) tail
      fun data output => noted type ⟨data + 1, (intercalate [44] texts).length⟩
        (counted texts.length output) := by
  have begins : SpaceFree (intercalate [44] texts ++ [closing] ++ tail) := by
    cases texts with
    | nil => exact closes.spaceFree
    | cons text texts =>
      rw [intercalate_cons, append_assoc, append_assoc]
      exact starts text mem_cons_self _
  have entries := takes_entries closes accepts starts separates stops type rejects
  exact (takes_char opening).sequence ((takes_whitespace begins).sequence
    (entries.sequence (takes_char closing).alone))

end Containers

/-! ## Values -/

/-- The result that is noted for a value at a position. -/
def recognised (printG : UInt64 → Buffer) (data : Nat) (output : Option ParseResult) :
    GglObject → Option ParseResult
  | .null => noted .null ⟨data, 4⟩ output
  | .boolean true => noted .true ⟨data, 4⟩ output
  | .boolean false => noted .false ⟨data, 5⟩ output
  | .i64 value => noted .number ⟨data, (gglStr (toString value)).length⟩ output
  | .f64 bits => noted .number ⟨data, (printG bits).length⟩ output
  | .buf bytes => noted .str ⟨data + 1, (escapeText bytes).length⟩ output
  | .list items =>
    noted .array ⟨data + 1, (intercalate [44] (itemTexts printG items)).length⟩
      (counted items.length output)
  | .map pairs =>
    noted .object ⟨data + 1, (intercalate [44] (pairTexts printG pairs)).length⟩
      (counted pairs.length output)

section Values

variable {printG : UInt64 → Buffer} {value : JsonParser}
  {levels : Nat} {object : GglObject}

theorem takes_value {text rest : Buffer} {note : Nat → Option ParseResult → Option ParseResult}
    (begins : SpaceFree (text ++ rest)) (ends : Ends rest)
    (takes : Takes (parserJsonAlternatives (parserJsonValue levels)) text rest note) :
    Takes (parserJsonValue (levels + 1)) text rest note := by
  have taken := takes.sequence (takes_whitespace ends.spaceFree).alone
  rw [append_nil] at taken
  exact (takes_whitespace begins).sequence taken

/-- The parsers of the three words. -/
def parserWords : List JsonParser :=
  [combResultVal .true (parserStr "true"),
    combResultVal .false (parserStr "false"),
    combResultVal .null (parserStr "null")]

theorem rejects_word {c first : UInt8} {word rest : Buffer} {str : String} (type : JsonType)
    (spelling : gglStr str = first :: word) (differs : c ≠ first) :
    Rejects (combResultVal type (parserStr str)) (c :: rest) := by
  intro data output
  rw [combResultVal, parserStr, spelling, rejects_tokens differs]

/-- Only a word can begin with one of its letters. -/
theorem takes_words {c : UInt8} {word rest : Buffer}
    {note : Nat → Option ParseResult → Option ParseResult}
    (letter : c = 116 ∨ c = 102 ∨ c = 110)
    (takes : Takes (oneOf parserWords) (c :: word) rest note) :
    Takes (parserJsonAlternatives value) (c :: word) rest note := by
  intro data output
  rcases letter with rfl | rfl | rfl <;> exact takes data output

/-- A closing bracket is no value. -/
theorem rejects_closing (levels : Nat) (tail : Buffer) :
    Rejects (parserJsonValue levels) (93 :: tail) := by
  cases levels with
  | zero => exact fun _ _ => rfl
  | succ levels =>
    have begins : SpaceFree (93 :: tail) := by simp [SpaceFree]
    have words : Rejects (oneOf parserWords) (93 :: tail) := by
      apply rejects_oneOf
      simp only [parserWords, forall_mem_cons, not_mem_nil, false_implies,
        implies_true, and_true]
      exact ⟨rejects_word _ rfl (by decide), rejects_word _ rfl (by decide),
        rejects_word _ rfl (by decide)⟩
    have rejected : Rejects (parserJsonAlternatives (parserJsonValue levels)) (93 :: tail) := words
    exact (takes_whitespace begins).sequence_rejects rejected.sequence

/-- The text of a pair is taken, given that the value is. -/
theorem takes_pair {key text rest : Buffer}
    {note : Nat → Option ParseResult → Option ParseResult} (plain : PlainText key)
    (takes : Takes value text rest note) :
    Takes (parserJsonObjectKv value) (stringText key ++ 58 :: text) rest keep := by
  have free : SpaceFree (58 :: (text ++ rest)) := by simp [SpaceFree]
  apply takes_combNested
  exact (takes_stringText plain).sequence ((takes_whitespace free).sequence
    ((takes_char 58).sequence takes.alone))

theorem length_le_intercalate {text : Buffer} {texts : List Buffer} (member : text ∈ texts) :
    text.length ≤ (intercalate [44] texts).length := by
  cases texts with
  | nil => cases member
  | cons first texts =>
    rw [intercalate_cons, length_append]
    rcases mem_cons.mp member with rfl | member
    · exact Nat.le_add_right _ _
    · have within := (sublist_flatten_of_mem (mem_map_of_mem (f := ([44] ++ ·)) member)).length_le
      rw [length_append] at within
      exact Nat.le_trans (Nat.le_add_left _ _) (Nat.le_trans within (Nat.le_add_left _ _))

/-- The first byte of a text is no white space, and a brace only for a map. -/
theorem jsonText_eq_cons (noDouble : ∀ bits, object ≠ .f64 bits) :
    ∃ first rest, jsonText printG object = first :: rest ∧ SpaceFree (first :: rest) ∧
      (object.isMap = false → first ≠ 123) := by
  cases object with
  | null | buf | list =>
    exact ⟨_, _, rfl, ⟨by decide, by decide, by decide, by decide⟩, fun _ => by decide⟩
  | map =>
    exact ⟨_, _, rfl, ⟨by decide, by decide, by decide, by decide⟩, fun isLeaf => by cases isLeaf⟩
  | boolean value =>
    cases value <;>
      exact ⟨_, _, rfl, ⟨by decide, by decide, by decide, by decide⟩, fun _ => by decide⟩
  | i64 value =>
    rw [jsonText, intText_eq]
    split_ifs
    · exact ⟨_, _, rfl, ⟨by decide, by decide, by decide, by decide⟩, fun _ => by decide⟩
    · obtain ⟨first, digits, shape, lower, upper⟩ := decimal_head value.natAbs
      refine ⟨first, digits, shape, ⟨?_, ?_, ?_, ?_⟩, fun _ => ?_⟩
      all_goals
        rintro rfl
        first | exact absurd lower (by decide) | exact absurd upper (by decide)
  | f64 bits => exact absurd rfl (noDouble bits)

theorem spaceFree_jsonText (plain : Plain object) (rest : Buffer) :
    SpaceFree (jsonText printG object ++ rest) := by
  obtain ⟨first, others, shape, free, -⟩ := @jsonText_eq_cons printG object
    (by rintro bits rfl; exact plain)
  rw [shape]
  exact free

/-- An integer does not begin with a quote. -/
theorem takes_integer {rest : Buffer} (ends : Ends rest) (number : Int) :
    Takes (parserJsonAlternatives value) (gglStr (toString number)) rest
      fun data => noted .number ⟨data, (gglStr (toString number)).length⟩ := by
  have unquoted : Rejects parserJsonStr (gglStr (toString number) ++ rest) := by
    rw [intText_eq]
    split_ifs
    · exact fun _ _ => rfl
    · rcases decimal_head number.natAbs with ⟨first, digits, shape, digit⟩
      have quote : first ≠ 34 := by
        rintro rfl
        exact absurd digit.1 (by decide)
      rw [shape]
      exact (rejects_char quote).sequence
  exact unquoted.oneOf (takes_number ends number).oneOf

theorem takes_value_jsonText {rest : Buffer}
    {note : Nat → Option ParseResult → Option ParseResult} (plain : Plain object)
    (takes : ∀ levels rest, (jsonText printG object).length ≤ levels → Ends rest →
      Takes (parserJsonAlternatives (parserJsonValue levels)) (jsonText printG object) rest note)
    (short : (jsonText printG object).length < levels) (ends : Ends rest) :
    Takes (parserJsonValue levels) (jsonText printG object) rest note := by
  cases levels with
  | zero => cases short
  | succ levels =>
    exact takes_value (spaceFree_jsonText plain rest) ends
      (takes levels rest (Nat.le_of_lt_succ short) ends)

theorem takes_alternatives (plain : Plain object) (levels : Nat) (rest : Buffer)
    (short : (jsonText printG object).length ≤ levels) (ends : Ends rest) :
    Takes (parserJsonAlternatives (parserJsonValue levels)) (jsonText printG object) rest
      fun data output => recognised printG data output object := by
  induction object using GglObject.members_induction generalizing levels rest with
  | null =>
    have taken := takes_combResultVal .null (@takes_tokens _ _ (gglStr "null") rest _)
    exact takes_words (.inr (.inr rfl))
      ((rejects_word .true rfl (by decide)).oneOf ((rejects_word .false rfl (by decide)).oneOf
        taken.oneOf))
  | boolean value =>
    cases value with
    | true => exact takes_words (.inl rfl) (takes_combResultVal .true takes_tokens).oneOf
    | false =>
      exact takes_words (.inr (.inl rfl))
        ((rejects_word .true rfl (by decide)).oneOf (takes_combResultVal .false takes_tokens).oneOf)
  | i64 number =>
    exact takes_integer ends number
  | f64 => cases plain
  | buf =>
    rw [jsonText]
    exact (takes_stringText plain).oneOf
  | list items ih =>
    have each := plainItems_iff.mp plain
    rw [jsonText, length_cons, length_append] at short
    have nested : Rejects (combNested (parserJsonValue levels)) (93 :: rest) := by
      intro data output
      rw [combNested, rejects_closing]
    have taken := @takes_container (combNested (parserJsonValue levels)) [parserChar 44]
      (itemTexts printG items) 93 rest (.inr (.inr (.inl rfl))) ?_ ?_ (fun _ _ _ _ => rfl)
      (fun _ _ => rfl) 91 .array nested
    · rw [itemTexts_eq_map, length_map, ← itemTexts_eq_map] at taken
      exact fun data output => taken.oneOf data output
    · rw [itemTexts_eq_map, forall_mem_map]
      intro item member rest ends
      have bound := length_le_intercalate (mem_map_of_mem (f := jsonText printG) member)
      rw [← itemTexts_eq_map] at bound
      exact takes_combNested (takes_value_jsonText (each item member)
        (ih item member (each item member)) (by omega) ends)
    · rw [itemTexts_eq_map, forall_mem_map]
      exact fun item member => spaceFree_jsonText (each item member)
  | map pairs ih =>
    have each := plainPairs_iff.mp plain
    rw [jsonText, length_cons, length_append] at short
    have taken := @takes_container (parserJsonObjectKv (parserJsonValue levels))
      [parserChar 44, parserJsonWhitespace] (pairTexts printG pairs) 125 rest
      (.inr (.inr (.inr rfl))) ?_ ?_
      (fun _ free => (takes_char 44).sequence (takes_whitespace free).alone) (fun _ _ => rfl) 123
      .object (fun _ _ => rfl)
    · rw [pairTexts_eq_map, length_map, ← pairTexts_eq_map] at taken
      exact fun data output => taken.oneOf data output
    · rw [pairTexts_eq_map, forall_mem_map]
      intro pair member rest ends
      have bound := length_le_intercalate (mem_map_of_mem (f := pairText printG) member)
      rw [← pairTexts_eq_map, pairText, length_append, length_cons] at bound
      exact takes_pair (each pair member).1 (takes_value_jsonText (each pair member).2
        (ih pair member (each pair member).2) (by omega) ends)
    · rw [pairTexts_eq_map, forall_mem_map]
      exact fun _ _ _ => ⟨by decide, by decide, by decide, by decide⟩

/-- The text of a plain object is recognised, up to what stands behind it. -/
theorem takes_jsonText (plain : Plain object) {rest : Buffer}
    (short : (jsonText printG object).length < levels) (ends : Ends rest) :
    Takes (parserJsonValue levels) (jsonText printG object) rest
      fun data output => recognised printG data output object :=
  takes_value_jsonText plain (takes_alternatives plain) short ends

end Values

end GreengrassLite.Json

import GreengrassLite.Json.Decode

/-!
# The strings of a JSON text

A rule of the grammar relates an input to what is left behind a text of the rule.
`PARSER_JSON_STR` looks at the first byte of a UTF-8 sequence where it means the others, and so
takes only strings without sequences of more than one byte.
-/

namespace GreengrassLite.Json

open Library List Relation

variable {rule : List UInt8 → List UInt8 → Prop}

/-- A UTF-8 sequence of one byte, other than a control character, a quote or a backslash. -/
def plain : List UInt8 → List UInt8 → Prop :=
  oneToken fun c => ¬c ≤ 0x1F ∧ c ≠ 34 ∧ c ≠ 92 ∧ c &&& 0b10000000 = 0

def continuation : List UInt8 → List UInt8 → Prop :=
  oneToken fun c => c &&& 0b11000000 = 0b10000000

/-- A structurally complete UTF-8 sequence of two to four bytes. -/
def multiByte (tokens rest : List UInt8) : Prop :=
  Comp (oneToken fun c => c &&& 0b11100000 = 0b11000000) continuation tokens rest ∨
  Comp (oneToken fun c => c &&& 0b11110000 = 0b11100000) (Comp continuation continuation)
    tokens rest ∨
  Comp (oneToken fun c => c &&& 0b11111000 = 0b11110000)
    (Comp continuation (Comp continuation continuation)) tokens rest

def hex : List UInt8 → List UInt8 → Prop :=
  oneToken fun c => 48 ≤ c ∧ c ≤ 57 ∨ 65 ≤ c ∧ c ≤ 70 ∨ 97 ≤ c ∧ c ≤ 102

/-- A backslash with one of `"\/bfnrt`, or with `u` and four digits. -/
def escape : List UInt8 → List UInt8 → Prop :=
  Comp (oneToken (· = 92)) fun tokens rest =>
    oneToken (· ∈ [34, 92, 47, 98, 102, 110, 114, 116]) tokens rest ∨
    Comp (oneToken (· = 117)) (Comp hex (Comp hex (Comp hex hex))) tokens rest

/-- Items between quotes. -/
def quoted (item : List UInt8 → List UInt8 → Prop) : List UInt8 → List UInt8 → Prop :=
  Comp (oneToken (· = 34)) (Comp (ReflTransGen item) (oneToken (· = 34)))

def jsonString : List UInt8 → List UInt8 → Prop :=
  quoted fun tokens rest => plain tokens rest ∨ multiByte tokens rest ∨ escape tokens rest

/-- A string whose UTF-8 sequences are single bytes. -/
def singleByteString : List UInt8 → List UInt8 → Prop :=
  quoted fun tokens rest => plain tokens rest ∨ escape tokens rest

theorem leaves_parserHexDigit : Leaves parserHexDigit hex :=
  (@leaves_oneOf_tokenIf _ _ _ _ [_, _] (leaves_tokenIf _).oneOf_alone
    fun _ _ _ _ _ here there => (oneToken_both here there).1).congr (by
      simp [oneToken, hex, or_and_right, exists_or, or_assoc])

theorem leaves_parserJsonStrEscape : Leaves parserJsonStrEscape escape := by
  have unicode : Leaves (oneOf [sequence [parserChar 117, parserHexDigit, parserHexDigit,
      parserHexDigit, parserHexDigit]]) _ :=
    ((leaves_tokenIf _).sequence (leaves_parserHexDigit.sequence (leaves_parserHexDigit.sequence
      (leaves_parserHexDigit.sequence leaves_parserHexDigit.alone)))).oneOf_alone
  refine (leaves_tokenIf _).sequence ((@leaves_oneOf_tokenIf _ _ _ _
    ([34, 92, 47, 98, 102, 110, 114, 116].map fun c byte => decide (byte = c)) unicode
    ?_).congr ?_).alone
  · intro accepts listed tokens rest other here ⟨_, there, _⟩
    obtain ⟨c, isChar, rfl⟩ := mem_map.mp listed
    obtain ⟨-, byte, isC, isU⟩ := oneToken_both here there
    rw [← of_decide_eq_true isC, of_decide_eq_true isU] at isChar
    exact absurd isChar (by decide)
  · simp [oneToken]

/-- Of the UTF-8 sequences, only single bytes are taken. -/
theorem leaves_parserJsonStrCodepoint : Leaves parserJsonStrCodepoint plain := by
  rintro data output (_ | ⟨first, tokens⟩) rest
  · simp [parserJsonStrCodepoint, plain, oneToken]
  · have long : first &&& 0b11000000 = 0b10000000 → ¬first &&& 0b10000000 = 0 := by
      intro continues
      rw [show first &&& 0b10000000 = (first &&& 0b11000000) &&& 0b10000000 by
        rw [UInt8.and_assoc]; rfl, continues]
      decide
    simp only [parserJsonStrCodepoint, plain, oneToken, utf8Len]
    split_ifs with control
    · simp [UInt8.not_lt.mpr control]
    all_goals simp_all [Input.skip, range_succ]

theorem leaves_combResultVal {type : JsonType} {parser : JsonParser} (leaves : Leaves parser rule) :
    Leaves (combResultVal type parser) rule := by
  intro data output tokens rest
  rw [← leaves data output tokens rest, combResultVal]
  rcases parser ⟨data, tokens⟩ output with ⟨_ | _, _ | _⟩ <;> rfl

/-- The strings that are taken are those whose UTF-8 sequences are single bytes. -/
theorem leaves_parserJsonStr : Leaves parserJsonStr singleByteString := by
  have apart : ∀ {first second : UInt8 → Bool} {tokens rest other : List UInt8},
      (∀ c, first c = true → second c = false) → oneToken first tokens rest →
      ¬oneToken second tokens other := by
    intro first second tokens rest other exclusive here there
    obtain ⟨-, c, isFirst, isSecond⟩ := oneToken_both here there
    exact absurd isSecond (by simp [exclusive c isFirst])
  have item : Leaves (oneOf [parserJsonStrCodepoint, parserJsonStrEscape]) fun tokens rest =>
      plain tokens rest ∨ escape tokens rest := by
    apply leaves_parserJsonStrCodepoint.oneOf leaves_parserJsonStrEscape.oneOf_alone
    rintro tokens rest other here ⟨_, there, -⟩
    exact absurd there (apart (by simp_all) here)
  refine ((leaves_tokenIf _).sequence ((leaves_combResultVal (item.zeroOrMore ?_)).sequence
    (leaves_tokenIf _).alone)).congr ?_
  · have digits : Shortens hex := shortens_oneToken
    rintro tokens rest (here | here)
    · exact shortens_oneToken here
    · refine shortens_oneToken.comp ?_ here
      rintro _ _ (here | here)
      · exact shortens_oneToken here
      · exact shortens_oneToken.comp (digits.comp (digits.comp (digits.comp digits))) here
  · intro tokens rest
    refine exists_congr fun _ => and_congr_right fun _ => exists_congr fun middle =>
      and_congr_left fun stop => and_iff_left ?_
    rintro other (here | ⟨_, here, -⟩)
    · exact apart (by simp_all) stop here
    · exact apart (by simp_all) stop here

/-- On every input, the prefixes that are taken are the strings of the grammar exactly if all of
those have single bytes only. -/
theorem parserJsonStr_accepts_iff (tokens : List UInt8) :
    (∀ data output rest, (parserJsonStr ⟨data, tokens⟩ output).1.map Input.rest = some rest ↔
      jsonString tokens rest) ↔
    ∀ rest, jsonString tokens rest → singleByteString tokens rest := by
  have wider : ∀ rest, singleByteString tokens rest → jsonString tokens rest := by
    rintro rest ⟨_, start, _, items, stop⟩
    exact ⟨_, start, _, ReflTransGen.mono (fun _ _ => Or.imp_right .inr) _ _ items, stop⟩
  constructor
  · intro accepts rest string
    exact (leaves_parserJsonStr 0 none tokens rest).mp ((accepts 0 none rest).mpr string)
  · intro single data output rest
    exact (leaves_parserJsonStr ..).trans ⟨wider rest, single rest⟩

/-- The two bytes of an accented letter between quotes. -/
theorem accented_letter_rejected :
    (parserJsonStr ⟨0, [34, 0xC3, 0xA9, 34]⟩ none).1.map Input.rest = none ∧
      jsonString [34, 0xC3, 0xA9, 34] [] :=
  ⟨rfl, [0xC3, 0xA9, 34], ⟨34, rfl, rfl⟩, [34],
    .single (.inr (.inl (.inl ⟨[0xA9, 34], ⟨0xC3, rfl, rfl⟩, 0xA9, rfl, rfl⟩))), 34, rfl, rfl⟩

end GreengrassLite.Json

import Mathlib.Data.List.Basic

/-!
# JSON texts

A JSON text is a text of Unicode characters, sent as UTF-8.  The grammar is given
by derivations: a phrase is derived from the beginning of a text, and leaves the
rest of it.  Blanks before a token are skipped.

A derivation does not look beyond what it takes, so it stays one when more is
added to the text.  A string is taken to be itself exactly when no character of
it has to be escaped.
-/

namespace GreengrassLite.Library

open List

variable {behind : List Char}

/-! ## Characters and bytes -/

/-- The bytes of characters. -/
def utf8 (chars : List Char) : List UInt8 :=
  chars.flatMap String.utf8EncodeChar

@[simp]
theorem utf8_append (first second : List Char) :
    utf8 (first ++ second) = utf8 first ++ utf8 second :=
  flatMap_append

theorem utf8_of_ascii {chars : List Char} (ascii : (chars.all fun c => c.toNat < 128) = true) :
    utf8 chars = chars.map fun c => UInt8.ofNat c.toNat := by
  rw [map_eq_flatMap]
  refine flatMap_congr fun c inside => if_pos ?_
  exact Nat.le_of_lt_succ (of_decide_eq_true (all_eq_true.mp ascii c inside))

/-- Only the character zero has a byte zero. -/
theorem zero_notMem_utf8 {chars : List Char} (nonzero : ∀ c ∈ chars, c.toNat ≠ 0) :
    0 ∉ utf8 chars := by
  intro inside
  rcases mem_flatMap.mp inside with ⟨c, member, byte⟩
  have positive : c.val.toNat ≠ 0 := nonzero c member
  have bytes : ∀ byte ∈ String.utf8EncodeChar c, byte.toNat ≠ 0 := by
    unfold String.utf8EncodeChar
    dsimp only
    split_ifs <;> simp only [mem_cons, not_mem_nil, or_false, forall_eq_or_imp, forall_eq,
      UInt8.toNat_ofNat'] <;> omega
  exact bytes 0 byte rfl

/-- No text is encoded by the beginning of the bytes of another, unless it is its beginning. -/
theorem prefix_of_utf8 {first second : List Char} {bytes : List UInt8}
    (encoded : utf8 first ++ bytes = utf8 second) : first <+: second := by
  apply isPrefix_of_utf8Encode_append_eq_utf8Encode bytes.toByteArray
  rw [utf8Encode, ← toByteArray_append]
  exact congrArg toByteArray encoded

/-! ## The grammar -/

inductive JsonValue where
  | null
  | boolean (value : Bool)
  | number (text : List Char)
  | string (chars : List Char)
  | array (items : List JsonValue)
  | object (members : List (List Char × JsonValue))

/-- The text behind its leading blanks. -/
def skipBlanks (text : List Char) : List Char :=
  text.dropWhile fun c => c = ' ' ∨ c = '\t' ∨ c = '\n' ∨ c = '\r'

/-- A character that stands for itself in a string. -/
def Unescaped (c : Char) : Prop :=
  0x20 ≤ c.toNat ∧ c ≠ '"' ∧ c ≠ '\\'

instance (c : Char) : Decidable (Unescaped c) :=
  inferInstanceAs (Decidable (_ ∧ _))

def AllUnescaped (chars : List Char) : Prop :=
  ∀ c ∈ chars, Unescaped c

instance (chars : List Char) : Decidable (AllUnescaped chars) :=
  decidableBAll _ chars

/-- What a letter behind a backslash stands for. -/
def escapedLetter : Char → Option Char
  | '"' => some '"'
  | '\\' => some '\\'
  | '/' => some '/'
  | 'b' => some '\x08'
  | 'f' => some '\x0c'
  | 'n' => some '\n'
  | 'r' => some '\r'
  | 't' => some '\t'
  | _ => none

def hexDigit (c : Char) : Option Nat :=
  if c.isDigit then some (c.toNat - 48)
  else if 'a' ≤ c ∧ c ≤ 'f' then some (c.toNat - 87)
  else if 'A' ≤ c ∧ c ≤ 'F' then some (c.toNat - 55)
  else none

/-- The number that hexadecimal digits stand for. -/
def hexNumber (digits : List Char) : Option Nat :=
  digits.foldlM (fun number c => (hexDigit c).map (16 * number + ·)) 0

/-- An escape and the character it stands for. -/
inductive Escape : List Char → Char → Prop
  | letter {letter c} : escapedLetter letter = some c → Escape ['\\', letter] c
  | codePoint {digits : List Char} {code : Nat} : digits.length = 4 →
      hexNumber digits = some code → code.isValidChar →
      Escape ('\\' :: 'u' :: digits) (Char.ofNat code)
  | surrogates {first second : List Char} {high low} : first.length = 4 →
      second.length = 4 → hexNumber first = some high → hexNumber second = some low →
      0xD800 ≤ high → high < 0xDC00 → 0xDC00 ≤ low → low < 0xE000 →
      Escape ('\\' :: 'u' :: (first ++ '\\' :: 'u' :: second))
        (Char.ofNat (0x10000 + (high - 0xD800) * 0x400 + (low - 0xDC00)))

/-- The characters of a string, up to its closing quote. -/
inductive StringChars : List Char → List Char → List Char → Prop
  | close {rest} : StringChars ('"' :: rest) [] rest
  | unescaped {c text chars rest} : Unescaped c →
      StringChars text chars rest → StringChars (c :: text) (c :: chars) rest
  | escaped {c raw input text chars rest} : Escape raw c →
      input = raw ++ text → StringChars text chars rest → StringChars input (c :: chars) rest

def AllDigits (text : List Char) : Prop :=
  text ≠ [] ∧ ∀ c ∈ text, c.isDigit

/-- A number: a sign, the digits before the point, and if there are any, those behind the point
and the exponent. -/
inductive IsNumber : List Char → Prop
  | intro {sign whole fraction exponent : List Char} : sign = [] ∨ sign = ['-'] →
      AllDigits whole → whole = ['0'] ∨ whole.head? ≠ some '0' →
      (fraction = [] ∨ ∃ digits, AllDigits digits ∧ fraction = '.' :: digits) →
      (exponent = [] ∨ ∃ e plus digits, (e = 'e' ∨ e = 'E') ∧
        (plus = [] ∨ plus = ['+'] ∨ plus = ['-']) ∧ AllDigits digits ∧
        exponent = e :: (plus ++ digits)) →
      IsNumber (sign ++ (whole ++ (fraction ++ exponent)))

inductive JsonPhrase where
  | value (value : JsonValue)
  /-- the items of an array, up to its closing bracket. -/
  | elements (items : List JsonValue)
  | pair (key : List Char) (value : JsonValue)
  /-- the pairs of an object, up to its closing brace. -/
  | members (pairs : List (List Char × JsonValue))

/-- A phrase at the beginning of a text, and the rest of the text. -/
inductive Derives : JsonPhrase → List Char → List Char → Prop
  | null {rest} : Derives (.value .null) ('n' :: 'u' :: 'l' :: 'l' :: rest) rest
  | true {rest} :
      Derives (.value (.boolean true)) ('t' :: 'r' :: 'u' :: 'e' :: rest) rest
  | false {rest} :
      Derives (.value (.boolean false)) ('f' :: 'a' :: 'l' :: 's' :: 'e' :: rest) rest
  | number {first digits rest} : IsNumber (first :: digits) →
      Derives (.value (.number (first :: digits))) (first :: (digits ++ rest)) rest
  | string {text chars rest} : StringChars text chars rest →
      Derives (.value (.string chars)) ('"' :: text) rest
  | emptyArray {text rest} : skipBlanks text = ']' :: rest →
      Derives (.value (.array [])) ('[' :: text) rest
  | array {text rest items} : Derives (.elements items) text rest →
      Derives (.value (.array items)) ('[' :: text) rest
  | emptyObject {text rest} : skipBlanks text = '}' :: rest →
      Derives (.value (.object [])) ('{' :: text) rest
  | object {text rest pairs} :
      Derives (.members pairs) text rest → Derives (.value (.object pairs)) ('{' :: text) rest
  | lastElement {text after rest item} :
      Derives (.value item) (skipBlanks text) after → skipBlanks after = ']' :: rest →
      Derives (.elements [item]) text rest
  | element {text after more rest item items} :
      Derives (.value item) (skipBlanks text) after → skipBlanks after = ',' :: more →
      Derives (.elements items) more rest → Derives (.elements (item :: items)) text rest
  | pair {text inside key after behind rest value} :
      skipBlanks text = '"' :: inside → StringChars inside key after →
      skipBlanks after = ':' :: behind → Derives (.value value) (skipBlanks behind) rest →
      Derives (.pair key value) text rest
  | lastMember {text key after rest value} :
      Derives (.pair key value) text after → skipBlanks after = '}' :: rest →
      Derives (.members [(key, value)]) text rest
  | member {text key after more rest value pairs} :
      Derives (.pair key value) text after → skipBlanks after = ',' :: more →
      Derives (.members pairs) more rest → Derives (.members ((key, value) :: pairs)) text rest

/-- The bytes are a JSON text with this value. -/
def IsJsonText (bytes : List UInt8) (value : JsonValue) : Prop :=
  ∃ chars rest, bytes = utf8 chars ∧ Derives (.value value) (skipBlanks chars) rest ∧
    skipBlanks rest = []

/-! ## Strings -/

section Strings

variable {c : Char} {raw text chars rest : List Char}

theorem hexDigit_of_foldlM {digits : List Char} {start number : Nat}
    (read : digits.foldlM (fun number c => (hexDigit c).map (16 * number + ·)) start =
      some number) : ∀ c ∈ digits, hexDigit c ≠ none := by
  induction digits generalizing start with
  | nil => exact fun c inside => absurd inside not_mem_nil
  | cons digit digits ih =>
    rcases Option.bind_eq_some_iff.mp read with ⟨next, first, rest⟩
    rcases Option.map_eq_some_iff.mp first with ⟨value, isDigit, -⟩
    intro c inside
    rcases mem_cons.mp inside with rfl | inside
    · rw [isDigit]
      exact Option.some_ne_none _
    · exact ih rest c inside

theorem quote_notMem_of_hexNumber {digits : List Char} {number : Nat}
    (read : hexNumber digits = some number) : '"' ∉ digits :=
  fun inside => hexDigit_of_foldlM read '"' inside rfl

theorem Escape.eq_cons_cons (escape : Escape raw c) :
    ∃ second others, raw = '\\' :: second :: others := by
  cases escape with
  | letter | codePoint | surrogates => exact ⟨_, _, rfl⟩

/-- A quote in an escape is the escaped one. -/
theorem Escape.eq_of_quote {before after : List Char} (escape : Escape raw c)
    (quote : raw = before ++ '"' :: after) : before = ['\\'] ∧ after = [] := by
  -- Only the letter behind a backslash can be a quote: digits are none.
  have digitless : ∀ {tail : List Char}, raw = '\\' :: 'u' :: tail → '"' ∉ tail → False := by
    rintro tail rfl free
    have inside : '"' ∈ '\\' :: 'u' :: tail := by
      rw [quote]
      exact mem_append_right before mem_cons_self
    simp [free] at inside
  cases escape with
  | @letter letter _ meaning =>
    match before, quote with
    | [], quote => cases quote
    | [_], quote =>
      cases quote
      exact ⟨rfl, rfl⟩
    | _ :: _ :: _, quote => simp at quote
  | codePoint length read valid =>
    exact (digitless rfl (quote_notMem_of_hexNumber read)).elim
  | surrogates firstLength secondLength firstRead secondRead =>
    refine (digitless rfl ?_).elim
    simp [quote_notMem_of_hexNumber firstRead, quote_notMem_of_hexNumber secondRead]

/-- Characters that stand for themselves are taken as they are. -/
theorem StringChars.of_unescaped (plain : AllUnescaped chars) :
    StringChars (chars ++ '"' :: rest) chars rest := by
  induction chars with
  | nil => exact .close
  | cons c chars ih =>
    have both := forall_mem_cons.mp plain
    exact .unescaped both.1 (ih both.2)

theorem StringChars.eq_of_unescaped (plain : AllUnescaped text)
    (read : StringChars (text ++ '"' :: behind) chars rest) : chars = text ∧ rest = behind := by
  induction text generalizing chars with
  | nil =>
    cases read with
    | close => exact ⟨rfl, rfl⟩
    | unescaped free => exact absurd rfl free.2.1
    | escaped escape same =>
      rcases escape.eq_cons_cons with ⟨second, others, rfl⟩
      cases same
  | cons c text ih =>
    have both := forall_mem_cons.mp plain
    cases read with
    | close => exact absurd rfl both.1.2.1
    | unescaped free read =>
      rcases ih both.2 read with ⟨rfl, rfl⟩
      exact ⟨rfl, rfl⟩
    | escaped escape same =>
      rcases escape.eq_cons_cons with ⟨second, others, rfl⟩
      exact absurd (cons.inj same).1 both.1.2.2

/-- A piece at the beginning of a text lies before a quote in it, or has the quote in it. -/
theorem append_eq_append_quote {front : List Char} (same : raw ++ text = front ++ '"' :: behind) :
    (∃ between, front = raw ++ between ∧ text = between ++ '"' :: behind) ∨
      ∃ after, raw = front ++ '"' :: after ∧ behind = after ++ text := by
  rcases append_eq_append_iff.mp same with before | ⟨after, isRaw, isBehind⟩
  · exact .inl before
  · cases after with
    | nil => exact .inl ⟨[], by simpa using isRaw.symm, isBehind.symm⟩
    | cons quote after =>
      cases isBehind
      exact .inr ⟨after, isRaw, rfl⟩

/-- What is taken from characters before a quote: no more than they are, and as many only if
they stand for themselves; or else the quote is taken too, behind a backslash. -/
theorem StringChars.before_quote {front : List Char}
    (ends : ∀ {chars rest}, StringChars behind chars rest → chars.getLast? ≠ some '\\')
    (read : StringChars text chars rest) (same : text = front ++ '"' :: behind) :
    (chars.length ≤ front.length ∧ (chars.length = front.length →
        chars = front ∧ AllUnescaped front ∧ rest = behind)) ∨
      (front.getLast? = some '\\' ∧ chars ≠ [] ∧ chars.getLast? ≠ some '\\') := by
  induction read generalizing front with
  | close =>
    left
    cases front with
    | nil =>
      cases same
      exact ⟨Nat.le_refl _, fun _ => ⟨rfl, nofun, rfl⟩⟩
    | cons c front => exact ⟨Nat.zero_le _, nofun⟩
  | @unescaped c text chars rest free read ih =>
    cases front with
    | nil =>
      cases same
      exact absurd rfl free.2.1
    | cons first front =>
      cases same
      rcases ih rfl with ⟨short, equal⟩ | ⟨last, nonempty, other⟩
      · left
        refine ⟨Nat.succ_le_succ short, fun length => ?_⟩
        rcases equal (Nat.succ.inj length) with ⟨rfl, plain, rfl⟩
        exact ⟨rfl, forall_mem_cons.mpr ⟨free, plain⟩, rfl⟩
      · right
        rw [getLast?_cons_of_ne_nil nonempty]
        refine ⟨?_, cons_ne_nil _ _, other⟩
        rw [getLast?_cons_of_ne_nil (by rintro rfl; cases last)]
        exact last
  | @escaped c raw input text chars rest escape split read ih =>
    rw [split] at same
    rcases append_eq_append_quote same with ⟨between, rfl, isText⟩ | ⟨after, isRaw, rfl⟩
    · rcases escape.eq_cons_cons with ⟨second, others, rfl⟩
      rcases ih isText with ⟨short, -⟩ | ⟨last, nonempty, other⟩
      · left
        simp only [length_cons, length_append]
        exact ⟨by omega, fun length => by omega⟩
      · right
        rw [getLast?_cons_of_ne_nil nonempty, getLast?_append, last]
        exact ⟨rfl, cons_ne_nil _ _, other⟩
    · -- the quote is the escaped letter
      rcases escape.eq_of_quote isRaw with ⟨rfl, rfl⟩
      right
      refine ⟨rfl, cons_ne_nil _ _, ?_⟩
      cases isRaw
      cases escape with
      | letter meaning =>
        cases meaning
        cases chars with
        | nil => exact nofun
        | cons next chars =>
          rw [getLast?_cons_of_ne_nil (cons_ne_nil _ _)]
          exact ends read

/-- A string that is taken to be itself has nothing to escape. -/
theorem StringChars.unescaped_of_same
    (ends : ∀ {chars rest}, StringChars behind chars rest → chars.getLast? ≠ some '\\')
    (read : StringChars (chars ++ '"' :: behind) chars rest) :
    AllUnescaped chars ∧ rest = behind := by
  rcases read.before_quote ends rfl with ⟨-, equal⟩ | ⟨last, -, other⟩
  · exact (equal rfl).2
  · exact absurd last other

end Strings

/-! ## Derivations -/

section Derivations

variable {value : JsonValue} {text rest : List Char}

theorem IsNumber.head {first : Char} {digits : List Char} (number : IsNumber (first :: digits)) :
    first = '-' ∨ first.isDigit := by
  generalize same : first :: digits = text at number
  cases number with
  | @intro sign whole fraction exponent signed isWhole _ _ _ =>
    rcases signed with rfl | rfl
    · cases whole with
      | nil => exact absurd rfl isWhole.1
      | cons digit whole =>
        cases same
        exact .inr (isWhole.2 _ mem_cons_self)
    · cases same
      exact .inl rfl

theorem Derives.ne_nil (derives : Derives (.value value) text rest) : text ≠ [] := by
  cases derives <;> exact cons_ne_nil _ _

@[simp]
theorem skipBlanks_append (extra : List Char) (more : skipBlanks text ≠ []) :
    skipBlanks (text ++ extra) = skipBlanks text ++ extra := by
  rw [skipBlanks, dropWhile_append, ← skipBlanks, if_neg]
  simpa using more

theorem StringChars.append {chars : List Char} (extra : List Char)
    (read : StringChars text chars rest) : StringChars (text ++ extra) chars (rest ++ extra) := by
  induction read with
  | close => exact .close
  | unescaped free _ ih => exact .unescaped free ih
  | escaped escape same _ ih =>
    refine .escaped escape ?_ ih
    rw [same, append_assoc]

/-- A derivation stays one when more is added to the text. -/
theorem Derives.append {phrase : JsonPhrase} (extra : List Char)
    (derives : Derives phrase text rest) : Derives phrase (text ++ extra) (rest ++ extra) := by
  have skipped : ∀ {text : List Char} {c : Char} {behind : List Char},
      skipBlanks text = c :: behind → skipBlanks (text ++ extra) = c :: (behind ++ extra) := by
    intro text c behind found
    rw [skipBlanks_append extra (by rw [found]; exact cons_ne_nil _ _), found]
    rfl
  induction derives with
  | null => exact .null
  | true => exact .true
  | false => exact .false
  | @number first digits rest isNumber =>
    have same : first :: (digits ++ rest) ++ extra = first :: (digits ++ (rest ++ extra)) :=
      congrArg (first :: ·) (append_assoc digits rest extra)
    rw [same]
    exact .number isNumber
  | string read => exact .string (read.append extra)
  | emptyArray found => exact .emptyArray (skipped found)
  | array _ ih => exact .array ih
  | emptyObject found => exact .emptyObject (skipped found)
  | object _ ih => exact .object ih
  | lastElement item found ih =>
    rw [← skipBlanks_append extra item.ne_nil] at ih
    exact .lastElement ih (skipped found)
  | element item found _ ih ihRest =>
    rw [← skipBlanks_append extra item.ne_nil] at ih
    exact .element ih (skipped found) ihRest
  | pair quote read colon value ih =>
    rw [← skipBlanks_append extra value.ne_nil] at ih
    exact .pair (skipped quote) (read.append extra) (skipped colon) ih
  | lastMember _ found ih => exact .lastMember ih (skipped found)
  | member _ found _ ih ihRest => exact .member ih (skipped found) ihRest

theorem Derives.of_quote (derives : Derives (.value value) ('"' :: text) rest) :
    ∃ chars, value = .string chars ∧ StringChars text chars rest := by
  cases derives with
  | string read => exact ⟨_, rfl, read⟩
  | number isNumber => exact absurd isNumber.head (by decide)

theorem Derives.of_bracket {item : JsonValue}
    (derives : Derives (.value (.array [item])) ('[' :: text) rest) :
    ∃ after, Derives (.value item) (skipBlanks text) after ∧ skipBlanks after = ']' :: rest := by
  cases derives with
  | array elements =>
    cases elements with
    | lastElement item found => exact ⟨_, item, found⟩
    | element _ _ more => cases more

theorem Derives.of_brace {first : Char} {behind : List Char}
    (nonempty : skipBlanks text = first :: behind) (inner : first ≠ '}')
    (derives : Derives (.value value) ('{' :: text) rest) :
    ∃ pairs, value = .object pairs ∧ Derives (.members pairs) text rest := by
  cases derives with
  | object members => exact ⟨_, rfl, members⟩
  | emptyObject found => exact absurd (cons.inj (nonempty.symm.trans found)).1 inner
  | number isNumber => exact absurd isNumber.head (by decide)

/-- How an object goes on behind a pair. -/
def Continues (others : List (List Char × JsonValue)) (left rest : List Char) : Prop :=
  (others = [] ∧ skipBlanks left = '}' :: rest) ∨
    ∃ more, skipBlanks left = ',' :: more ∧ Derives (.members others) more rest

theorem Continues.closed {others : List (List Char × JsonValue)} {left behind : List Char}
    (continues : Continues others left rest) (brace : skipBlanks left = '}' :: behind) :
    rest = behind := by
  rcases continues with ⟨-, found⟩ | ⟨more, found, -⟩
  · exact (cons.inj (found.symm.trans brace)).2
  · cases found.symm.trans brace

theorem Continues.more {others : List (List Char × JsonValue)} {left : List Char}
    (continues : Continues others left rest) (comma : skipBlanks left = ',' :: behind) :
    Derives (.members others) behind rest := by
  rcases continues with ⟨-, found⟩ | ⟨more, found, derives⟩
  · cases found.symm.trans comma
  · rw [← (cons.inj (found.symm.trans comma)).2]
    exact derives

/-- The first pair of an object, when its key is known, and what follows it. -/
theorem Derives.first_member {key after : List Char} {pairs : List (List Char × JsonValue)}
    (plain : AllUnescaped key) (quote : skipBlanks text = '"' :: (key ++ '"' :: after))
    (colon : skipBlanks after = ':' :: behind) (derives : Derives (.members pairs) text rest) :
    ∃ value others left, pairs = (key, value) :: others ∧
      Derives (.value value) (skipBlanks behind) left ∧ Continues others left rest := by
  have known : ∀ {found : List Char} {value : JsonValue} {left : List Char},
      Derives (.pair found value) text left →
      found = key ∧ Derives (.value value) (skipBlanks behind) left := by
    intro found value left pair
    cases pair with
    | pair quoted read separated inside =>
      cases quote.symm.trans quoted
      rcases read.eq_of_unescaped plain with ⟨rfl, rfl⟩
      cases colon.symm.trans separated
      exact ⟨rfl, inside⟩
  cases derives with
  | lastMember pair found =>
    rcases known pair with ⟨rfl, inside⟩
    exact ⟨_, [], _, rfl, inside, .inl ⟨rfl, found⟩⟩
  | member pair found more =>
    rcases known pair with ⟨rfl, inside⟩
    exact ⟨_, _, _, rfl, inside, .inr ⟨_, found, more⟩⟩

end Derivations

end GreengrassLite.Library

import Mathlib.Data.List.Basic
import Mathlib.Logic.Function.Iterate
import Mathlib.Logic.Relation

/-!
# Parsers and their combinators

A parser looks at the tokens from a position on.  If it accepts, it answers the
input behind the tokens it took; if it rejects, the caller goes on with the input
it had.  Besides it may change an output, which keeps its changes also when a
larger parser rejects later.

A combinator is understood by the texts it takes, with what may stand behind them,
and those it rejects.  For repetition that is one rule, `takes_zeroOrMore`: a text
made of pieces is taken piece by piece, up to a tail that the parser rejects.
-/

namespace GreengrassLite.Library

open List

universe u v w

/-- The input of a parser: the position of the next token, and the tokens from there on. -/
structure Input (α : Type u) where
  data : Nat
  rest : List α

/-- The input behind the next `count` tokens. -/
def Input.skip {α : Type u} (input : Input α) (count : Nat) : Input α :=
  ⟨input.data + count, input.rest.drop count⟩

abbrev Parser (α : Type u) (σ : Type v) := Input α → σ → Option (Input α) × σ

section Combinators

variable {α : Type u} {σ : Type v}

/-- One token with a property. -/
def tokenIf (accepts : α → Bool) : Parser α σ := fun input output =>
  match input.rest with
  | [] => (none, output)
  | token :: _ => if accepts token then (some (input.skip 1), output) else (none, output)

/-- A fixed sequence of tokens. -/
def tokens [DecidableEq α] (str : List α) : Parser α σ := fun input output =>
  if input.rest.length < str.length then (none, output)
  else if input.rest.take str.length = str then (some (input.skip str.length), output)
  else (none, output)

/-- The first parser that accepts. -/
def oneOf : List (Parser α σ) → Parser α σ
  | [], _, output => (none, output)
  | parser :: parsers, input, output =>
    match parser input output with
    | (some rest, output) => (some rest, output)
    | (none, output) => oneOf parsers input output

/-- All parsers one after the other. -/
def sequence : List (Parser α σ) → Parser α σ
  | [], input, output => (some input, output)
  | parser :: parsers, input, output =>
    match parser input output with
    | (some rest, output) => sequence parsers rest output
    | (none, output) => (none, output)

/-- The parser as often as it accepts, at most `fuel` times. -/
def repeatFor (parser : Parser α σ) : Nat → Parser α σ
  | 0, input, output => (some input, output)
  | fuel + 1, input, output =>
    match parser input output with
    | (some rest, output) => repeatFor parser fuel rest output
    | (none, output) => (some input, output)

/-- The parser as often as it accepts.  A parser that takes a token whenever it accepts
is called at most once more than there are tokens. -/
def zeroOrMore (parser : Parser α σ) : Parser α σ := fun input output =>
  repeatFor parser (input.rest.length + 1) input output

/-- The parser if it accepts, and nothing otherwise. -/
def maybe (parser : Parser α σ) : Parser α σ := fun input output =>
  match parser input output with
  | (some rest, output) => (some rest, output)
  | (none, output) => (some input, output)

/-! ## Texts that are taken -/

variable {parser : Parser α σ} {parsers : List (Parser α σ)} {text more rest : List α}
  {note later : Nat → σ → σ}

/-- The text is taken when `rest` stands behind it; what becomes of the output may depend on
where the text lies. -/
def Takes (parser : Parser α σ) (text rest : List α) (note : Nat → σ → σ) : Prop :=
  ∀ data output, parser ⟨data, text ++ rest⟩ output =
    (some ⟨data + text.length, rest⟩, note data output)

/-- The output is left alone. -/
abbrev keep : Nat → σ → σ := fun _ output => output

def Rejects (parser : Parser α σ) (rest : List α) : Prop :=
  ∀ data output, parser ⟨data, rest⟩ output = (none, output)

theorem takes_tokenIf {accepts : α → Bool} {token : α} (accepted : accepts token = true) :
    Takes (tokenIf accepts) [token] rest (@keep σ) :=
  fun _ _ => if_pos accepted

theorem rejects_tokenIf {accepts : α → Bool} {token : α} (refused : accepts token = false) :
    @Rejects α σ (tokenIf accepts) (token :: rest) :=
  fun _ _ => if_neg (by rw [refused]; exact Bool.false_ne_true)

theorem takes_tokens [DecidableEq α] : Takes (tokens text) text rest (@keep σ) := by
  intro data output
  simp [tokens, Input.skip]

theorem rejects_tokens [DecidableEq α] {first token : α} (differs : token ≠ first) :
    @Rejects α σ (tokens (first :: text)) (token :: rest) := by
  intro data output
  simp [tokens, differs]

theorem Takes.oneOf (takes : Takes parser text rest note) :
    Takes (oneOf (parser :: parsers)) text rest note := by
  intro data output
  rw [Library.oneOf, takes]

theorem Rejects.oneOf (rejects : Rejects parser (text ++ rest))
    (takes : Takes (oneOf parsers) text rest note) :
    Takes (oneOf (parser :: parsers)) text rest note := by
  intro data output
  rw [Library.oneOf, rejects]
  exact takes data output

theorem rejects_oneOf (each : ∀ parser ∈ parsers, Rejects parser rest) :
    Rejects (oneOf parsers) rest := by
  induction parsers with
  | nil => exact fun _ _ => rfl
  | cons parser parsers ih =>
    have both := forall_mem_cons.mp each
    intro data output
    rw [Library.oneOf, both.1]
    exact ih both.2 data output

theorem Takes.alone (takes : Takes parser text rest note) :
    Takes (sequence [parser]) text rest note := by
  intro data output
  rw [sequence, takes]
  rfl

theorem Takes.sequence (first : Takes parser text (more ++ rest) note)
    (others : Takes (sequence parsers) more rest later) :
    Takes (sequence (parser :: parsers)) (text ++ more) rest
      fun data output => later (data + text.length) (note data output) := by
  intro data output
  rw [append_assoc, Library.sequence, first]
  dsimp only
  rw [others, length_append, Nat.add_assoc]

theorem Takes.sequence_rejects (first : Takes parser text rest keep)
    (stops : Rejects (Library.sequence parsers) rest) :
    Rejects (Library.sequence (parser :: parsers)) (text ++ rest) := by
  intro data output
  rw [Library.sequence, first]
  exact stops _ output

theorem Rejects.sequence (rejects : Rejects parser rest) :
    Rejects (sequence (parser :: parsers)) rest := by
  intro data output
  rw [Library.sequence, rejects]

theorem Takes.maybe (takes : Takes parser text rest note) :
    Takes (maybe parser) text rest note := by
  intro data output
  rw [Library.maybe, takes]

theorem Rejects.maybe (rejects : Rejects parser rest) : Takes (maybe parser) [] rest keep := by
  intro data output
  rw [Library.maybe, nil_append, rejects]
  rfl

theorem Rejects.zeroOrMore (rejects : Rejects parser rest) :
    Takes (zeroOrMore parser) [] rest keep := by
  intro data output
  rw [Library.zeroOrMore, repeatFor, nil_append, rejects]
  rfl

end Combinators

section Pieces

variable {α : Type u} {σ : Type v} {β : Type w} {parser : Parser α σ} {text : β → List α}
  {step : σ → σ} {tail : List α} {follows : List α → Prop} {pieces : List β}

/-- A text made of pieces is taken piece by piece.  What stands behind a piece may matter
to the parser, as `follows` says. -/
theorem takes_repeatFor {fuel : Nat}
    (accepts : ∀ piece ∈ pieces, ∀ rest, follows rest →
      Takes parser (text piece) rest fun _ => step)
    (starts : ∀ piece ∈ pieces, ∀ rest, follows (text piece ++ rest)) (ends : follows tail)
    (rejects : Rejects parser tail) (enough : pieces.length < fuel) :
    Takes (repeatFor parser fuel) (pieces.flatMap text) tail fun _ => step^[pieces.length] := by
  induction pieces generalizing fuel with
  | nil =>
    intro data output
    cases fuel with
    | zero => cases enough
    | succ fuel =>
      change repeatFor parser (fuel + 1) ⟨data, tail⟩ output = _
      rw [repeatFor, rejects]
      rfl
  | cons piece pieces ih =>
    intro data output
    cases fuel with
    | zero => cases enough
    | succ fuel =>
      have behind : follows (pieces.flatMap text ++ tail) := by
        cases pieces with
        | nil => exact ends
        | cons second pieces =>
          rw [flatMap_cons, append_assoc]
          exact starts second (by simp) _
      have later := ih (fun other mem => accepts other (mem_cons_of_mem _ mem))
        (fun other mem => starts other (mem_cons_of_mem _ mem))
        (Nat.lt_of_succ_lt_succ enough)
      rw [flatMap_cons, append_assoc, repeatFor,
        accepts piece mem_cons_self _ behind]
      dsimp only
      rw [later, length_append, Nat.add_assoc, length_cons,
        Function.iterate_succ_apply]

theorem length_le_flatMap (nonempty : ∀ piece ∈ pieces, text piece ≠ []) :
    pieces.length ≤ (pieces.flatMap text).length := by
  induction pieces with
  | nil => exact Nat.le_refl 0
  | cons piece pieces ih =>
    have first := length_pos_of_ne_nil (nonempty piece mem_cons_self)
    have others := ih fun other mem => nonempty other (mem_cons_of_mem _ mem)
    rw [length_cons, flatMap_cons, length_append]
    omega

@[inherit_doc takes_repeatFor]
theorem takes_zeroOrMore
    (accepts : ∀ piece ∈ pieces, ∀ rest, follows rest →
      Takes parser (text piece) rest fun _ => step)
    (starts : ∀ piece ∈ pieces, ∀ rest, follows (text piece ++ rest)) (ends : follows tail)
    (nonempty : ∀ piece ∈ pieces, text piece ≠ []) (rejects : Rejects parser tail) :
    Takes (zeroOrMore parser) (pieces.flatMap text) tail fun _ => step^[pieces.length] := by
  have enough : pieces.length < (pieces.flatMap text ++ tail).length + 1 := by
    have counted := length_le_flatMap nonempty
    rw [length_append]
    omega
  exact takes_repeatFor accepts starts ends rejects enough

end Pieces

/-! ## What is left behind the text taken -/

section Leaves

open Relation

variable {α : Type u} {σ : Type v} {parser : Parser α σ} {parsers : List (Parser α σ)}
  {rule next : List α → List α → Prop} {tokens rest other : List α}

/-- The rule relates the tokens to those behind the text that is taken. -/
def Leaves (parser : Parser α σ) (rule : List α → List α → Prop) : Prop :=
  ∀ data output tokens rest,
    (parser ⟨data, tokens⟩ output).1.map Input.rest = some rest ↔ rule tokens rest

/-- One token with a property. -/
def oneToken (accepts : α → Bool) (tokens rest : List α) : Prop :=
  ∃ token, accepts token = true ∧ tokens = token :: rest

theorem oneToken_both {first second : α → Bool} (here : oneToken first tokens rest)
    (there : oneToken second tokens other) :
    other = rest ∧ ∃ token, first token = true ∧ second token = true := by
  obtain ⟨token, accepted, rfl⟩ := here
  obtain ⟨_, alsoAccepted, same⟩ := there
  obtain ⟨rfl, rfl⟩ := cons.inj same
  exact ⟨rfl, token, accepted, alsoAccepted⟩

/-- Every text of the rule has a token. -/
def Shortens (rule : List α → List α → Prop) : Prop :=
  ∀ {tokens rest}, rule tokens rest → rest.length < tokens.length

theorem shortens_oneToken {accepts : α → Bool} : Shortens (oneToken accepts) := by
  rintro _ rest ⟨_, -, rfl⟩
  exact Nat.lt_succ_self _

theorem Shortens.comp (first : Shortens rule) (second : Shortens next) :
    Shortens (Comp rule next) :=
  fun ⟨_, here, there⟩ => Nat.lt_trans (second there) (first here)

/-- What a parser answers, as its rule says. -/
theorem Leaves.cases (leaves : Leaves parser rule) (data : Nat) (tokens : List α) (output : σ) :
    (∃ position rest changed, parser ⟨data, tokens⟩ output = (some ⟨position, rest⟩, changed) ∧
      ∀ other, rule tokens other ↔ other = rest) ∨
    ∃ changed, parser ⟨data, tokens⟩ output = (none, changed) ∧ ∀ rest, ¬rule tokens rest := by
  have answer := leaves data output tokens
  generalize parser ⟨data, tokens⟩ output = result at answer ⊢
  rcases result with ⟨_ | ⟨position, rest⟩, changed⟩
  · exact .inr ⟨changed, rfl, fun rest => by simp [← answer]⟩
  · exact .inl ⟨position, rest, changed, rfl, fun other => by simp [← answer, eq_comm]⟩

theorem Leaves.congr {other : List α → List α → Prop} (leaves : Leaves parser rule)
    (same : ∀ {tokens rest}, rule tokens rest ↔ other tokens rest) : Leaves parser other :=
  fun data output tokens rest => (leaves data output tokens rest).trans same

theorem leaves_tokenIf (accepts : α → Bool) :
    Leaves (tokenIf accepts : Parser α σ) (oneToken accepts) := by
  rintro data output (_ | ⟨token, tokens⟩) rest
  · simp [tokenIf, oneToken]
  · by_cases accepted : accepts token = true
    · simp [tokenIf, oneToken, accepted, Input.skip]
    · simp [tokenIf, oneToken, accepted]

section

variable (leaves : Leaves parser rule)

include leaves

theorem Leaves.alone : Leaves (sequence [parser]) rule := by
  intro data output tokens rest
  rw [← leaves data output tokens rest, Library.sequence]
  rcases parser ⟨data, tokens⟩ output with ⟨_ | _, _⟩ <;> rfl

theorem Leaves.sequence (others : Leaves (sequence parsers) next) :
    Leaves (sequence (parser :: parsers)) (Comp rule next) := by
  intro data output tokens rest
  rw [Library.sequence]
  rcases leaves.cases data tokens output with ⟨_, _, _, answer, only⟩ | ⟨_, answer, absent⟩
  · simp only [answer, others _ _ _ _, Comp, only, exists_eq_left]
  · simp [answer, Comp, absent]

theorem Leaves.oneOf_alone : Leaves (oneOf [parser]) rule := by
  intro data output tokens rest
  rw [← leaves data output tokens rest, Library.oneOf]
  rcases parser ⟨data, tokens⟩ output with ⟨_ | _, _⟩ <;> rfl

/-- Where both alternatives apply, they leave the same. -/
theorem Leaves.oneOf (others : Leaves (oneOf parsers) next)
    (agree : ∀ {tokens rest other}, rule tokens rest → next tokens other → other = rest) :
    Leaves (oneOf (parser :: parsers)) fun tokens rest => rule tokens rest ∨ next tokens rest := by
  intro data output tokens rest
  rw [Library.oneOf]
  rcases leaves.cases data tokens output with ⟨_, left, _, answer, only⟩ | ⟨_, answer, absent⟩
  · have same : next tokens rest → rest = left := agree ((only left).mpr rfl)
    simp only [answer, only, or_iff_left_of_imp same, Option.map_some, Option.some_inj, eq_comm]
  · simp only [answer, others _ _ _ _, absent, false_or]

end

/-- One of several tokens, or another alternative. -/
theorem leaves_oneOf_tokenIf {kinds : List (α → Bool)} (others : Leaves (oneOf parsers) next)
    (agree : ∀ accepts ∈ kinds, ∀ {tokens rest other}, oneToken accepts tokens rest →
      next tokens other → other = rest) :
    Leaves (oneOf (kinds.map tokenIf ++ parsers)) fun tokens rest =>
      oneToken (fun token => kinds.any (· token)) tokens rest ∨ next tokens rest := by
  induction kinds with
  | nil => exact others.congr (by simp [oneToken])
  | cons accepts kinds ih =>
    have both := forall_mem_cons.mp agree
    refine ((leaves_tokenIf accepts).oneOf (ih both.2) fun here there => ?_).congr ?_
    · exact there.elim (fun there => (oneToken_both here there).1) (both.1 here)
    · simp [oneToken, or_and_right, exists_or, or_assoc]

/-- All that the rule applies to is taken. -/
theorem Leaves.zeroOrMore (leaves : Leaves parser rule) (shortens : Shortens rule) :
    Leaves (zeroOrMore parser)
      fun tokens rest => ReflTransGen rule tokens rest ∧ ∀ other, ¬rule rest other := by
  have repeats : ∀ fuel data output tokens rest, tokens.length < fuel →
      ((repeatFor parser fuel ⟨data, tokens⟩ output).1.map Input.rest = some rest ↔
        ReflTransGen rule tokens rest ∧ ∀ other, ¬rule rest other) := by
    intro fuel
    induction fuel with
    | zero => exact fun _ _ _ _ below => absurd below (Nat.not_lt_zero _)
    | succ fuel ih =>
      intro data output tokens rest below
      rw [repeatFor, ReflTransGen.cases_head_iff]
      rcases leaves.cases data tokens output with ⟨_, left, _, answer, only⟩ | ⟨_, answer, absent⟩
      · have less := shortens ((only left).mpr rfl)
        simp only [answer, ih _ _ left rest (by omega), only, exists_eq_left]
        refine ⟨fun more => ⟨.inr more.1, more.2⟩, ?_⟩
        rintro ⟨rfl | more, stops⟩
        · exact absurd ((only left).mpr rfl) (stops left)
        · exact ⟨more, stops⟩
      · simp only [answer, absent, false_and, exists_false, or_false]
        constructor
        · rintro ⟨⟩
          exact ⟨rfl, absent⟩
        · rintro ⟨rfl, -⟩
          rfl
  exact fun data output tokens rest => repeats _ data output tokens rest (Nat.lt_succ_self _)

end Leaves

end GreengrassLite.Library

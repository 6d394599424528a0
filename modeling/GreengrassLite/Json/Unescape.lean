import GreengrassLite.Json.Decode

/-!
# Unescaping in place

`unescape_string` writes the bytes that a string stands for over the text of the
string.  Every round at a byte or at an escape of one character reads at least as
much as it writes, so what is left of the text is still as the parser took it.

An escape of four digits is different.  Its round writes the code point and takes
nothing off the text, and the next round finds the same escape as long as it has
not been written over.  So the loop fails, or the place where bytes are written gets
ahead of the place where they are read.
-/

namespace GreengrassLite.Json

open GreengrassLite.Library List

variable {pieces : List StringPiece}

/-! ## The content of a string -/

/-- A part of the content of a string: a byte, an escape of one character, or an escape of
four digits. -/
inductive StringPiece where
  | byte (value : UInt8)
  | escape (letter : UInt8)
  | unit (first second third fourth : UInt8)

def StringPiece.text : StringPiece → Buffer
  | .byte value => [value]
  | .escape letter => [92, letter]
  | .unit first second third fourth => [92, 117, first, second, third, fourth]

/-- The piece is no escape of four digits, and stands for the byte. -/
inductive StandsFor : StringPiece → UInt8 → Prop where
  | byte {value} : value ≠ 92 → StandsFor (.byte value) value
  | escape {letter value} : escapedByte letter = some value →
      StandsFor (.escape letter) value

/-! ## Rounds of the loop -/

/-- A round of the loop of `unescape_string`. -/
def unescapeRound (state : Unescape) : Option Unescape :=
  let byte := state.memory.getD state.buf.data 0
  if byte = 92 then strConvHandleEscape state else some (state.put byte 1)

theorem unescapeLoop_succ (fuel : Nat) (state : Unescape) :
    unescapeLoop (fuel + 1) state =
      if state.buf.len = 0 then (true, state)
      else
        match unescapeRound state with
        | none => (false, state)
        | some next => unescapeLoop fuel next := by
  rw [unescapeLoop, unescapeRound]
  dsimp only
  split_ifs <;> rfl

/-- A state from which another round leads on. -/
def Round (state next : Unescape) : Prop :=
  state.buf.len ≠ 0 ∧ unescapeRound state = some next

abbrev Reaches := Relation.ReflTransGen Round

theorem Round.unescapeLoop {state next : Unescape} (round : Round state next) (fuel : Nat) :
    unescapeLoop (fuel + 1) state = unescapeLoop fuel next := by
  rw [unescapeLoop_succ, if_neg round.1, round.2]

/-- A string that is being unescaped: the bytes in front and those written, the bytes that
were read since, the text that is left, and what stands behind. -/
def scanning (done gap text after : Buffer) : Unescape where
  memory := done ++ (gap ++ (text ++ after))
  buf := ⟨(done ++ gap).length, text.length⟩
  writePtr := done.length

theorem scanning_byte (done gap front : Buffer) (byte : UInt8) (text after : Buffer) :
    (scanning done gap (front ++ byte :: text) after).memory.getD
      ((scanning done gap (front ++ byte :: text) after).buf.data + front.length) 0 = byte := by
  have shape : done ++ (gap ++ (front ++ byte :: text ++ after)) =
      done ++ gap ++ front ++ byte :: (text ++ after) := by
    simp
  change (done ++ (gap ++ (front ++ byte :: text ++ after))).getD
    ((done ++ gap).length + front.length) 0 = byte
  rw [← length_append]
  simp

/-- Writing a byte in place of what was read makes the gap longer by all but one of the
bytes that were read. -/
theorem put_scanning {done gap taken text after : Buffer} (nonempty : taken ≠ [])
    (byte : UInt8) :
    (scanning done gap (taken ++ text) after).put byte taken.length =
      scanning (done ++ [byte]) (gap ++ taken).tail text after := by
  rcases exists_cons_of_ne_nil (append_ne_nil_of_right_ne_nil gap nonempty) with
    ⟨first, others, shape⟩
  have lengths : gap.length + taken.length = others.length + 1 := by
    rw [← length_append, shape, length_cons]
  have written : (done ++ (gap ++ (taken ++ (text ++ after)))).set done.length byte =
      done ++ [byte] ++ (others ++ (text ++ after)) := by
    rw [← append_assoc gap, shape]
    simp
  unfold scanning Unescape.put
  rw [shape, tail_cons, append_assoc taken]
  simp only [store, written, Unescape.mk.injEq, Span.mk.injEq, length_append,
    length_singleton, true_and, and_true]
  omega

theorem round_standsFor {piece : StringPiece} {byte : UInt8} (stands : StandsFor piece byte)
    (done gap text after : Buffer) :
    Round (scanning done gap (piece.text ++ text) after)
      (scanning (done ++ [byte]) (gap ++ piece.text).tail text after) := by
  cases stands with
  | byte plain =>
    have read := scanning_byte done gap [] byte text after
    have put := @put_scanning done gap [byte] text after (cons_ne_nil _ _) byte
    refine ⟨by simp [scanning, StringPiece.text], ?_⟩
    simp only [StringPiece.text, ← put]
    simp only [nil_append, length_nil, Nat.add_zero] at read
    simp only [unescapeRound, singleton_append, read, if_neg plain, length_singleton]
  | @escape letter _ value =>
    have letters : letter ≠ 117 := by
      rintro rfl
      cases value
    have first := scanning_byte done gap [] 92 (letter :: text) after
    have second := scanning_byte done gap [92] letter text after
    have put := @put_scanning done gap [92, letter] text after (cons_ne_nil _ _) byte
    have long : ¬(scanning done gap (92 :: letter :: text) after).buf.len < 2 := by
      simp [scanning]
    refine ⟨by simp [scanning, StringPiece.text], ?_⟩
    simp only [StringPiece.text, ← put]
    simp only [nil_append, length_nil, Nat.add_zero] at first
    simp only [singleton_append, length_singleton] at second
    simp only [unescapeRound, strConvHandleEscape, cons_append, nil_append, first,
      second, long, letters, value, Nat.add_zero, ne_eq, not_true_eq_false, or_self, if_false,
      if_true, Option.map_some, length_cons, length_nil]

/-- The rounds over pieces that stand for a byte each, with something left behind them. -/
theorem scanning_pieces {bytes : Buffer} (stand : List.Forall₂ StandsFor pieces bytes)
    (done gap more after : Buffer) :
    ∃ rest, bytes.length + rest.length = gap.length + (pieces.flatMap StringPiece.text).length ∧
      Reaches (scanning done gap (pieces.flatMap StringPiece.text ++ more) after)
        (scanning (done ++ bytes) rest more after) ∧
      ∀ fuel, unescapeLoop (fuel + pieces.length)
          (scanning done gap (pieces.flatMap StringPiece.text ++ more) after) =
        unescapeLoop fuel (scanning (done ++ bytes) rest more after) := by
  induction stand generalizing done gap with
  | nil =>
    rw [append_nil]
    exact ⟨gap, Nat.add_comm _ _, .refl, fun _ => rfl⟩
  | @cons piece byte pieces bytes stands _ ih =>
    have round := round_standsFor stands done gap (pieces.flatMap StringPiece.text ++ more) after
    rcases ih (done ++ [byte]) (gap ++ piece.text).tail with ⟨rest, length, reaches, loop⟩
    have longer : 0 < piece.text.length := by
      cases piece <;> simp [StringPiece.text]
    rw [length_tail, length_append] at length
    rw [append_assoc, singleton_append] at reaches loop
    rw [flatMap_cons, append_assoc]
    refine ⟨rest, ?_, .head round reaches, ?_⟩
    · rw [length_cons, length_append]
      omega
    · intro fuel
      rw [length_cons, ← Nat.add_assoc, round.unescapeLoop, loop]

theorem unescapeString_eq (before text after : Buffer) :
    unescapeString (before ++ (text ++ after)) ⟨before.length, text.length⟩ =
      let done := unescapeLoop (text.length + (before ++ (text ++ after)).length + 1)
        (scanning before [] text after)
      (if done.1 then some ⟨before.length, done.2.writePtr - before.length⟩ else none,
        done.2.memory) := by
  rw [unescapeString, scanning, append_nil, nil_append]

theorem enough_fuel (pieces : List StringPiece) (more : Nat) :
    ∃ fuel, (pieces.flatMap StringPiece.text).length + more + 1 = fuel + 1 + pieces.length := by
  have counted : pieces.length ≤ (pieces.flatMap StringPiece.text).length :=
    length_le_flatMap fun piece _ => by cases piece <;> simp [StringPiece.text]
  exact ⟨(pieces.flatMap StringPiece.text).length + more - pieces.length, by omega⟩

/-- `unescape_string` gives the bytes that the pieces stand for, and leaves the memory around
them alone. -/
theorem unescapeString_pieces {bytes : Buffer} (stand : List.Forall₂ StandsFor pieces bytes)
    (before after : Buffer) :
    ∃ rest, (bytes ++ rest).length = (pieces.flatMap StringPiece.text).length ∧
      unescapeString (before ++ (pieces.flatMap StringPiece.text ++ after))
          ⟨before.length, (pieces.flatMap StringPiece.text).length⟩ =
        (some ⟨before.length, bytes.length⟩, before ++ (bytes ++ rest ++ after)) := by
  rcases scanning_pieces stand before [] [] after with ⟨rest, length, -, loop⟩
  rw [append_nil] at loop
  rcases enough_fuel pieces (before ++ (pieces.flatMap StringPiece.text ++ after)).length with
    ⟨fuel, enough⟩
  refine ⟨rest, ?_, ?_⟩
  · rw [length_append, length]
    exact Nat.zero_add _
  · rw [unescapeString_eq, enough, loop, unescapeLoop_succ]
    simp [scanning]

end GreengrassLite.Json

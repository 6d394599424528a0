import GreengrassLite.Json.RoundTrip

/-!
# What a decoding answers

For every text the allocator decides whether `ggl_json_decode_destructive` succeeds,
but not what it answers then.
-/

namespace GreengrassLite.Json

open GreengrassLite.Library List

section Determined

variable {σ α β ε : Type} {strtod : Buffer → Option UInt64} {allocator : GglAlloc σ}
  {take : Span → Decoding σ (Span × Node)} {state left : DecodeState σ}
  {takeEntry : Span → Decoding σ (Span × ε)}

/-- A decoding that succeeds answers the same and leaves the same memory with every
allocator. -/
def Determined (decoding : Decoding σ α) : Prop :=
  ∀ ⦃state other left right : DecodeState σ⦄ ⦃result otherResult : α⦄,
    state.memory = other.memory → decoding state = (.ok result, left) →
    decoding other = (.ok otherResult, right) →
    result = otherResult ∧ left.memory = right.memory

/-- A decoding that does not look at the allocator. -/
theorem determined_of_memory {decoding : Decoding σ α}
    (answer : Buffer → Except GglError α × Buffer)
    (same : ∀ state, decoding state =
      ((answer state.memory).1, { state with memory := (answer state.memory).2 })) :
    Determined decoding := by
  intro state other left right result otherResult sameMemory done otherDone
  rw [same] at done otherDone
  rw [← sameMemory] at otherDone
  obtain ⟨answered, rfl⟩ := Prod.mk.inj done
  obtain ⟨otherAnswered, rfl⟩ := Prod.mk.inj otherDone
  exact ⟨Except.ok.inj (answered.symm.trans otherAnswered), rfl⟩

theorem determined_takeChar (c : UInt8) (buf : Span) : Determined (@takeChar σ c buf) := by
  refine determined_of_memory
    (fun memory => ((parserCall (parserChar c) memory buf).elim (.error .parse) .ok, memory))
    fun state => ?_
  rw [takeChar]
  cases parserCall (parserChar c) state.memory buf <;> rfl

theorem determined_takeComma (remaining : Nat) (buf : Span) :
    Determined (@takeComma σ remaining buf) := by
  intro state other left right result otherResult sameMemory done otherDone
  rw [takeComma] at done otherDone
  split at done
  next last =>
    rw [if_pos last] at otherDone
    cases done
    cases otherDone
    exact ⟨rfl, sameMemory⟩
  next more =>
    rw [if_neg more] at otherDone
    exact determined_takeChar 44 buf sameMemory done otherDone

theorem determined_allocateArray (size count : Nat) :
    Determined (allocateArray allocator size count) := by
  have kept : ∀ {state left : DecodeState σ} {result : Unit},
      allocateArray allocator size count state = (.ok result, left) →
      left.memory = state.memory := by
    intro state left result done
    unfold allocateArray at done
    repeat' split at done
    all_goals cases done
    all_goals rfl
  intro state other left right result otherResult sameMemory done otherDone
  exact ⟨rfl, (kept done).trans (sameMemory.trans (kept otherDone).symm)⟩

/-- One decoding after another, unless the first fails. -/
def andThen (first : Decoding σ α) (next : α → Decoding σ β) : Decoding σ β := fun state =>
  match first state with
  | (.error error, state) => (.error error, state)
  | (.ok result, state) => next result state

theorem Determined.andThen {first : Decoding σ α} {next : α → Decoding σ β}
    (determined : Determined first) (later : ∀ result, Determined (next result)) :
    Determined (andThen first next) := by
  intro state other left right result otherResult sameMemory done otherDone
  rw [Json.andThen] at done otherDone
  split at done
  · cases done
  next middle between here =>
    split at otherDone
    · cases otherDone
    next middle' between' there =>
      obtain ⟨rfl, sameMemory⟩ := determined sameMemory here there
      exact later middle sameMemory done otherDone

theorem determined_constant (answer : Except GglError α) :
    Determined fun state : DecodeState σ => (answer, state) :=
  determined_of_memory (fun memory => (answer, memory)) fun _ => rfl

theorem determined_decodeEntries (determined : ∀ buf, Determined (takeEntry buf)) (count : Nat)
    (buf : Span) : Determined (decodeEntries takeEntry count buf) := by
  induction count generalizing buf with
  | zero => exact determined_constant (.ok [])
  | succ remaining ih =>
    have parts : decodeEntries takeEntry (remaining + 1) buf = andThen (takeEntry buf) fun taken =>
        andThen (takeComma remaining taken.1) fun rest =>
          andThen (decodeEntries takeEntry remaining rest) fun entries state =>
            (.ok (taken.2 :: entries), state) := by
      funext state
      rw [decodeEntries, andThen]
      rcases takeEntry buf state with ⟨_ | ⟨taken, entry⟩, first⟩
      · rfl
      dsimp only [andThen]
      rcases takeComma remaining taken first with ⟨_ | rest, second⟩
      · rfl
      dsimp only
      rcases decodeEntries takeEntry remaining rest second with ⟨_ | entries, third⟩ <;> rfl
    rw [parts]
    exact (determined buf).andThen fun taken => (determined_takeComma remaining taken.1).andThen
      fun rest => (ih rest).andThen fun entries => determined_constant _

theorem determined_takePair (determined : ∀ buf, Determined (take buf)) (buf : Span) :
    Determined (takePair take buf) := by
  have parts : takePair take buf = andThen (take buf) fun taken =>
      match taken.2 with
      | .buf key => andThen (takeChar 58 taken.1) fun rest => andThen (take rest) fun last state =>
          (.ok (last.1, (key, last.2)), state)
      | .null | .boolean _ | .i64 _ | .f64 _ | .list _ | .map _ =>
        fun state => (.error .parse, state) := by
    funext state
    rw [takePair, andThen]
    rcases take buf state with ⟨_ | ⟨taken, node⟩, first⟩
    · rfl
    cases node <;> try rfl
    dsimp only [andThen]
    rcases takeChar 58 taken first with ⟨_ | rest, second⟩
    · rfl
    dsimp only
    rcases take rest second with ⟨_ | ⟨last, value⟩, third⟩ <;> rfl
  rw [parts]
  refine (determined buf).andThen fun taken => ?_
  split
  · exact (determined_takeChar 58 taken.1).andThen fun rest =>
      (determined rest).andThen fun last => determined_constant _
  all_goals exact determined_constant _

theorem determined_decodeJsonStr (content : Span) : Determined (@decodeJsonStr σ content) := by
  refine determined_of_memory
    (fun memory => ((unescapeString memory content).1.elim (.error .parse) fun str =>
      .ok (.buf str), (unescapeString memory content).2)) fun state => ?_
  rw [decodeJsonStr]
  rcases unescapeString state.memory content with ⟨none | str, memory⟩ <;> rfl

theorem determined_decodeJsonNumber (content : Span) :
    Determined (@decodeJsonNumber σ strtod content) := by
  refine determined_of_memory
    (fun memory => ((@decodeJsonNumber σ strtod content ⟨memory, none⟩).1, memory)) fun state => ?_
  rw [decodeJsonNumber, decodeJsonNumber]
  cases parserCall parserIntPart state.memory content with
  | none => rfl
  | some buf =>
    dsimp only
    split
    · cases gglStrToInt64 (region state.memory content.data content.len) <;> rfl
    · cases strtod (state.memory.drop content.data) <;> rfl

/-- The entries of a list or a map, and the array they are put in. -/
theorem determined_container {decoding : Decoding σ Node} {size count : Nat} {content : Span}
    {node : List ε → Node} (determined : ∀ buf, Determined (takeEntry buf))
    (parts : decoding = andThen (allocateArray allocator size count) fun _ =>
      andThen (decodeEntries takeEntry count content) fun entries state =>
        (.ok (node entries), state)) : Determined decoding := by
  rw [parts]
  exact (determined_allocateArray size count).andThen fun _ =>
    (determined_decodeEntries determined count content).andThen fun _ => determined_constant _

theorem determined_decodeContent (determined : ∀ buf, Determined (take buf))
    (output : ParseResult) : Determined (decodeContent strtod allocator take output) := by
  obtain ⟨type, content, count⟩ := output
  cases type with
  | str => exact determined_decodeJsonStr content
  | number => exact determined_decodeJsonNumber content
  | object =>
    refine @determined_container _ _ allocator _ _ pairSize count content .map
      (determined_takePair determined) (funext fun state => ?_)
    change decodeJsonObject allocator take content count state = _
    rw [decodeJsonObject, andThen]
    rcases allocateArray allocator pairSize count state with ⟨_ | ⟨⟨⟩⟩, first⟩
    · rfl
    dsimp only [andThen]
    rcases decodeEntries (takePair take) count content first with ⟨_ | _, second⟩ <;> rfl
  | array =>
    refine @determined_container _ _ allocator _ _ objectSize count content .list determined
      (funext fun state => ?_)
    change decodeJsonArray allocator take content count state = _
    rw [decodeJsonArray, andThen]
    rcases allocateArray allocator objectSize count state with ⟨_ | ⟨⟨⟩⟩, first⟩
    · rfl
    dsimp only [andThen]
    rcases decodeEntries take count content first with ⟨_ | _, second⟩ <;> rfl
  | true | false | null => exact determined_constant _

theorem takeJsonVal_succ_eq_ok {levels : Nat} {buf : Span} {result : Span × Node}
    (done : takeJsonVal strtod allocator (levels + 1) buf state = (.ok result, left)) :
    ∃ rest output, parserJsonValue (buf.len + 1) (buf.input state.memory)
        (some ⟨.str, ⟨0, 0⟩, 0⟩) = (some rest, some output) ∧
      decodeContent strtod allocator (takeJsonVal strtod allocator levels) output state =
        (.ok result.2, left) ∧
      result.1 = ⟨rest.data, rest.rest.length⟩ := by
  rw [takeJsonVal] at done
  split at done
  next rest output parsed =>
    split at done
    · cases done
    next node last decoded =>
      cases done
      exact ⟨rest, output, parsed, decoded, rfl⟩
  · cases done

theorem determined_takeJsonVal (levels : Nat) (buf : Span) :
    Determined (takeJsonVal strtod allocator levels buf) := by
  induction levels generalizing buf with
  | zero =>
    intro state other left right result otherResult sameMemory done
    cases done
  | succ levels ih =>
    intro state other left right result otherResult sameMemory done otherDone
    rcases takeJsonVal_succ_eq_ok done with ⟨rest, output, parsed, decoded, span⟩
    rcases takeJsonVal_succ_eq_ok otherDone with ⟨rest', output', parsed', decoded', span'⟩
    rw [← sameMemory, parsed] at parsed'
    cases parsed'
    obtain ⟨sameNode, sameMemory⟩ :=
      determined_decodeContent ih output sameMemory decoded decoded'
    exact ⟨Prod.ext (span.trans span'.symm) sameNode, sameMemory⟩

theorem gglJsonDecodeDestructive_eq_ok {len : Nat} {node : Node}
    (decoded : gglJsonDecodeDestructive strtod allocator len state = (.ok node, left)) :
    ∃ rest, takeJsonVal strtod allocator (len + 1) ⟨0, len⟩ state = (.ok (rest, node), left) := by
  rw [gglJsonDecodeDestructive] at decoded
  split at decoded
  · cases decoded
  next rest taken last here =>
    split at decoded
    · cases decoded
    · cases decoded
      exact ⟨rest, here⟩

/-- Whatever the allocators, two decodings of one text that succeed answer the same object. -/
theorem gglJsonDecodeDestructive_unique {len : Nat} {memory : Buffer} {first second : Option σ}
    {node other : Node} {right : DecodeState σ}
    (decoded : gglJsonDecodeDestructive strtod allocator len ⟨memory, first⟩ = (.ok node, left))
    (otherDecoded : gglJsonDecodeDestructive strtod allocator len ⟨memory, second⟩ =
      (.ok other, right)) :
    node = other ∧ left.memory = right.memory := by
  obtain ⟨rest, taken⟩ := gglJsonDecodeDestructive_eq_ok decoded
  obtain ⟨otherRest, otherTaken⟩ := gglJsonDecodeDestructive_eq_ok otherDecoded
  have memories : (DecodeState.mk memory first).memory = (DecodeState.mk memory second).memory :=
    rfl
  obtain ⟨same, sameMemory⟩ :=
    determined_takeJsonVal (len + 1) ⟨0, len⟩ memories taken otherTaken
  exact ⟨congrArg Prod.snd same, sameMemory⟩

end Determined

end GreengrassLite.Json

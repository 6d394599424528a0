import GreengrassLite.Core.Alloc
import GreengrassLite.Library.Bytes
import Mathlib.Algebra.GroupWithZero.Nat
import Mathlib.Logic.Relation

/-!
# The encoding of objects on the core bus

`core-bus/src/object_serde.c` writes an object as a tag byte and its contents, and reads
it back.  Both directions are loops over a stack of nesting levels: a level stands for a
list or a map that has been begun, and the object itself is the single item of the first
level.

`ggl_deserialize` gives a container its place in the level above at once, and fills the
array behind it later.  Here the container is put into its place when its level ends.
-/

namespace GreengrassLite

open Library List

variable {result : ReadResult}

/-- The value of a member of `GglObjectType`, which is the tag of the encoding. -/
def GglObjectType.tag : GglObjectType → UInt8
  | .null => 0
  | .boolean => 1
  | .i64 => 2
  | .f64 => 3
  | .buf => 4
  | .list => 5
  | .map => 6

/-- The `switch` of `read_obj` over the tag. -/
def GglObjectType.ofTag (tag : UInt8) : Option GglObjectType :=
  [.null, .boolean, .i64, .f64, .buf, .list, .map].find? fun type => type.tag = tag

/-- `push_parse_state`. -/
def pushParseState {Level : Type} (levels : List Level) (level : Level) :
    Except GglError (List Level) :=
  if maxObjectDepth ≤ levels.length then .error .range else .ok (level :: levels)

/-! ## `ggl_serialize` -/

/-- `NestingLevel` while an object is written, with what is left of its list or map. -/
inductive WriteLevel where
  | handlingObj (objNext : List GglObject)
  | handlingKv (kvNext : GglMap)

/-- The bytes written so far and the `NestingState`, the innermost level first. -/
structure WriteState where
  written : Buffer
  levels : List WriteLevel

section Write

variable (mem : Nat)

variable (written : Buffer)

/-- `write_bool`. -/
def writeBool (boolean : Bool) : Except GglError Buffer :=
  bumpWrite mem written [if boolean then 1 else 0]

/-- `write_i64`. -/
def writeI64 (i64 : Int) : Except GglError Buffer :=
  bumpWrite mem written (leBytes 8 (twosComplement 64 i64))

/-- `write_f64`. -/
def writeF64 (f64 : UInt64) : Except GglError Buffer :=
  bumpWrite mem written (leBytes 8 f64.toNat)

/-- `write_buf`. -/
def writeBuf (buffer : Buffer) : Except GglError Buffer :=
  if buffer.length > uint32Max then .error .range
  else bumpWrite mem written (leBytes 4 buffer.length ++ buffer)

variable (state : WriteState)

/-- What `write_list` and `write_map` have in common: the length, and a level for the
`len` items. -/
def writeContainer (len : Nat) (level : WriteLevel) : Except GglError WriteState :=
  if len > uint32Max then .error .range
  else do
    let written ← bumpWrite mem state.written (leBytes 4 len)
    let levels ← pushParseState state.levels level
    return ⟨written, levels⟩

/-- `write_list`. -/
def writeList (list : List GglObject) : Except GglError WriteState :=
  writeContainer mem state list.length (.handlingObj list)

/-- `write_map`. -/
def writeMap (map : GglMap) : Except GglError WriteState :=
  writeContainer mem state map.length (.handlingKv map)

/-- `write_obj`. -/
def writeObj (obj : GglObject) : Except GglError WriteState := do
  let written ← bumpWrite mem state.written [obj.type.tag]
  match obj with
  | .null => return ⟨written, state.levels⟩
  | .boolean boolean => return ⟨← writeBool mem written boolean, state.levels⟩
  | .i64 i64 => return ⟨← writeI64 mem written i64, state.levels⟩
  | .f64 f64 => return ⟨← writeF64 mem written f64, state.levels⟩
  | .buf buf => return ⟨← writeBuf mem written buf, state.levels⟩
  | .list list => writeList mem ⟨written, state.levels⟩ list
  | .map map => writeMap mem ⟨written, state.levels⟩ map

/-- One round of the loop of `ggl_serialize`.  The item or pair is taken off its level
before it is written; the level is not looked at in between. -/
def serializeRound (levels : List WriteLevel) : WriteLevel → Except GglError WriteState
  | .handlingObj [] => .ok ⟨written, levels⟩
  | .handlingKv [] => .ok ⟨written, levels⟩
  | .handlingObj (obj :: objNext) => writeObj mem ⟨written, .handlingObj objNext :: levels⟩ obj
  | .handlingKv ((key, val) :: kvNext) => do
    let written ← writeBuf mem written key
    writeObj mem ⟨written, .handlingKv kvNext :: levels⟩ val

end Write

mutual

/-- The rounds it takes to write an object: one for itself, and for a container one for
each of its entries and one to end its level. -/
def GglObject.rounds : GglObject → Nat
  | .list items => 2 + itemRounds items
  | .map pairs => 2 + pairRounds pairs
  | _ => 1

def GglObject.itemRounds : List GglObject → Nat
  | [] => 0
  | item :: items => item.rounds + itemRounds items

def GglObject.pairRounds : GglMap → Nat
  | [] => 0
  | (_, value) :: pairs => value.rounds + pairRounds pairs

end

/-- The rounds that a level still takes. -/
def WriteLevel.rounds : WriteLevel → Nat
  | .handlingObj objNext => 1 + GglObject.itemRounds objNext
  | .handlingKv kvNext => 1 + GglObject.pairRounds kvNext

/-- The rounds that are left. -/
def writeRounds (levels : List WriteLevel) : Nat :=
  (levels.map WriteLevel.rounds).sum

@[simp]
theorem writeRounds_cons (level : WriteLevel) (levels : List WriteLevel) :
    writeRounds (level :: levels) = level.rounds + writeRounds levels :=
  rfl

section Termination

variable {mem : Nat} {written : Buffer} {levels : List WriteLevel}

/-- A container gets a level, and nothing else does. -/
theorem writeContainer_levels {state next : WriteState} {len : Nat} {level : WriteLevel}
    (begun : writeContainer mem state len level = .ok next) :
    next.levels = level :: state.levels := by
  rw [writeContainer] at begun
  split at begun
  · cases begun
  · rcases except_bind_eq_ok_iff.mp begun with ⟨_, _, pushed⟩
    rcases except_bind_eq_ok_iff.mp pushed with ⟨levels, taken, ended⟩
    cases ended
    rw [pushParseState] at taken
    split at taken
    · cases taken
    · cases taken
      rfl

theorem writeObj_rounds {state next : WriteState} {obj : GglObject}
    (wrote : writeObj mem state obj = .ok next) :
    writeRounds next.levels + 1 = obj.rounds + writeRounds state.levels := by
  rw [writeObj] at wrote
  rcases except_bind_eq_ok_iff.mp wrote with ⟨tagged, _, rest⟩
  cases obj with
  | null =>
    cases rest
    exact Nat.add_comm _ _
  | boolean | i64 | f64 | buf =>
    rcases except_bind_eq_ok_iff.mp rest with ⟨_, _, ended⟩
    cases ended
    exact Nat.add_comm _ _
  | list list =>
    change writeList mem ⟨tagged, state.levels⟩ list = .ok next at rest
    rw [writeList] at rest
    rw [writeContainer_levels rest]
    change writeRounds (.handlingObj list :: state.levels) + 1 = _
    rw [writeRounds_cons, WriteLevel.rounds, GglObject.rounds]
    omega
  | map map =>
    change writeMap mem ⟨tagged, state.levels⟩ map = .ok next at rest
    rw [writeMap] at rest
    rw [writeContainer_levels rest]
    change writeRounds (.handlingKv map :: state.levels) + 1 = _
    rw [writeRounds_cons, WriteLevel.rounds, GglObject.rounds]
    omega

/-- A round is one of the rounds that are left. -/
theorem serializeRound_rounds {level : WriteLevel} {next : WriteState}
    (went : serializeRound mem written levels level = .ok next) :
    writeRounds next.levels + 1 = writeRounds (level :: levels) := by
  rw [writeRounds_cons]
  cases level with
  | handlingObj objNext =>
    cases objNext with
    | nil =>
      cases went
      exact Nat.add_comm _ _
    | cons obj objNext =>
      rw [writeObj_rounds went, writeRounds_cons, WriteLevel.rounds, WriteLevel.rounds,
        GglObject.itemRounds]
      omega
  | handlingKv kvNext =>
    cases kvNext with
    | nil =>
      cases went
      exact Nat.add_comm _ _
    | cons pair kvNext =>
      rcases except_bind_eq_ok_iff.mp went with ⟨_, _, wrote⟩
      rw [writeObj_rounds wrote, writeRounds_cons, WriteLevel.rounds, WriteLevel.rounds,
        GglObject.pairRounds]
      omega

end Termination

/-- The loop of `ggl_serialize`. -/
def serializeLoop (mem : Nat) : WriteState → Except GglError Buffer
  | ⟨written, []⟩ => .ok written
  | ⟨written, level :: levels⟩ =>
    match _went : serializeRound mem written levels level with
    | .error error => .error error
    | .ok next => serializeLoop mem next
termination_by state => writeRounds state.levels
decreasing_by
  have left := serializeRound_rounds _went
  exact Nat.lt_of_succ_le (Nat.le_of_eq left)

/-- `ggl_serialize` into a buffer of `mem` bytes. -/
def gglSerialize (obj : GglObject) (mem : Nat) : Except GglError Buffer :=
  serializeLoop mem ⟨[], [.handlingObj [obj]]⟩

/-! ## `ggl_deserialize` -/

/-- The rest of the buffer and the allocator, which may be missing.  The bytes that were
read as booleans are noted. -/
structure ReadState (σ : Type) where
  buf : Buffer
  alloc : Option σ
  booleans : List UInt8

abbrev Decode (σ α : Type) := ReadState σ → Except GglError (α × ReadState σ)

/-- `NestingLevel` while an object is read: what its list or map holds so far, the key of
the pair that is being read, and how many items or pairs are missing. -/
inductive ReadLevel where
  | handlingObj (items : List GglObject) (remaining : Nat)
  | handlingKv (pairs : GglMap) (key : Buffer) (remaining : Nat)

/-- The next item of a level. -/
def ReadLevel.store : ReadLevel → GglObject → ReadLevel
  | .handlingObj items remaining, obj => .handlingObj (items ++ [obj]) remaining
  | .handlingKv pairs key remaining, obj => .handlingKv (pairs ++ [(key, obj)]) key remaining

/-- The container that a level has read. -/
def ReadLevel.container : ReadLevel → GglObject
  | .handlingObj items _ => .list items
  | .handlingKv pairs _ _ => .map pairs

/-- The object at the beginning of a level: the first level has no other. -/
def ReadLevel.firstItem : ReadLevel → GglObject
  | .handlingObj items _ => items.headD .null
  | .handlingKv _ _ _ => .null

/-- What `read_obj` finds: an object, or a container whose level has been begun. -/
inductive ReadResult where
  | finished (obj : GglObject)
  | begun (level : ReadLevel)

section Read

variable {σ : Type} (allocator : GglAlloc σ) (copyBufs : Bool)

/-- `buf_take`. -/
def bufTake (n : Nat) : Decode σ Buffer := fun state =>
  if n > state.buf.length then .error .parse
  else .ok (state.buf.take n, { state with buf := state.buf.drop n })

/-- `GGL_ALLOCN`.  Its assertion that there is an allocator ends the process; the error
stands for that. -/
def allocate (size alignment n : Nat) : Decode σ Unit := fun state =>
  match state.alloc with
  | none => .error .fatal
  | some memory =>
    match allocator.alloc memory (n * size) alignment with
    | none => .error .nomem
    | some memory => .ok ((), { state with alloc := some memory })

/-- `read_bool`. -/
def readBool : Decode σ ReadResult := fun state => do
  let (temp, state) ← bufTake 1 state
  let byte := temp.headD 0
  return (.finished (.boolean (byte ≠ 0)), { state with booleans := byte :: state.booleans })

/-- `read_i64`. -/
def readI64 : Decode σ ReadResult := fun state => do
  let (temp, state) ← bufTake 8 state
  return (.finished (.i64 (ofTwosComplement 64 (leNat temp))), state)

/-- `read_f64`. -/
def readF64 : Decode σ ReadResult := fun state => do
  let (temp, state) ← bufTake 8 state
  return (.finished (.f64 (UInt64.ofNat (leNat temp))), state)

/-- `read_buf_raw`. -/
def readBufRaw : Decode σ Buffer := fun state => do
  let (temp, state) ← bufTake 4 state
  let (bytes, state) ← bufTake (leNat temp) state
  if copyBufs then
    let (_, state) ← allocate allocator 1 1 (leNat temp) state
    return (bytes, state)
  else return (bytes, state)

/-- `read_buf`. -/
def readBuf : Decode σ ReadResult := fun state => do
  let (val, state) ← readBufRaw allocator copyBufs state
  return (.finished (.buf val), state)

/-- What `read_list` and `read_map` have in common: the array is allocated and its level
begun, unless it is empty. -/
def readContainer (levels size : Nat) (empty : GglObject) (level : Nat → ReadLevel) :
    Decode σ ReadResult := fun state => do
  let (temp, state) ← bufTake 4 state
  if leNat temp > 0 then
    match state.alloc with
    | none => .error .nomem
    | some _ =>
      let (_, state) ← allocate allocator size 8 (leNat temp) state
      -- `push_parse_state`
      if maxObjectDepth ≤ levels then .error .range
      else return (.begun (level (leNat temp)), state)
  else return (.finished empty, state)

/-- `read_list` below `levels` levels. -/
def readList (levels : Nat) : Decode σ ReadResult :=
  readContainer allocator levels objectSize (.list []) (.handlingObj [])

/-- `read_map` below `levels` levels. -/
def readMap (levels : Nat) : Decode σ ReadResult :=
  readContainer allocator levels pairSize (.map []) (.handlingKv [] [])

/-- The cases of the `switch` of `read_obj`. -/
def readContents (levels : Nat) : GglObjectType → Decode σ ReadResult
  | .null => fun state => return (.finished .null, state)
  | .boolean => readBool
  | .i64 => readI64
  | .f64 => readF64
  | .buf => readBuf allocator copyBufs
  | .list => readList allocator levels
  | .map => readMap allocator levels

/-- `read_obj` below `levels` levels. -/
def readObj (levels : Nat) : Decode σ ReadResult := fun state => do
  let (temp, state) ← bufTake 1 state
  match GglObjectType.ofTag (temp.headD 0) with
  | none => .error .invalid
  | some type => readContents allocator copyBufs levels type state

/-- The innermost level after `read_obj`, and those below it. -/
def ReadResult.enter (level : ReadLevel) (levels : List ReadLevel) :
    ReadResult → ReadLevel × List ReadLevel
  | .finished obj => (level.store obj, levels)
  | .begun inner => (inner, level :: levels)

/-- The round of the loop of `ggl_deserialize` that reads an item or a pair of the
innermost level; `none` if it has no more. -/
def readEntry (levels : List ReadLevel) :
    ReadLevel → Option (Decode σ (ReadLevel × List ReadLevel))
  | .handlingObj _ 0 => none
  | .handlingKv _ _ 0 => none
  | .handlingObj items (remaining + 1) => some fun state => do
    let (result, state) ← readObj allocator copyBufs (levels.length + 1) state
    return (result.enter (.handlingObj items remaining) levels, state)
  | .handlingKv pairs _ (remaining + 1) => some fun state => do
    let (key, state) ← readBufRaw allocator copyBufs state
    let (result, state) ← readObj allocator copyBufs (levels.length + 1) state
    return (result.enter (.handlingKv pairs key remaining) levels, state)

end Read

/-! Every item takes at least its tag off the buffer. -/

section Lengths

variable {σ : Type} {allocator : GglAlloc σ} {copyBufs : Bool} {state after : ReadState σ}

theorem bufTake_eq_ok {n : Nat} {temp : Buffer} (took : bufTake n state = .ok (temp, after)) :
    temp.length = n ∧ state = { after with buf := temp ++ after.buf } := by
  rw [bufTake] at took
  split at took
  · cases took
  next enough =>
    cases took
    refine ⟨length_take_of_le (Nat.le_of_not_lt enough), ?_⟩
    rw [take_append_drop]

theorem bufTake_suffix {n : Nat} {temp : Buffer} (took : bufTake n state = .ok (temp, after)) :
    after.buf <:+ state.buf := by
  rcases bufTake_eq_ok took with ⟨-, rfl⟩
  exact suffix_append _ _

theorem allocate_eq_ok {size alignment n : Nat} {result : Unit}
    (allocated : allocate allocator size alignment n state = .ok (result, after)) :
    after.buf = state.buf ∧ after.booleans = state.booleans := by
  rw [allocate] at allocated
  split at allocated
  · cases allocated
  · split at allocated
    · cases allocated
    · cases allocated
      exact ⟨rfl, rfl⟩

theorem readBufRaw_suffix {bytes : Buffer}
    (read : readBufRaw allocator copyBufs state = .ok (bytes, after)) :
    after.buf <:+ state.buf := by
  rcases except_bind_eq_ok_iff.mp read with ⟨⟨temp, middle⟩, first, rest⟩
  rcases except_bind_eq_ok_iff.mp rest with ⟨⟨bytes, last⟩, second, rest⟩
  have taken := (bufTake_suffix second).trans (bufTake_suffix first)
  dsimp only at rest
  split at rest
  · rcases except_bind_eq_ok_iff.mp rest with ⟨⟨_, allocated⟩, third, ended⟩
    cases ended
    rwa [(allocate_eq_ok third).1]
  · cases rest
    exact taken

/-- A level is begun only below the limit. -/
def ReadResult.Bounded (levels : Nat) (result : ReadResult) : Prop :=
  ∀ level, result = .begun level → levels < maxObjectDepth

theorem ReadResult.bounded_finished {levels : Nat} {obj : GglObject} :
    (ReadResult.finished obj).Bounded levels := by
  rintro level ⟨⟩

theorem readContainer_suffix {levels size : Nat} {empty : GglObject} {level : Nat → ReadLevel}
    (read : readContainer allocator levels size empty level state = .ok (result, after)) :
    after.buf <:+ state.buf ∧ result.Bounded levels := by
  rcases except_bind_eq_ok_iff.mp read with ⟨⟨temp, middle⟩, first, rest⟩
  have taken := bufTake_suffix first
  dsimp only at rest
  split at rest
  · split at rest
    · cases rest
    · rcases except_bind_eq_ok_iff.mp rest with ⟨⟨_, allocated⟩, second, rest⟩
      dsimp only at rest
      split at rest
      · cases rest
      next free =>
        cases rest
        rw [(allocate_eq_ok second).1]
        exact ⟨taken, fun _ _ => Nat.lt_of_not_le free⟩
  · cases rest
    exact ⟨taken, ReadResult.bounded_finished⟩

theorem readContents_suffix {levels : Nat} {type : GglObjectType}
    (read : readContents allocator copyBufs levels type state = .ok (result, after)) :
    after.buf <:+ state.buf ∧ result.Bounded levels := by
  cases type with
  | null =>
    cases read
    exact ⟨suffix_rfl, ReadResult.bounded_finished⟩
  | boolean =>
    rcases except_bind_eq_ok_iff.mp read with ⟨⟨_, last⟩, took, ended⟩
    have shorter := bufTake_suffix took
    cases ended
    exact ⟨shorter, ReadResult.bounded_finished⟩
  | i64 | f64 =>
    rcases except_bind_eq_ok_iff.mp read with ⟨⟨_, last⟩, took, ended⟩
    cases ended
    exact ⟨bufTake_suffix took, ReadResult.bounded_finished⟩
  | buf =>
    rcases except_bind_eq_ok_iff.mp read with ⟨⟨_, last⟩, took, ended⟩
    cases ended
    exact ⟨readBufRaw_suffix took, ReadResult.bounded_finished⟩
  | list | map => exact readContainer_suffix read

section

variable {levels : Nat} (read : readObj allocator copyBufs levels state = .ok (result, after))

include read

theorem readObj_eq_ok :
    ∃ (type : GglObjectType) (buf : Buffer), state.buf = type.tag :: buf ∧
      readContents allocator copyBufs levels type { state with buf := buf } =
        .ok (result, after) := by
  rcases except_bind_eq_ok_iff.mp read with ⟨⟨temp, middle⟩, took, rest⟩
  rcases bufTake_eq_ok took with ⟨single, rfl⟩
  rcases length_eq_one_iff.mp single with ⟨tag, rfl⟩
  dsimp only [headD_cons] at rest
  split at rest
  · cases rest
  next type isType =>
    refine ⟨type, middle.buf, ?_, rest⟩
    have same := find?_some isType
    rw [of_decide_eq_true same]
    rfl

theorem readObj_suffix :
    after.buf <:+ state.buf ∧ after.buf.length < state.buf.length ∧ result.Bounded levels := by
  rcases readObj_eq_ok read with ⟨type, buf, tagged, contents⟩
  rcases readContents_suffix contents with ⟨taken, bounded⟩
  rw [tagged]
  exact ⟨taken.trans (suffix_cons _ _), Nat.lt_succ_of_le taken.length_le, bounded⟩

end

section

variable {level next : ReadLevel} {levels outer : List ReadLevel}
  {entry : Decode σ (ReadLevel × List ReadLevel)}
  (isEntry : readEntry allocator copyBufs levels level = some entry)
  (read : entry state = .ok ((next, outer), after))

include isEntry read

/-- An entry takes bytes off the buffer, and begins at most one level, below the limit. -/
theorem readEntry_eq_ok :
    after.buf <:+ state.buf ∧ after.buf.length < state.buf.length ∧
      (outer = levels ∨ outer.length = levels.length + 1 ∧ outer.length < maxObjectDepth) := by
  have entered : ∀ {result : ReadResult} {level : ReadLevel}, result.Bounded (levels.length + 1) →
      result.enter level levels = (next, outer) →
      outer = levels ∨ outer.length = levels.length + 1 ∧ outer.length < maxObjectDepth := by
    intro result level bounded same
    cases result with
    | finished obj =>
      cases same
      exact .inl rfl
    | begun inner =>
      cases same
      exact .inr ⟨rfl, bounded _ rfl⟩
  cases level with
  | handlingObj items remaining =>
    cases remaining with
    | zero => cases isEntry
    | succ remaining =>
      cases isEntry
      rcases except_bind_eq_ok_iff.mp read with ⟨⟨result, last⟩, readItem, ended⟩
      rcases readObj_suffix readItem with ⟨taken, less, bounded⟩
      rcases Prod.mk.inj (Except.ok.inj ended) with ⟨same, rfl⟩
      exact ⟨taken, less, entered bounded same⟩
  | handlingKv pairs key remaining =>
    cases remaining with
    | zero => cases isEntry
    | succ remaining =>
      cases isEntry
      rcases except_bind_eq_ok_iff.mp read with ⟨⟨key, middle⟩, readKey, rest⟩
      rcases except_bind_eq_ok_iff.mp rest with ⟨⟨result, last⟩, readValue, ended⟩
      have keyTaken := readBufRaw_suffix readKey
      rcases readObj_suffix readValue with ⟨taken, less, bounded⟩
      rcases Prod.mk.inj (Except.ok.inj ended) with ⟨same, rfl⟩
      exact ⟨taken.trans keyTaken, Nat.lt_of_lt_of_le less keyTaken.length_le,
        entered bounded same⟩

theorem readEntry_measure_lt :
    2 * after.buf.length + outer.length < 2 * state.buf.length + levels.length := by
  rcases readEntry_eq_ok isEntry read with ⟨-, less, rfl | ⟨longer, -⟩⟩
  · exact Nat.add_lt_add_right (Nat.mul_lt_mul_of_pos_left less Nat.two_pos) _
  · omega

end

end Lengths

/-- The loop of `ggl_deserialize` with the innermost level and those below it.  It ends
with the first level. -/
def deserializeLoop {σ : Type} (allocator : GglAlloc σ) (copyBufs : Bool) (level : ReadLevel)
    (levels : List ReadLevel) (state : ReadState σ) : Except GglError (ReadLevel × ReadState σ) :=
  match _isEntry : readEntry allocator copyBufs levels level with
  | none =>
    match levels with
    | [] => .ok (level, state)
    | outer :: levels =>
      deserializeLoop allocator copyBufs (outer.store level.container) levels state
  | some entry =>
    match _read : entry state with
    | .error error => .error error
    | .ok ((next, outer), after) => deserializeLoop allocator copyBufs next outer after
termination_by 2 * state.buf.length + levels.length
decreasing_by
  · simp
  · exact readEntry_measure_lt _isEntry _read

/-- What a successful `ggl_deserialize` leaves. -/
structure Deserialized (σ : Type) where
  obj : GglObject
  alloc : Option σ
  booleans : List UInt8

/-- `ggl_deserialize`. -/
def gglDeserialize {σ : Type} (allocator : GglAlloc σ) (alloc : Option σ) (copyBufs : Bool)
    (buf : Buffer) : Except GglError (Deserialized σ) := do
  let (level, state) ← deserializeLoop allocator copyBufs (.handlingObj [] 1) [] ⟨buf, alloc, []⟩
  -- no trailing data
  if state.buf.length ≠ 0 then .error .parse
  else return ⟨level.firstItem, state.alloc, state.booleans⟩

/-! ## The rounds of the loop -/

section Rounds

open Relation

variable {σ : Type} (allocator : GglAlloc σ) (copyBufs : Bool)

/-- The innermost level, those below it, and the input that is left. -/
abbrev LoopHead (σ : Type) := ReadLevel × List ReadLevel × ReadState σ

/-- A round of the loop of `ggl_deserialize` that the loop goes on from. -/
inductive DeserializeRound : LoopHead σ → LoopHead σ → Prop
  | ended {level outer levels state}
    (noEntry : readEntry allocator copyBufs (outer :: levels) level = none) :
    DeserializeRound (level, outer :: levels, state) (outer.store level.container, levels, state)
  | read {level levels state next outer after entry}
    (isEntry : readEntry allocator copyBufs levels level = some entry)
    (read : entry state = .ok ((next, outer), after)) :
    DeserializeRound (level, levels, state) (next, outer, after)

theorem wellFounded_deserializeRound :
    WellFounded fun next head => DeserializeRound allocator copyBufs head next := by
  apply Subrelation.wf _ (measure fun head => 2 * head.2.2.buf.length + head.2.1.length).wf
  rintro _ _ (_ | ⟨isEntry, read⟩)
  · exact Nat.lt_succ_self _
  · exact readEntry_measure_lt isEntry read

variable {allocator copyBufs}

theorem DeserializeRound.suffix {head next : LoopHead σ}
    (round : DeserializeRound allocator copyBufs head next) :
    next.2.2.buf <:+ head.2.2.buf := by
  cases round with
  | ended => exact suffix_rfl
  | read isEntry read => exact (readEntry_eq_ok isEntry read).1

theorem DeserializeRound.levels_lt {head next : LoopHead σ}
    (round : DeserializeRound allocator copyBufs head next)
    (bounded : head.2.1.length < maxObjectDepth) : next.2.1.length < maxObjectDepth := by
  cases round with
  | ended => exact Nat.lt_of_succ_lt bounded
  | read isEntry read =>
    rcases readEntry_eq_ok isEntry read with ⟨-, -, rfl | ⟨-, below⟩⟩
    · exact bounded
    · exact below

theorem rounds_deserializeLoop {level final : ReadLevel} {levels : List ReadLevel}
    {state after : ReadState σ}
    (looped : deserializeLoop allocator copyBufs level levels state = .ok (final, after)) :
    ReflTransGen (DeserializeRound allocator copyBufs) (level, levels, state)
      (final, [], after) := by
  fun_induction deserializeLoop with
  | case1 =>
    cases looped
    rfl
  | case2 level state outer levels noEntry ih => exact .head (.ended noEntry) (ih looped)
  | case3 => cases looped
  | case4 level levels state entry isEntry next outer after read ih =>
    exact .head (.read isEntry read) (ih looped)

end Rounds

end GreengrassLite

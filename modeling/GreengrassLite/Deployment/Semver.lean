import GreengrassLite.Core.Vector

/-!
# Version requirements

`is_in_range` of `ggl-semver/src/semver.c` checks a version against constraints
such as `>=1.0.0 <2.0.0`.  It copies one constraint at a time into a buffer of
`NAME_MAX` bytes, and compares with `strverscmp` of the C library.

The dependency resolution joins requirements with a space.  The main result
here is that a version is in the joined range exactly when it is in both, for
requirements that do not begin or end with a space.
-/

namespace GreengrassLite.Deployment

open List

/-- `NAME_MAX`. -/
def nameMax : Nat := 255

/-- The byte that separates constraints. -/
def space : UInt8 := 32

/-- `isdigit`. -/
def isDigit (byte : UInt8) : Bool :=
  48 ≤ byte && byte ≤ 57

/-- The string a C function reads from a buffer: it ends at a zero byte. -/
def cString (bytes : Buffer) : Buffer :=
  bytes.takeWhile fun byte => byte ≠ 0

/-! ## `strverscmp` -/

/-- How `strverscmp` classifies a byte. -/
inductive ByteClass where
  | other
  | digit
  | zero
  deriving DecidableEq, Repr

/-- The class of a byte. -/
def classify (byte : UInt8) : ByteClass :=
  if byte = 48 then .zero else if isDigit byte then .digit else .other

/-- What `strverscmp` has just read: no digits, an integral part, a fractional
part, or leading zeros only. -/
inductive ScanState where
  | normal
  | integral
  | fractional
  | zeros
  deriving DecidableEq, Repr

/-- The state after one more common byte. -/
def ScanState.next : ScanState → ByteClass → ScanState
  | _, .other => .normal
  | .normal, .digit => .integral
  | .normal, .zero => .zeros
  | .integral, _ => .integral
  | .fractional, _ => .fractional
  | .zeros, .digit => .fractional
  | .zeros, .zero => .zeros

/-- How the first differing bytes decide a comparison. -/
inductive Verdict where
  | bytes
  | length
  | less
  | greater
  deriving DecidableEq, Repr

/-- The verdict for two differing bytes of these classes. -/
def ScanState.verdict : ScanState → ByteClass → ByteClass → Verdict
  | .normal, .digit, .digit => .length
  | .normal, _, _ => .bytes
  | .integral, .other, .other => .bytes
  | .integral, .other, _ => .less
  | .integral, _, .other => .greater
  | .integral, _, _ => .length
  | .fractional, _, _ => .bytes
  | .zeros, .other, .other => .bytes
  | .zeros, .other, _ => .greater
  | .zeros, _, .other => .less
  | .zeros, _, _ => .bytes

/-- The longer run of digits is greater, and runs of equal length differ as
their first differing bytes do. -/
def compareRuns (difference : Int) : Buffer → Buffer → Int
  | [], second => if (second.head?.map isDigit).getD false then -1 else difference
  | byte :: first, second =>
    if isDigit byte then
      match second with
      | [] => 1
      | other :: second => if isDigit other then compareRuns difference first second else 1
    else if (second.head?.map isDigit).getD false then -1 else difference

/-- The result of two differing bytes and what follows them. -/
def compareDiffering (state : ScanState) (byte other : UInt8) (first second : Buffer) : Int :=
  let difference : Int := byte.toNat - other.toNat
  match state.verdict (classify byte) (classify other) with
  | .bytes => difference
  | .length => compareRuns difference first second
  | .less => -1
  | .greater => 1

/-- `strverscmp` from a state on, where a string ends with its list. -/
def strverscmpFrom : ScanState → Buffer → Buffer → Int
  | _, [], [] => 0
  | state, [], other :: second => compareDiffering state 0 other [] second
  | state, byte :: first, [] => compareDiffering state byte 0 first []
  | state, byte :: first, other :: second =>
    if byte = other then strverscmpFrom (state.next (classify byte)) first second
    else compareDiffering state byte other first second

/-- `strverscmp`. -/
def strverscmp (first second : Buffer) : Int :=
  strverscmpFrom .normal (cString first) (cString second)

example : strverscmp (gglStr "1.9.0") (gglStr "1.10.0") < 0 := by decide

/-! ## Ranges -/

section Comparison

variable (compare : Buffer → Buffer → Int)

/-- `process_version`, where the requirement is followed by a zero byte. -/
def processVersionBy (requirement version : Buffer) : Bool :=
  match requirement with
  | [] => false
  | first :: rest =>
    if first = 62 then
      if rest.head? = some 61 then 0 ≤ compare version rest.tail
      else 0 < compare version rest
    else if first = 60 then
      if rest.head? = some 61 then compare version rest.tail ≤ 0
      else compare version rest < 0
    else
      (first = 61 && compare version rest = 0) ||
        (isDigit first && compare version (first :: rest) = 0)

/-- A constraint is terminated by a zero byte, for which there must be room, and
then checked. -/
def checkConstraintBy (version : Buffer) (work : Vec UInt8 nameMax) : Bool :=
  match gglByteVecAppend work [0] with
  | .error _ => false
  | .ok _ => processVersionBy compare work.items version

/-- The buffer with the first byte of a constraint. -/
def startConstraint (byte : UInt8) : Vec UInt8 nameMax :=
  ⟨[byte], Nat.le_of_ble_eq_true rfl⟩

/-- The answer of `is_in_range`, and whether the byte behind the requirement was read. -/
structure RangeCheck where
  inRange : Bool
  readBehind : Bool
  deriving DecidableEq, Repr

/-- The answer no, from the requirement alone. -/
def RangeCheck.refused : RangeCheck :=
  ⟨false, false⟩

/-- The answer yes, from the requirement alone. -/
def RangeCheck.granted : RangeCheck :=
  ⟨true, false⟩

/-- The loop of `is_in_range` and the check behind it.  After a space the next
byte is copied whatever it is; `behind` is the byte behind the requirement,
which is read when the requirement ends with a space. -/
def scanRequirementsBy (behind : UInt8) (version : Buffer) :
    Buffer → Vec UInt8 nameMax → RangeCheck
  | [], work => ⟨if work.items = [] then true else checkConstraintBy compare version work, false⟩
  | byte :: rest, work =>
    if byte = space then
      if checkConstraintBy compare version work then
        match rest with
        | [] => ⟨checkConstraintBy compare version (startConstraint behind), true⟩
        | following :: rest =>
          scanRequirementsBy behind version rest (startConstraint following)
      else
        .refused
    else
      match gglByteVecAppend work [byte] with
      | .error _ => .refused
      | .ok work => scanRequirementsBy behind version rest work

/-- `is_in_range` over any comparison. -/
def isInRangeBy (behind : UInt8) (version requirements : Buffer) : RangeCheck :=
  match gglByteVecAppend (Vec.empty UInt8 nameMax) version >>= (gglByteVecAppend · [0]) with
  | .error _ => .refused
  | .ok _ =>
    scanRequirementsBy compare behind version requirements (Vec.empty UInt8 nameMax)

end Comparison

/-- `is_in_range`. -/
def isInRange (pastEnd : UInt8) (version requirements : Buffer) : Bool :=
  (isInRangeBy strverscmp pastEnd version requirements).inRange

example : isInRange 0 (gglStr "1.4.0") (gglStr ">=1.0.0 <2.0.0") = true := by decide +kernel

/-! ## Joined requirements -/

/-- A requirement that can be joined with others: it neither begins nor ends
with a space, and is not empty. -/
structure Joinable (requirement : Buffer) : Prop where
  starts : ∃ first rest, requirement = first :: rest ∧ first ≠ space
  ends : ∃ front last, requirement = front ++ [last] ∧ last ≠ space

/-- Two requirements with a space between them. -/
def joinRequirements (first second : Buffer) : Buffer :=
  first ++ space :: second

theorem Joinable.join {first second : Buffer} (firstJoinable : Joinable first)
    (secondJoinable : Joinable second) : Joinable (joinRequirements first second) := by
  rcases firstJoinable.starts with ⟨byte, rest, rfl, notSpace⟩
  rcases secondJoinable.ends with ⟨front, last, rfl, lastNotSpace⟩
  constructor
  · exact ⟨byte, rest ++ space :: (front ++ [last]), rfl, notSpace⟩
  · exact ⟨byte :: rest ++ space :: front, last, by simp [joinRequirements], lastNotSpace⟩

section Scan

variable {compare : Buffer → Buffer → Int} {behind : UInt8} {version : Buffer}

@[simp]
theorem inRange_scanRequirementsBy_space (following : UInt8) (rest : Buffer)
    (work : Vec UInt8 nameMax) :
    (scanRequirementsBy compare behind version (space :: following :: rest) work).inRange =
      (checkConstraintBy compare version work &&
        (scanRequirementsBy compare behind version rest (startConstraint following)).inRange) := by
  cases met : checkConstraintBy compare version work <;>
    simp [scanRequirementsBy, met, RangeCheck.refused]

@[simp]
theorem scanRequirementsBy_of_ne_space {byte : UInt8} (rest : Buffer) (work : Vec UInt8 nameMax)
    (notSpace : byte ≠ space) :
    scanRequirementsBy compare behind version (byte :: rest) work =
      match gglByteVecAppend work [byte] with
      | .error _ => .refused
      | .ok work => scanRequirementsBy compare behind version rest work := by
  cases rest <;> simp [scanRequirementsBy, notSpace]

/-- Behind a constraint and a space the scan of a requirement starts afresh. -/
theorem inRange_scanRequirementsBy_join {second : Buffer} (joinable : Joinable second)
    (first : Buffer) (work : Vec UInt8 nameMax) (started : first = [] → work.items ≠ [])
    (ends : first.getLast? ≠ some space) :
    (scanRequirementsBy compare behind version (joinRequirements first second) work).inRange =
      ((scanRequirementsBy compare behind version first work).inRange &&
        (scanRequirementsBy compare behind version second (Vec.empty UInt8 nameMax)).inRange) := by
  -- A space takes the byte behind it along, so the induction is on the length.
  induction size : first.length using Nat.strongRecOn generalizing first work with
  | _ size ih =>
    subst size
    match first with
    | [] =>
      rcases joinable.starts with ⟨byte, rest, rfl, notSpace⟩
      rw [joinRequirements, nil_append, inRange_scanRequirementsBy_space,
        scanRequirementsBy_of_ne_space rest _ notSpace, scanRequirementsBy,
        if_neg (started rfl)]
      rfl
    | byte :: rest =>
      by_cases isSpace : byte = space
      · subst isSpace
        match rest with
        | [] => exact absurd rfl ends
        | following :: rest =>
          have shorter : rest.length < (space :: following :: rest).length := by
            rw [length_cons, length_cons]
            omega
          have tail := ih rest.length shorter rest (startConstraint following)
            (fun _ => cons_ne_nil _ _)
            (fun trailing => ends (by cases rest <;> simp_all)) rfl
          rw [joinRequirements] at tail
          rw [joinRequirements, cons_append, cons_append, inRange_scanRequirementsBy_space,
            inRange_scanRequirementsBy_space, tail, Bool.and_assoc]
      · rw [joinRequirements, cons_append, scanRequirementsBy_of_ne_space _ _ isSpace,
          scanRequirementsBy_of_ne_space _ _ isSpace]
        cases appended : gglByteVecAppend work [byte] with
        | error error => rfl
        | ok longer =>
          apply ih rest.length (by simp) rest longer _ _ rfl
          · intro _
            rw [(Vec.append_eq_ok_iff work longer [byte]).mp appended]
            simp
          · exact fun trailing => ends (by cases rest <;> simp_all)

/-- A version is in a joined range exactly when it is in both ranges. -/
theorem isInRange_join {first second : Buffer} (firstJoinable : Joinable first)
    (secondJoinable : Joinable second) :
    isInRange behind version (joinRequirements first second) = true ↔
      isInRange behind version first = true ∧ isInRange behind version second = true := by
  rcases firstJoinable.ends with ⟨front, last, rfl, notSpace⟩
  have split := @inRange_scanRequirementsBy_join strverscmp behind version second secondJoinable
    (front ++ [last]) (Vec.empty UInt8 nameMax) (by simp) (by simpa using notSpace)
  unfold isInRange isInRangeBy
  cases gglByteVecAppend (Vec.empty UInt8 nameMax) version >>= (gglByteVecAppend · [0]) with
  | error error => simp [RangeCheck.refused]
  | ok copied => simp only [split, Bool.and_eq_true]

end Scan

end GreengrassLite.Deployment

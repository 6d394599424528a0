import GreengrassLite.EventStream.Encode
import GreengrassLite.Library.Bytes

/-!
# Decoding of EventStream packets

`eventstream/src/decode.c`.  The prelude is decoded on its own, since it says how much
there is to read.  `eventstream_decode` goes through the headers once to check and count
them; `eventstream_header_next` relies on that and goes through them again.  A position in
the headers is kept as the bytes from there on.
-/

namespace GreengrassLite

open Library List

/-- `EventStreamMessage` with the headers that its iterator yields. -/
structure EventStreamMessage where
  headers : List (Buffer × EventStreamValue)
  payload : Buffer
  deriving DecidableEq, Repr

/-- `read_be_uint32`. -/
def readBeUint32 : Buffer → UInt32
  | [first, second, third, fourth] =>
    (first.toUInt32 <<< 24) ||| (second.toUInt32 <<< 16) ||| (third.toUInt32 <<< 8) |||
      fourth.toUInt32
  | _ => 0

/-- `read_be_int32`. -/
def readBeInt32 (buf : Buffer) : Int32 :=
  (readBeUint32 buf).toInt32

/-- `EventStreamPrelude`. -/
structure EventStreamPrelude where
  dataLen : UInt32
  headersLen : UInt32
  crc : UInt32
  deriving DecidableEq, Repr

/-- `eventstream_decode_prelude`. -/
def eventstreamDecodePrelude (buf : Buffer) : Except GglError EventStreamPrelude :=
  if buf.length < 12 then .error .range
  else
    let crc := gglUpdateCrc 0 (gglBufferSubstr buf 0 8)
    let preludeCrc := readBeUint32 (gglBufferSubstr buf 8 12)
    if crc ≠ preludeCrc then .error .parse
    else
      let messageLen := readBeUint32 (gglBufferSubstr buf 0 4)
      let headersLen := readBeUint32 (gglBufferSubstr buf 4 8)
      if messageLen < 16 then .error .parse
      else if headersLen > messageLen - 16 then .error .parse
      else .ok
        { dataLen := messageLen - 12
          headersLen := headersLen
          crc := gglUpdateCrc preludeCrc (gglBufferSubstr buf 8 12) }

/-- The length of a string in a header. -/
def readBeUint16 (buf : Buffer) : UInt16 :=
  ((buf.getD 0 0).toUInt16 <<< 8) + (buf.getD 1 0).toUInt16

/-- A part of a header in `take_header`: `n` bytes that must be there. -/
def takeBytes (n : Nat) (pos : Buffer) : Except GglError (Buffer × Buffer) :=
  if pos.length < n then .error .parse else .ok (pos.take n, pos.drop n)

/-- `take_header`. -/
def takeHeader (headers : Buffer) : Except GglError Buffer := do
  let (nameLen, pos) ← takeBytes 1 headers
  let (_, pos) ← takeBytes (nameLen.headD 0).toNat pos
  let (type, pos) ← takeBytes 1 pos
  if type.headD 0 = 4 then
    let (_, pos) ← takeBytes 4 pos
    return pos
  else if type.headD 0 = 7 then
    let (valueLen, pos) ← takeBytes 2 pos
    let (_, pos) ← takeBytes (readBeUint16 valueLen).toNat pos
    return pos
  else .error .parse

/-! ## What `take_header` takes -/

theorem and_mask_byte (number : Nat) : number &&& 255 = number % 256 :=
  Nat.and_two_pow_sub_one_eq_mod number 8

theorem writeBeU32_eq (val : UInt32) : writeBeU32 val = (leBytes 4 val.toNat).reverse := by
  simp [writeBeU32, leBytes, ← UInt8.toNat_inj, Nat.shiftRight_eq_div_pow, and_mask_byte,
    Nat.div_div_eq_div_mul]

theorem writeBeU16_eq (val : UInt16) : writeBeU16 val = (leBytes 2 val.toNat).reverse := by
  simp [writeBeU16, leBytes, ← UInt8.toNat_inj, Nat.shiftRight_eq_div_pow, and_mask_byte]

variable {bytes rest : Buffer}

@[simp]
theorem readBeUint32_toNat (width : bytes.length = 4) :
    (readBeUint32 bytes).toNat = leNat bytes.reverse := by
  match bytes, width with
  | [first, second, third, fourth], _ =>
    have firstLt := first.toNat_lt
    have secondLt := second.toNat_lt
    have thirdLt := third.toNat_lt
    have fourthLt := fourth.toNat_lt
    -- each byte stands below the bits of those before it
    have lower := mul_two_pow_or third.toNat 8 fourthLt
    have middle := mul_two_pow_or second.toNat 16
      (show third.toNat * 2 ^ 8 + fourth.toNat < _ by omega)
    have upper := mul_two_pow_or first.toNat 24
      (show second.toNat * 2 ^ 16 + (third.toNat * 2 ^ 8 + fourth.toNat) < _ by omega)
    simp (disch := omega) only [readBeUint32, UInt32.toNat_or, UInt32.toNat_shiftLeft,
      UInt8.toNat_toUInt32, Nat.shiftLeft_eq, Nat.or_assoc, UInt32.reduceToNat,
      Nat.mod_eq_of_lt, lower, middle, upper]
    simp only [reverse_cons, reverse_nil, nil_append, cons_append, leNat]
    omega

@[simp]
theorem readBeUint16_toNat (width : bytes.length = 2) :
    (readBeUint16 (bytes ++ rest)).toNat = leNat bytes.reverse := by
  rcases length_eq_two.mp width with ⟨first, second, rfl⟩
  have firstLt := first.toNat_lt
  have secondLt := second.toNat_lt
  simp [readBeUint16, leNat, Nat.shiftLeft_eq]
  omega

@[simp]
theorem readBeUint32_writeBeU32 (val : UInt32) : readBeUint32 (writeBeU32 val) = val := by
  rw [← UInt32.toNat_inj, readBeUint32_toNat rfl, writeBeU32_eq, reverse_reverse]
  exact leNat_leBytes val.toNat_lt

@[simp]
theorem readBeUint16_writeBeU16 (val : UInt16) (rest : Buffer) :
    readBeUint16 (writeBeU16 val ++ rest) = val := by
  rw [← UInt16.toNat_inj, readBeUint16_toNat rfl, writeBeU16_eq, reverse_reverse]
  exact leNat_leBytes val.toNat_lt

@[simp]
theorem writeBeU32_readBeUint32 (width : bytes.length = 4) :
    writeBeU32 (readBeUint32 bytes) = bytes := by
  rw [writeBeU32_eq, readBeUint32_toNat width, ← width, ← length_reverse, leBytes_leNat,
    reverse_reverse]

@[simp]
theorem writeBeU16_readBeUint16 (width : bytes.length = 2) :
    writeBeU16 (readBeUint16 bytes) = bytes := by
  rw [writeBeU16_eq, ← append_nil bytes, readBeUint16_toNat width, append_nil, ← width,
    ← length_reverse, leBytes_leNat, reverse_reverse]

@[simp]
theorem length_writeBeU32 (val : UInt32) : (writeBeU32 val).length = 4 :=
  rfl

@[simp]
theorem length_writeBeU16 (val : UInt16) : (writeBeU16 val).length = 2 :=
  rfl

@[simp]
theorem takeBytes_eq_ok_iff {n : Nat} {pos taken : Buffer} :
    takeBytes n pos = .ok (taken, rest) ↔ taken.length = n ∧ pos = taken ++ rest := by
  rw [takeBytes]
  constructor
  · split_ifs with short
    · rintro ⟨⟩
    · rintro ⟨⟩
      exact ⟨length_take_of_le (Nat.le_of_not_lt short), (take_append_drop n pos).symm⟩
  · rintro ⟨rfl, rfl⟩
    rw [if_neg (by simp), take_left' rfl, drop_left' rfl]

/-- `take_header` takes the encoding of a header, and nothing else. -/
@[simp]
theorem takeHeader_eq_ok_iff {headers : Buffer} :
    takeHeader headers = .ok rest ↔
      ∃ header, HeaderFits header ∧ headers = headerBytes header ++ rest := by
  simp only [takeHeader, except_bind_eq_ok_iff, takeBytes_eq_ok_iff, Prod.exists]
  constructor
  · rintro ⟨nameLen, _, ⟨one, rfl⟩, name, _, ⟨width, rfl⟩, type, _, ⟨single, rfl⟩, took⟩
    rcases length_eq_one_iff.mp one with ⟨nameLen, rfl⟩
    rcases length_eq_one_iff.mp single with ⟨type, rfl⟩
    rw [headD_cons] at width took
    have isLen : nameLen = UInt8.ofNat name.length := by rw [width, UInt8.ofNat_toNat]
    have short := Nat.le_of_lt_succ (lt_of_eq_of_lt width nameLen.toNat_lt)
    split_ifs at took with isInt isString
    · simp only [except_bind_eq_ok_iff, takeBytes_eq_ok_iff, Prod.exists] at took
      rcases took with ⟨value, _, ⟨four, rfl⟩, ended⟩
      cases ended
      refine ⟨name, .int32 (readBeInt32 value), ⟨short, trivial⟩, ?_⟩
      simp [headerBytes, EventStreamValue.bytes, EventStreamValue.type, isInt, isLen, readBeInt32,
        writeBeU32_readBeUint32 four]
    · simp only [except_bind_eq_ok_iff, takeBytes_eq_ok_iff, Prod.exists] at took
      rcases took with ⟨valueLen, _, ⟨two, rfl⟩, value, _, ⟨valueWidth, rfl⟩, ended⟩
      cases ended
      refine ⟨name, .string value, ⟨short, ?_⟩, ?_⟩
      · exact Nat.le_of_lt_succ (lt_of_eq_of_lt valueWidth (UInt16.toNat_lt _))
      · simp [headerBytes, EventStreamValue.bytes, EventStreamValue.type, isString, isLen,
          valueWidth, writeBeU16_readBeUint16 two]
  · rintro ⟨name, value, ⟨short, valueShort⟩, rfl⟩
    refine ⟨[UInt8.ofNat name.length], _, ⟨rfl, rfl⟩, name, _, ⟨?_, append_assoc _ _ _⟩,
      [value.type], value.bytes ++ rest, ⟨rfl, rfl⟩, ?_⟩
    · exact (UInt8.toNat_ofNat_of_lt' (Nat.lt_succ_of_le short)).symm
    cases value with
    | int32 value =>
      refine (if_pos rfl).trans (except_bind_eq_ok_iff.mpr
        ⟨(writeBeU32 value.toUInt32, rest), takeBytes_eq_ok_iff.mpr ⟨rfl, rfl⟩, rfl⟩)
    | string value =>
      have valueLen : readBeUint16 (writeBeU16 (UInt16.ofNat value.length)) =
          UInt16.ofNat value.length := readBeUint16_writeBeU16 _ []
      have notInt : ¬(7 : UInt8) = 4 := by decide
      refine (if_neg notInt).trans ((if_pos rfl).trans (except_bind_eq_ok_iff.mpr
        ⟨(writeBeU16 (UInt16.ofNat value.length), value ++ rest),
          takeBytes_eq_ok_iff.mpr ⟨rfl, append_assoc _ _ _⟩, ?_⟩))
      refine except_bind_eq_ok_iff.mpr ⟨(value, rest), takeBytes_eq_ok_iff.mpr ⟨?_, rfl⟩, rfl⟩
      rw [valueLen]
      exact (UInt16.toNat_ofNat_of_lt' (Nat.lt_succ_of_le valueShort)).symm

theorem takeHeader_length_lt {headers : Buffer} (took : takeHeader headers = .ok rest) :
    rest.length < headers.length := by
  rcases takeHeader_eq_ok_iff.mp took with ⟨header, -, rfl⟩
  simp only [headerBytes, cons_append, append_assoc, length_cons, length_append]
  omega

/-- The loop of `count_headers`. -/
def countHeadersLoop (headers : Buffer) (count : UInt32) : Except GglError UInt32 :=
  if headers.length = 0 then .ok count
  else
    match _took : takeHeader headers with
    | .error error => .error error
    | .ok rest => countHeadersLoop rest (count + 1)
termination_by headers.length
decreasing_by exact takeHeader_length_lt _took

/-- `count_headers`. -/
def countHeaders (headersBuf : Buffer) : Except GglError UInt32 :=
  countHeadersLoop headersBuf 0

/-- `EventStreamHeaderIter`. -/
structure EventStreamHeaderIter where
  count : UInt32
  pos : Buffer
  deriving DecidableEq, Repr

/-- `eventstream_header_next`. -/
def eventstreamHeaderNext (headers : EventStreamHeaderIter) :
    Except GglError (EventStreamHeader × EventStreamHeaderIter) :=
  if headers.count < 1 then .error .range
  else
    let nameLen := (headers.pos.headD 0).toNat
    let pos := headers.pos.drop 1
    let name := pos.take nameLen
    let pos := pos.drop nameLen
    let type := pos.headD 0
    let pos := pos.drop 1
    if type = 4 then
      .ok ((name, .int32 (readBeInt32 (pos.take 4))), ⟨headers.count - 1, pos.drop 4⟩)
    else if type = 7 then
      let strLen := (readBeUint16 pos).toNat
      let pos := pos.drop 2
      .ok ((name, .string (pos.take strLen)), ⟨headers.count - 1, pos.drop strLen⟩)
    else .error .parse

theorem eventstreamHeaderNext_count {headers rest : EventStreamHeaderIter}
    {header : EventStreamHeader} (next : eventstreamHeaderNext headers = .ok (header, rest)) :
    rest.count.toNat < headers.count.toNat := by
  have counted : ¬headers.count < 1 → (headers.count - 1).toNat < headers.count.toNat := by
    intro positive
    have atLeast : 1 ≤ headers.count := UInt32.not_lt.mp positive
    rw [UInt32.toNat_sub_of_le _ _ atLeast]
    have bound : 1 ≤ headers.count.toNat := UInt32.le_iff_toNat_le.mp atLeast
    exact Nat.sub_lt bound Nat.one_pos
  rw [eventstreamHeaderNext] at next
  split at next
  · cases next
  next positive =>
    dsimp only at next
    split at next
    · cases next
      exact counted positive
    · split at next
      · cases next
        exact counted positive
      · cases next

/-- The headers that `eventstream_header_next` yields until it fails. -/
def EventStreamHeaderIter.toList (headers : EventStreamHeaderIter) : List EventStreamHeader :=
  match _next : eventstreamHeaderNext headers with
  | .error _ => []
  | .ok (header, rest) => header :: rest.toList
termination_by headers.count.toNat
decreasing_by exact eventstreamHeaderNext_count _next

/-- `eventstream_decode`.  Its assertions that there are at least four bytes, and the bytes of the
headers, end the process; `GGL_ERR_FATAL` stands for that. -/
def eventstreamDecode (prelude : EventStreamPrelude) (dataSection : Buffer) :
    Except GglError (EventStreamHeaderIter × Buffer) :=
  if dataSection.length < 4 then .error .fatal
  else
    let checked := dataSection.length - 4
    let crc := gglUpdateCrc prelude.crc (gglBufferSubstr dataSection 0 checked)
    let messageCrc := readBeUint32 (gglBufferSubstr dataSection checked dataSection.length)
    if crc ≠ messageCrc then .error .parse
    else
      let headersBuf := gglBufferSubstr dataSection 0 prelude.headersLen.toNat
      let payload := gglBufferSubstr dataSection prelude.headersLen.toNat checked
      if headersBuf.length ≠ prelude.headersLen.toNat then .error .fatal
      else do
        let headersCount ← countHeaders headersBuf
        return (⟨headersCount, dataSection⟩, payload)

end GreengrassLite

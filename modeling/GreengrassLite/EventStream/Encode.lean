import GreengrassLite.Core.Alloc
import Mathlib.Logic.Function.Iterate

/-!
# Encoding of EventStream packets

`eventstream/src/encode.c`.  A packet begins with a prelude: the length of the packet,
the length of its headers and a checksum of both.  The headers and the payload follow,
and a checksum that goes on from that of the prelude.  The lengths are known only after
the payload has been read into the buffer.
-/

namespace GreengrassLite

/-- `EventStreamHeaderValue`. -/
inductive EventStreamValue where
  | int32 (value : Int32)
  | string (value : Buffer)
  deriving DecidableEq, Repr

/-- `EventStreamHeader`. -/
abbrev EventStreamHeader := Buffer × EventStreamValue

/-- `EventStreamHeaderValueType`. -/
def EventStreamValue.type : EventStreamValue → UInt8
  | .int32 _ => 4
  | .string _ => 7

/-- `GglReader`.  It fails if what it has does not fit the buffer. -/
structure GglReader where
  read : (capacity : Nat) → Except GglError Buffer
  fits : ∀ {capacity bytes}, read capacity = .ok bytes → bytes.length ≤ capacity

/-! ## Checksums -/

/-- The body of the inner loop of `make_crc_table`. -/
def crcShift (crc : UInt32) : UInt32 :=
  if crc &&& 1 ≠ 0 then (0xEDB88320 : UInt32) ^^^ (crc >>> 1) else crc >>> 1

/-- An entry of `crc_table`. -/
def crcTable (n : UInt32) : UInt32 :=
  crcShift^[8] n

/-- `ggl_update_crc`. -/
def gglUpdateCrc (crc : UInt32) (buf : Buffer) : UInt32 :=
  ~~~buf.foldl (fun crc byte => crcTable ((crc ^^^ byte.toUInt32) &&& 0xFF) ^^^ (crc >>> 8))
    (~~~crc)

/-- A checksum can be continued. -/
@[simp]
theorem gglUpdateCrc_append (crc : UInt32) (first second : Buffer) :
    gglUpdateCrc (gglUpdateCrc crc first) second = gglUpdateCrc crc (first ++ second) := by
  rw [gglUpdateCrc, gglUpdateCrc, UInt32.not_not, gglUpdateCrc, List.foldl_append]

/-! ## Packets -/

/-- `write_be_u32`. -/
def writeBeU32 (val : UInt32) : Buffer :=
  [(val >>> 24).toUInt8, ((val >>> 16) &&& 0xFF).toUInt8, ((val >>> 8) &&& 0xFF).toUInt8,
    (val &&& 0xFF).toUInt8]

/-- The length of a string in `header_encode`. -/
def writeBeU16 (val : UInt16) : Buffer :=
  [(val >>> 8).toUInt8, (val &&& 0xFF).toUInt8]

/-- `header_encode`. -/
def headerEncode (mem : Nat) (written : Buffer) (header : EventStreamHeader) :
    Except GglError Buffer :=
  if header.1.length > 255 then .error .range
  else do
    let written ← bumpWrite mem written [UInt8.ofNat header.1.length]
    let written ← bumpWrite mem written header.1
    let written ← bumpWrite mem written [header.2.type]
    match header.2 with
    | .int32 value => bumpWrite mem written (writeBeU32 value.toUInt32)
    | .string value =>
      if value.length > 65535 then .error .range
      else do
        let written ← bumpWrite mem written (writeBeU16 (UInt16.ofNat value.length))
        bumpWrite mem written value

/-- The encoding of the value of a header. -/
def EventStreamValue.bytes : EventStreamValue → Buffer
  | .int32 value => writeBeU32 value.toUInt32
  | .string value => writeBeU16 (UInt16.ofNat value.length) ++ value

/-- The encoding of a header. -/
def headerBytes (header : EventStreamHeader) : Buffer :=
  UInt8.ofNat header.1.length :: (header.1 ++ header.2.type :: header.2.bytes)

/-- A string has at most 65535 bytes. -/
def EventStreamValue.Fits : EventStreamValue → Prop
  | .int32 _ => True
  | .string value => value.length ≤ 65535

/-- The limits that `header_encode` checks. -/
def HeaderFits (header : EventStreamHeader) : Prop :=
  header.1.length ≤ 255 ∧ header.2.Fits

/-- The packet once the headers and the payload are in the buffer. -/
def sealPacket (headers payload : Buffer) : Buffer :=
  let headersLen := UInt32.ofNat headers.length
  let messageLen := 12 + headersLen + UInt32.ofNat payload.length + 4
  let lengths := writeBeU32 messageLen ++ writeBeU32 headersLen
  let preludeCrc := gglUpdateCrc 0 lengths
  let checked := writeBeU32 preludeCrc ++ (headers ++ payload)
  let messageCrc := gglUpdateCrc preludeCrc (checked.take (messageLen - 8 - 4).toNat)
  (lengths ++ (checked ++ writeBeU32 messageCrc)).take messageLen.toNat

/-- `eventstream_encode` into a buffer of `len` bytes. -/
def eventstreamEncode (len : Nat) (headers : List EventStreamHeader) (payload : GglReader) :
    Except GglError Buffer :=
  let len := min len uint32Max
  if len < 12 then .error .nomem
  else do
    let headersBuf ← headers.foldlM (headerEncode (len - 12)) []
    let payloadBuf ← payload.read (len - 12 - headersBuf.length)
    if len - 12 - headersBuf.length - payloadBuf.length < 4 then .error .nomem
    else return sealPacket headersBuf payloadBuf

end GreengrassLite

import GreengrassLite.EventStream.Acceptance

/-!
# Packets are decoded as they were encoded

A packet that `eventstream_encode` produces is split into the prelude and the rest.  Both
are decoded, both checksums agree, and the headers and the payload are those that were
encoded.
-/

namespace GreengrassLite

open List

variable {header : EventStreamHeader}

/-! ## Headers -/

theorem headerEncode_eq_ok {mem : Nat} {written after : Buffer}
    (encoded : headerEncode mem written header = .ok after) :
    after = written ++ headerBytes header ∧ HeaderFits header := by
  rcases header with ⟨name, value⟩
  rw [headerEncode] at encoded
  split at encoded
  · cases encoded
  next short =>
    rcases except_bind_eq_ok_iff.mp encoded with ⟨_, wroteLen, encoded⟩
    rcases except_bind_eq_ok_iff.mp encoded with ⟨_, wroteName, encoded⟩
    rcases except_bind_eq_ok_iff.mp encoded with ⟨_, wroteType, encoded⟩
    cases bumpWrite_eq_ok wroteLen
    cases bumpWrite_eq_ok wroteName
    cases bumpWrite_eq_ok wroteType
    cases value with
    | int32 value =>
      rw [bumpWrite_eq_ok encoded]
      refine ⟨?_, Nat.le_of_not_lt short, trivial⟩
      simp [headerBytes, EventStreamValue.bytes]
    | string value =>
      dsimp only at encoded
      split at encoded
      · cases encoded
      next valueShort =>
        rcases except_bind_eq_ok_iff.mp encoded with ⟨_, wroteValueLen, wroteValue⟩
        cases bumpWrite_eq_ok wroteValueLen
        rw [bumpWrite_eq_ok wroteValue]
        refine ⟨?_, Nat.le_of_not_lt short, Nat.le_of_not_lt valueShort⟩
        simp [headerBytes, EventStreamValue.bytes]

theorem foldlM_headerEncode_eq_ok {mem : Nat} {written after : Buffer}
    {headers : List EventStreamHeader}
    (encoded : headers.foldlM (headerEncode mem) written = .ok after) :
    after = written ++ headers.flatMap headerBytes ∧ ∀ header ∈ headers, HeaderFits header := by
  induction headers generalizing written with
  | nil =>
    cases encoded
    rw [flatMap_nil, append_nil]
    exact ⟨rfl, nofun⟩
  | cons header headers ih =>
    rw [foldlM_cons, except_bind_eq_ok_iff] at encoded
    rcases encoded with ⟨middle, first, rest⟩
    rcases headerEncode_eq_ok first with ⟨rfl, fits⟩
    rcases ih rest with ⟨rfl, othersFit⟩
    rw [append_assoc]
    exact ⟨rfl, forall_mem_cons.mpr ⟨fits, othersFit⟩⟩

theorem EventStreamHeaderIter.toList_of_next {headers rest : EventStreamHeaderIter}
    (next : eventstreamHeaderNext headers = .ok (header, rest)) :
    headers.toList = header :: rest.toList := by
  rw [toList]
  split
  next failed => cases next.symm.trans failed
  next other => cases next.symm.trans other; rfl

theorem Yields.toList_eq {iter last : EventStreamHeaderIter} {headers : List EventStreamHeader}
    (yields : Yields iter headers last) (ended : last.count < 1) : iter.toList = headers := by
  induction yields with
  | done =>
    rw [EventStreamHeaderIter.toList]
    split
    · rfl
    next next => cases (if_pos ended).symm.trans next
  | next yielded _ _ _ ih => rw [EventStreamHeaderIter.toList_of_next yielded, ih ended]

/-! ## Packets -/

/-- The room that the headers leave for the payload. -/
def payloadRoom (len : Nat) (headers : List EventStreamHeader) : Nat :=
  min len uint32Max - 12 - (headers.flatMap headerBytes).length

theorem eventstreamEncode_eq_ok {len : Nat} {headers : List EventStreamHeader}
    {payload : GglReader} {bytes : Buffer}
    (encoded : eventstreamEncode len headers payload = .ok bytes) :
    ∃ content, payload.read (payloadRoom len headers) = .ok content ∧
      bytes = sealPacket (headers.flatMap headerBytes) content ∧
      (∀ header ∈ headers, HeaderFits header) ∧
      12 + (headers.flatMap headerBytes).length + content.length + 4 ≤ uint32Max := by
  rw [eventstreamEncode] at encoded
  split at encoded
  · cases encoded
  next atLeast =>
    rcases except_bind_eq_ok_iff.mp encoded with ⟨headersBuf, encodedHeaders, encoded⟩
    rcases except_bind_eq_ok_iff.mp encoded with ⟨content, read, encoded⟩
    rcases foldlM_headerEncode_eq_ok encodedHeaders with ⟨rfl, fit⟩
    rw [nil_append] at read encoded
    split at encoded
    · cases encoded
    next room =>
      cases encoded
      refine ⟨content, read, rfl, fit, ?_⟩
      omega

section Sealed

variable (headers payload : Buffer)

/-- The length in the prelude. -/
def messageLen : UInt32 :=
  12 + UInt32.ofNat headers.length + UInt32.ofNat payload.length + 4

/-- The lengths at the beginning of the prelude. -/
def preludeLengths : Buffer :=
  writeBeU32 (messageLen headers payload) ++ writeBeU32 (UInt32.ofNat headers.length)

def preludeCrc : UInt32 :=
  gglUpdateCrc 0 (preludeLengths headers payload)

def packetPrelude : Buffer :=
  preludeLengths headers payload ++ writeBeU32 (preludeCrc headers payload)

def messageCrc : UInt32 :=
  gglUpdateCrc (preludeCrc headers payload)
    (writeBeU32 (preludeCrc headers payload) ++ (headers ++ payload))

variable {headers payload}
  (fits : 12 + headers.length + payload.length + 4 ≤ uint32Max)

include fits

@[simp]
theorem headersLen_toNat : (UInt32.ofNat headers.length).toNat = headers.length := by
  apply UInt32.toNat_ofNat_of_lt'
  change headers.length < 4294967296
  rw [uint32Max] at fits
  omega

@[simp]
theorem messageLen_toNat :
    (messageLen headers payload).toNat = 12 + headers.length + payload.length + 4 := by
  have payloadLen : (UInt32.ofNat payload.length).toNat = payload.length := by
    apply UInt32.toNat_ofNat_of_lt'
    change payload.length < 4294967296
    rw [uint32Max] at fits
    omega
  rw [messageLen, UInt32.toNat_add, UInt32.toNat_add, UInt32.toNat_add, headersLen_toNat fits,
    payloadLen]
  change (((12 + headers.length) % 2 ^ 32 + payload.length) % 2 ^ 32 + 4) % 2 ^ 32 = _
  rw [uint32Max] at fits
  omega

/-- No length overflows, so the packet is its parts one after the other. -/
@[simp]
theorem sealPacket_eq :
    sealPacket headers payload = packetPrelude headers payload ++
      (headers ++ (payload ++ writeBeU32 (messageCrc headers payload))) := by
  have checkedLen : (messageLen headers payload - 8 - 4).toNat =
      (writeBeU32 (preludeCrc headers payload) ++ (headers ++ payload)).length := by
    have total := messageLen_toNat fits
    have eight : (8 : UInt32) ≤ messageLen headers payload := by
      rw [UInt32.le_iff_toNat_le]
      change 8 ≤ _
      omega
    have first := UInt32.toNat_sub_of_le _ _ eight
    have four : (4 : UInt32) ≤ messageLen headers payload - 8 := by
      rw [UInt32.le_iff_toNat_le, first]
      change 4 ≤ _ - 8
      omega
    rw [UInt32.toNat_sub_of_le _ _ four, first, total, length_append, length_append,
      length_writeBeU32]
    change 12 + headers.length + payload.length + 4 - 8 - 4 = _
    omega
  change ((preludeLengths headers payload) ++
    ((writeBeU32 (preludeCrc headers payload) ++ (headers ++ payload)) ++
      writeBeU32 (gglUpdateCrc (preludeCrc headers payload)
        ((writeBeU32 (preludeCrc headers payload) ++ (headers ++ payload)).take
          (messageLen headers payload - 8 - 4).toNat)))).take (messageLen headers payload).toNat = _
  rw [checkedLen, take_length, take_of_length_le]
  · simp [packetPrelude, messageCrc]
  · rw [messageLen_toNat fits]
    simp [preludeLengths]
    omega

/-- The prelude passes its checks. -/
@[simp]
theorem eventstreamDecodePrelude_packetPrelude :
    eventstreamDecodePrelude (packetPrelude headers payload) =
      .ok ⟨messageLen headers payload - 12, UInt32.ofNat headers.length,
        gglUpdateCrc 0 (packetPrelude headers payload)⟩ := by
  have message : announcedLen (packetPrelude headers payload) = messageLen headers payload :=
    readBeUint32_writeBeU32 _
  have header : announcedHeadersLen (packetPrelude headers payload) = UInt32.ofNat headers.length :=
    readBeUint32_writeBeU32 _
  have total := messageLen_toNat fits
  have sixteen : (16 : UInt32) ≤ messageLen headers payload := by
    rw [UInt32.le_iff_toNat_le]
    change 16 ≤ _
    omega
  rw [eventstreamDecodePrelude_eq_ok_iff rfl, message, header]
  refine ⟨(readBeUint32_writeBeU32 _).symm, sixteen, ?_, rfl⟩
  rw [UInt32.le_iff_toNat_le, UInt32.toNat_sub_of_le _ _ sixteen, total, headersLen_toNat fits]
  change _ ≤ 12 + headers.length + payload.length + 4 - 16
  omega

/-- The data section of a packet passes the check of its checksum; it remains to count
the headers. -/
theorem eventstreamDecode_sealed {dataLen count : UInt32}
    (counted : countHeaders headers = .ok count) :
    eventstreamDecode
        ⟨dataLen, UInt32.ofNat headers.length, gglUpdateCrc 0 (packetPrelude headers payload)⟩
        (headers ++ (payload ++ writeBeU32 (messageCrc headers payload))) =
      .ok (⟨count, headers ++ (payload ++ writeBeU32 (messageCrc headers payload))⟩, payload) := by
  have checked : (headers ++ (payload ++ writeBeU32 (messageCrc headers payload))).length - 4 =
      (headers ++ payload).length := by
    rw [← append_assoc, length_append, length_writeBeU32, Nat.add_sub_cancel]
  rw [eventstreamDecode_eq_ok_iff, checked, headersLen_toNat fits, take_left' rfl, ← append_assoc,
    take_left' rfl, drop_left' rfl, drop_left' rfl, readBeUint32_writeBeU32]
  · refine ⟨?_, by simp, counted, rfl, rfl⟩
    simp only [messageCrc, preludeCrc, packetPrelude, gglUpdateCrc_append, append_assoc]
  · simp only [length_append, length_writeBeU32]
    omega

end Sealed

/-- What was encoded is decoded: the prelude and the rest are accepted, the iterator
yields the headers, and the payload is the one that was read. -/
theorem eventstream_roundTrip {len : Nat} {headers : List EventStreamHeader} {payload : GglReader}
    {bytes : Buffer} (encoded : eventstreamEncode len headers payload = .ok bytes) :
    ∃ content prelude iter,
      payload.read (payloadRoom len headers) = .ok content ∧
      eventstreamDecodePrelude (bytes.take 12) = .ok prelude ∧
      (bytes.drop 12).length = prelude.dataLen.toNat ∧
      eventstreamDecode prelude (bytes.drop 12) = .ok (iter, content) ∧
      iter.toList = headers := by
  rcases eventstreamEncode_eq_ok encoded with ⟨content, read, rfl, fit, fits⟩
  have twelve : (packetPrelude (headers.flatMap headerBytes) content).length = 12 := rfl
  have few : headers.length < 2 ^ 32 := by
    have atMost := length_le_flatMap_headerBytes headers
    rw [uint32Max] at fits
    omega
  have counted : countHeaders (headers.flatMap headerBytes) =
      .ok (UInt32.ofNat headers.length) :=
    countHeadersLoop_eq_ok_iff.mpr ⟨headers, fit, rfl, (UInt32.zero_add _).symm⟩
  rw [sealPacket_eq fits, take_left' twelve, drop_left' twelve,
    eventstreamDecodePrelude_packetPrelude fits]
  refine ⟨content, _, _, read, rfl, ?_, eventstreamDecode_sealed fits counted,
    (yields_headers fit few).toList_eq UInt32.zero_lt_one⟩
  · have total := messageLen_toNat fits
    have twelveLe : (12 : UInt32) ≤ messageLen (headers.flatMap headerBytes) content := by
      rw [UInt32.le_iff_toNat_le]
      change 12 ≤ _
      omega
    rw [UInt32.toNat_sub_of_le _ _ twelveLe, total, length_append, length_append,
      length_writeBeU32]
    change _ = 12 + _ + _ + 4 - 12
    omega

/-- A reader of fixed bytes. -/
def bytesReader (bytes : Buffer) : GglReader where
  read := fun capacity => if bytes.length ≤ capacity then .ok bytes else .error .nomem
  fits := by
    intro capacity read enough
    split at enough
    next small =>
      cases enough
      exact small
    · cases enough

theorem eventstream_roundTrip_two_headers :
    ∃ bytes, eventstreamEncode 64
        [(gglStr "id", .int32 (-2)), (gglStr "operation", .string (gglStr "x"))]
        (bytesReader (gglStr "body")) = .ok bytes ∧
      ∃ content prelude iter,
        (bytesReader (gglStr "body")).read (payloadRoom 64
          [(gglStr "id", .int32 (-2)), (gglStr "operation", .string (gglStr "x"))]) =
          .ok content ∧
        eventstreamDecodePrelude (bytes.take 12) = .ok prelude ∧
        (bytes.drop 12).length = prelude.dataLen.toNat ∧
        eventstreamDecode prelude (bytes.drop 12) = .ok (iter, content) ∧
        iter.toList = [(gglStr "id", .int32 (-2)), (gglStr "operation", .string (gglStr "x"))] := by
  have encoded : ∃ bytes, eventstreamEncode 64
      [(gglStr "id", .int32 (-2)), (gglStr "operation", .string (gglStr "x"))]
      (bytesReader (gglStr "body")) = .ok bytes := ⟨_, rfl⟩
  rcases encoded with ⟨bytes, encoded⟩
  exact ⟨bytes, encoded, eventstream_roundTrip encoded⟩

end GreengrassLite

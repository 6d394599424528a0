import GreengrassLite.EventStream.Decode

/-!
# Packets that are accepted

The prelude and the data section of a packet are accepted exactly when both checksums
agree, the lengths are consistent and the headers stand one after the other in their
section.  `take_header` has then checked every header that `eventstream_header_next`
reads, so the calls of the iterator pass over the section and stop at its end.
-/

namespace GreengrassLite

open List

variable {header : EventStreamHeader} {buf dataSection payload : Buffer}
  {prelude : EventStreamPrelude} {iter : EventStreamHeaderIter}

/-! ## Headers -/

/-- The headers are counted if they stand one after the other. -/
theorem countHeadersLoop_eq_ok_iff {headersBuf : Buffer} {count total : UInt32} :
    countHeadersLoop headersBuf count = .ok total ↔
      ∃ headers : List EventStreamHeader, (∀ header ∈ headers, HeaderFits header) ∧
        headersBuf = headers.flatMap headerBytes ∧ total = count + UInt32.ofNat headers.length := by
  constructor
  · intro counted
    fun_induction countHeadersLoop headersBuf count with
    | case1 headersBuf count none =>
      cases counted
      exact ⟨[], by simp, length_eq_zero_iff.mp none, (UInt32.add_zero _).symm⟩
    | case2 => cases counted
    | case3 headersBuf count some rest took ih =>
      rcases ih counted with ⟨headers, fit, rfl, rfl⟩
      rcases takeHeader_eq_ok_iff.mp took with ⟨header, fits, rfl⟩
      refine ⟨header :: headers, forall_mem_cons.mpr ⟨fits, fit⟩, rfl, ?_⟩
      rw [length_cons, Nat.add_comm, UInt32.ofNat_add, UInt32.add_assoc]
      rfl
  · rintro ⟨headers, fit, rfl, rfl⟩
    induction headers generalizing count with
    | nil =>
      rw [countHeadersLoop]
      exact congrArg Except.ok (UInt32.add_zero count).symm
    | cons header headers ih =>
      rw [forall_mem_cons] at fit
      have took := takeHeader_eq_ok_iff.mpr
        ⟨header, fit.1, (rfl : _ = headerBytes header ++ headers.flatMap headerBytes)⟩
      rw [countHeadersLoop, if_neg (by simp [headerBytes])]
      split
      next failed => cases took.symm.trans failed
      next other =>
        cases took.symm.trans other
        rw [ih fit.2, length_cons, Nat.add_comm headers.length 1, UInt32.ofNat_add,
          UInt32.add_assoc]
        rfl

/-- How far `eventstream_header_next` reads from its position on. -/
def headerReach (pos : Buffer) : Nat :=
  let nameLen := (pos.headD 0).toNat
  let type := (pos.drop (1 + nameLen)).headD 0
  let value := pos.drop (1 + nameLen + 1)
  1 + nameLen + 1 + if type = 4 then 4 else if type = 7 then 2 + (readBeUint16 value).toNat else 0

/-- Calls of `eventstream_header_next`, each of which reads the bytes of its header and moves
behind them. -/
inductive Yields : EventStreamHeaderIter → List EventStreamHeader → EventStreamHeaderIter → Prop
  | done {iter : EventStreamHeaderIter} : Yields iter [] iter
  | next {iter rest last : EventStreamHeaderIter} {header : EventStreamHeader}
      {headers : List EventStreamHeader} : eventstreamHeaderNext iter = .ok (header, rest) →
      iter.pos = headerBytes header ++ rest.pos →
      headerReach iter.pos = (headerBytes header).length → Yields rest headers last →
      Yields iter (header :: headers) last

/-- `eventstream_header_next` yields a header that `take_header` takes. -/
theorem eventstreamHeaderNext_headerBytes {count : UInt32} {rest : Buffer}
    (fits : HeaderFits header) (positive : ¬count < 1) :
    eventstreamHeaderNext ⟨count, headerBytes header ++ rest⟩ = .ok (header, ⟨count - 1, rest⟩) ∧
      headerReach (headerBytes header ++ rest) = (headerBytes header).length := by
  rcases header with ⟨name, value⟩
  rcases fits with ⟨short, valueFits⟩
  have afterLen : (headerBytes (name, value) ++ rest).drop 1 =
      name ++ (value.type :: (value.bytes ++ rest)) := by
    simp [headerBytes]
  have lenAt : (headerBytes (name, value) ++ rest).headD 0 = UInt8.ofNat name.length := rfl
  rw [eventstreamHeaderNext, if_neg positive, headerReach]
  dsimp only
  rw [← drop_drop, ← drop_drop, ← drop_drop, lenAt, afterLen,
    UInt8.toNat_ofNat_of_lt' (Nat.lt_succ_of_le short), take_left' rfl, drop_left' rfl,
    drop_one, tail_cons]
  cases value with
  | int32 value =>
    refine ⟨(if_pos rfl).trans ?_, ?_⟩
    · rw [EventStreamValue.bytes, take_left' (length_writeBeU32 _),
        drop_left' (length_writeBeU32 _), readBeInt32, readBeUint32_writeBeU32]
      rfl
    · refine (congrArg (1 + name.length + 1 + ·) (if_pos rfl)).trans ?_
      simp only [headerBytes, EventStreamValue.bytes, length_cons, length_append,
        length_writeBeU32]
      omega
  | string value =>
    have notInt : ¬(7 : UInt8) = 4 := by decide
    refine ⟨(if_neg notInt).trans ((if_pos rfl).trans ?_), ?_⟩
    · rw [EventStreamValue.bytes, append_assoc, readBeUint16_writeBeU16,
        UInt16.toNat_ofNat_of_lt' (Nat.lt_succ_of_le valueFits), drop_left' (length_writeBeU16 _),
        take_left' rfl, drop_left' rfl]
    · refine (congrArg (1 + name.length + 1 + ·) ((if_neg notInt).trans (if_pos rfl))).trans ?_
      simp only [headerBytes, EventStreamValue.bytes, length_cons, length_append,
        length_writeBeU16, append_assoc, readBeUint16_writeBeU16]
      rw [UInt16.toNat_ofNat_of_lt' (Nat.lt_succ_of_le valueFits)]
      omega

/-- The iterator passes over headers that were counted. -/
theorem yields_headers {headers : List EventStreamHeader} {behind : Buffer}
    (fit : ∀ header ∈ headers, HeaderFits header) (few : headers.length < 2 ^ 32) :
    Yields ⟨UInt32.ofNat headers.length, headers.flatMap headerBytes ++ behind⟩ headers
      ⟨0, behind⟩ := by
  induction headers with
  | nil => exact .done
  | cons header headers ih =>
    rw [forall_mem_cons] at fit
    rw [length_cons] at few ⊢
    have positive : ¬UInt32.ofNat (headers.length + 1) < 1 := by
      rw [UInt32.lt_iff_toNat_lt, UInt32.toNat_ofNat_of_lt' few]
      exact Nat.not_lt.mpr (Nat.le_add_left _ _)
    have less : UInt32.ofNat (headers.length + 1) - 1 = UInt32.ofNat headers.length := by
      rw [UInt32.ofNat_add]
      exact UInt32.add_sub_cancel _ _
    rcases eventstreamHeaderNext_headerBytes fit.1 positive with ⟨yielded, reach⟩
    rw [flatMap_cons, append_assoc]
    rw [less] at yielded
    exact .next yielded rfl reach (ih fit.2 (Nat.lt_of_succ_lt few))

/-- A header takes at least one byte. -/
theorem length_le_flatMap_headerBytes (headers : List EventStreamHeader) :
    headers.length ≤ (headers.flatMap headerBytes).length := by
  induction headers with
  | nil => exact Nat.le_refl _
  | cons header headers ih =>
    rw [flatMap_cons, length_append, length_cons, headerBytes, length_cons]
    omega

/-! ## Packets -/

/-- The length of the packet in a prelude. -/
def announcedLen (buf : Buffer) : UInt32 :=
  readBeUint32 (buf.take 4)

/-- The length of the headers in a prelude. -/
def announcedHeadersLen (buf : Buffer) : UInt32 :=
  readBeUint32 ((buf.take 8).drop 4)

theorem eventstreamDecodePrelude_eq_ok_iff (width : buf.length = 12) :
    eventstreamDecodePrelude buf = .ok prelude ↔
      gglUpdateCrc 0 (buf.take 8) = readBeUint32 (buf.drop 8) ∧ 16 ≤ announcedLen buf ∧
        announcedHeadersLen buf ≤ announcedLen buf - 16 ∧
        prelude = ⟨announcedLen buf - 12, announcedHeadersLen buf, gglUpdateCrc 0 buf⟩ := by
  have whole : buf.take 12 = buf := take_of_length_le (Nat.le_of_eq width)
  have crc : gglUpdateCrc (gglUpdateCrc 0 (buf.take 8)) (buf.drop 8) = gglUpdateCrc 0 buf := by
    rw [gglUpdateCrc_append, take_append_drop]
  simp only [eventstreamDecodePrelude, gglBufferSubstr, whole, drop_zero]
  rw [if_neg (by simp [width])]
  split_ifs with other short long
  · simp [other]
  · simp [announcedLen, UInt32.not_le.mpr short]
  · simp [announcedLen, announcedHeadersLen, UInt32.not_le.mpr long]
  · rw [not_not] at other
    rw [← other, crc]
    simp [announcedLen, announcedHeadersLen, UInt32.not_lt.mp short, UInt32.not_lt.mp long, eq_comm]

theorem eventstreamDecode_eq_ok_iff (long : 4 ≤ dataSection.length) :
    eventstreamDecode prelude dataSection = .ok (iter, payload) ↔
      gglUpdateCrc prelude.crc (dataSection.take (dataSection.length - 4)) =
          readBeUint32 (dataSection.drop (dataSection.length - 4)) ∧
        prelude.headersLen.toNat ≤ dataSection.length ∧
        countHeaders (dataSection.take prelude.headersLen.toNat) = .ok iter.count ∧
        iter.pos = dataSection ∧
        payload = (dataSection.take (dataSection.length - 4)).drop prelude.headersLen.toNat := by
  have whole : (dataSection.take prelude.headersLen.toNat).length = prelude.headersLen.toNat ↔
      prelude.headersLen.toNat ≤ dataSection.length := by
    rw [length_take]
    omega
  simp only [eventstreamDecode, gglBufferSubstr, drop_zero, take_length]
  rw [if_neg (Nat.not_lt.mpr long)]
  split_ifs with other missing
  · simp [other]
  · simp [mt whole.mpr missing]
  · rw [not_not] at other missing
    rw [except_bind_eq_ok_iff]
    constructor
    · rintro ⟨count, counted, ended⟩
      cases ended
      exact ⟨other, whole.mp missing, counted, rfl, rfl⟩
    · rintro ⟨-, -, counted, rfl, rfl⟩
      exact ⟨iter.count, counted, rfl⟩

/-- The checksums agree, the lengths are consistent, and the headers stand one after the other. -/
structure WellFormedPacket (buf dataSection : Buffer) : Prop where
  preludeCrc : gglUpdateCrc 0 (buf.take 8) = readBeUint32 (buf.drop 8)
  messageLen : 16 ≤ announcedLen buf
  headersLen : announcedHeadersLen buf ≤ announcedLen buf - 16
  messageCrc : gglUpdateCrc 0 (buf ++ dataSection.take (dataSection.length - 4)) =
    readBeUint32 (dataSection.drop (dataSection.length - 4))
  headers : ∃ headers : List EventStreamHeader, (∀ header ∈ headers, HeaderFits header) ∧
    dataSection.take (announcedHeadersLen buf).toNat = headers.flatMap headerBytes

/-- A prelude and a data section of the length it announces are accepted exactly when they are
well formed, and then as many calls of the iterator as it counts pass over the section of the
headers, and the next one reports the end. -/
theorem eventstream_accepts_iff (width : buf.length = 12)
    (announced : ∀ prelude, eventstreamDecodePrelude buf = .ok prelude →
      dataSection.length = prelude.dataLen.toNat) :
    ((∃ prelude message, eventstreamDecodePrelude buf = .ok prelude ∧
        eventstreamDecode prelude dataSection = .ok message) ↔ WellFormedPacket buf dataSection) ∧
      ∀ prelude iter payload, eventstreamDecodePrelude buf = .ok prelude →
        eventstreamDecode prelude dataSection = .ok (iter, payload) →
        ∃ (headers : List EventStreamHeader) (last : EventStreamHeaderIter),
          headers.length = iter.count.toNat ∧ Yields iter headers last ∧
            headers.flatMap headerBytes = dataSection.take prelude.headersLen.toNat ∧
            last.pos = dataSection.drop prelude.headersLen.toNat ∧
            eventstreamHeaderNext last = .error .range := by
  have room {prelude : EventStreamPrelude} (accepted : eventstreamDecodePrelude buf = .ok prelude) :
      prelude.headersLen.toNat + 4 ≤ dataSection.length := by
    have announcedLength := announced _ accepted
    rcases (eventstreamDecodePrelude_eq_ok_iff width).mp accepted with ⟨-, long, fits, rfl⟩
    have sixteen : 16 ≤ (announcedLen buf).toNat := UInt32.le_iff_toNat_le.mp long
    have twelve : (12 : UInt32) ≤ announcedLen buf := UInt32.le_trans (by decide) long
    rw [UInt32.le_iff_toNat_le, UInt32.toNat_sub_of_le _ _ long] at fits
    rw [announcedLength, UInt32.toNat_sub_of_le _ _ twelve]
    change _ ≤ _ - 12
    change _ ≤ _ - 16 at fits
    dsimp only
    omega
  have long {prelude : EventStreamPrelude} (accepted : eventstreamDecodePrelude buf = .ok prelude) :
      4 ≤ dataSection.length :=
    Nat.le_of_add_left_le (room accepted)
  refine ⟨⟨?_, fun wellFormed => ?_⟩, fun prelude iter payload accepted decoded => ?_⟩
  · rintro ⟨prelude, ⟨iter, payload⟩, accepted, decoded⟩
    rcases (eventstreamDecode_eq_ok_iff (long accepted)).mp decoded with ⟨crc, -, counted, -⟩
    rcases (eventstreamDecodePrelude_eq_ok_iff width).mp accepted with
      ⟨preludeCrc, sixteen, fits, rfl⟩
    rcases countHeadersLoop_eq_ok_iff.mp counted with ⟨headers, fit, split, -⟩
    exact ⟨preludeCrc, sixteen, fits, gglUpdateCrc_append _ _ _ ▸ crc, headers, fit, split⟩
  · rcases wellFormed with ⟨preludeCrc, sixteen, fits, crc, headers, fit, split⟩
    have accepted := (eventstreamDecodePrelude_eq_ok_iff width).mpr ⟨preludeCrc, sixteen, fits, rfl⟩
    refine ⟨_, (⟨_, _⟩, _), accepted, (eventstreamDecode_eq_ok_iff (long accepted)).mpr
      ⟨(gglUpdateCrc_append _ _ _).trans crc, Nat.le_of_add_right_le (room accepted),
        countHeadersLoop_eq_ok_iff.mpr ⟨headers, fit, split, rfl⟩, rfl, rfl⟩⟩
  · rcases iter with ⟨count, pos⟩
    rcases (eventstreamDecode_eq_ok_iff (long accepted)).mp decoded with ⟨-, -, counted, rfl, -⟩
    rcases countHeadersLoop_eq_ok_iff.mp counted with ⟨headers, fit, split, rfl⟩
    have few : headers.length < 2 ^ 32 := by
      have atMost := length_le_flatMap_headerBytes headers
      have taken := length_take_le prelude.headersLen.toNat pos
      have narrow := prelude.headersLen.toNat_lt
      rw [split] at taken
      omega
    have yielded := @yields_headers headers (pos.drop prelude.headersLen.toNat) fit few
    rw [← split, take_append_drop] at yielded
    rw [UInt32.zero_add]
    exact ⟨headers, _, (UInt32.toNat_ofNat_of_lt' few).symm, yielded, split.symm, rfl, rfl⟩

/-- A packet with one header and no payload. -/
theorem eventstream_accepts_one_header :
    ∃ prelude message,
      eventstreamDecodePrelude [0, 0, 0, 22, 0, 0, 0, 6, 99, 225, 24, 126] = .ok prelude ∧
        eventstreamDecode prelude [0, 4, 0, 0, 0, 1, 111, 37, 115, 214] = .ok message := by
  refine (eventstream_accepts_iff rfl ?_).1.mpr
    ⟨by decide +kernel, by decide, by decide, by decide +kernel, [([], .int32 1)], ?_, rfl⟩
  · intro prelude accepted
    rcases (eventstreamDecodePrelude_eq_ok_iff rfl).mp accepted with ⟨-, -, -, rfl⟩
    rfl
  · simp [HeaderFits, EventStreamValue.Fits]

end GreengrassLite

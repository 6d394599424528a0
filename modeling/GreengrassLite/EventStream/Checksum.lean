import GreengrassLite.EventStream.Acceptance

/-!
# The checksum of packets

`ggl_update_crc` of `eventstream/src/crc32.c` takes a byte at a time and looks up what eight
shifts of a register would do.  Here it is compared with that register, which takes the message
bit by bit.

A shift is linear in exclusive or.  So eight shifts of the register are those of its low byte,
which is the entry of the table, and those of the rest, which only moves down.
-/

namespace GreengrassLite

open List Function

/-- The register of the reflected CRC-32 takes one bit of the message. -/
def crcBit (crc : UInt32) (bit : Bool) : UInt32 :=
  if crc.toNat.testBit 0 ^^ bit then (0xEDB88320 : UInt32) ^^^ (crc >>> 1) else crc >>> 1

/-- The bits of a byte, the lowest first. -/
def byteBits (byte : UInt8) : List Bool :=
  (range 8).map byte.toNat.testBit

/-- The reflected CRC-32 bit by bit, with complemented input and output. -/
def bitwiseCrc (crc : UInt32) (buf : Buffer) : UInt32 :=
  ~~~(buf.flatMap byteBits).foldl crcBit (~~~crc)

theorem crcShift_eq_crcBit (crc : UInt32) : crcShift crc = crcBit crc false := by
  have low : crc &&& 1 ≠ 0 ↔ (crc.toNat.testBit 0 ^^ false) = true := by
    rw [Ne, ← UInt32.toNat_inj, UInt32.toNat_and, Bool.xor_false, Nat.testBit_zero,
      decide_eq_true_eq]
    change ¬crc.toNat &&& 1 = 0 ↔ _
    rw [Nat.and_one_is_mod]
    omega
  rw [crcShift, crcBit]
  simp only [low]

/-- The registers of two messages, one of zeros, add up. -/
theorem crcBit_xor (first second : UInt32) (bit : Bool) :
    crcBit (first ^^^ second) bit = crcShift first ^^^ crcBit second bit := by
  rw [crcShift_eq_crcBit, crcBit, crcBit, crcBit, UInt32.toNat_xor, Nat.testBit_xor,
    UInt32.shiftRight_xor]
  have left (shifted rest : UInt32) : 0xEDB88320 ^^^ (shifted ^^^ rest) =
      shifted ^^^ (0xEDB88320 ^^^ rest) := by
    rw [← UInt32.xor_assoc, UInt32.xor_comm 0xEDB88320, UInt32.xor_assoc]
  have twice (rest : UInt32) : 0xEDB88320 ^^^ (0xEDB88320 ^^^ rest) = rest := by
    rw [← UInt32.xor_assoc, UInt32.xor_self, UInt32.zero_xor]
  cases first.toNat.testBit 0 <;> cases second.toNat.testBit 0 <;> cases bit <;>
    simp [UInt32.xor_assoc, left (first >>> 1), twice]

@[simp]
theorem crcShift_iterate_xor (count : Nat) (first second : UInt32) :
    crcShift^[count] (first ^^^ second) = crcShift^[count] first ^^^ crcShift^[count] second := by
  induction count generalizing first second with
  | zero => rfl
  | succ count ih =>
    rw [iterate_succ_apply, iterate_succ_apply, iterate_succ_apply,
      crcShift_eq_crcBit (first ^^^ second), crcBit_xor, ← crcShift_eq_crcBit, ih]

/-- The message can be added at the end. -/
theorem foldl_crcBit (bits : List Bool) (first second : UInt32) :
    bits.foldl crcBit (first ^^^ second) =
      crcShift^[bits.length] first ^^^ bits.foldl crcBit second := by
  induction bits generalizing first second with
  | nil => rfl
  | cons bit bits ih => rw [foldl_cons, crcBit_xor, ih, length_cons, iterate_succ_apply, foldl_cons]

/-- A register whose low bits are zero only moves down. -/
@[simp]
theorem toNat_crcShift_iterate {count : Nat} {crc : UInt32} (clear : 2 ^ count ∣ crc.toNat) :
    (crcShift^[count] crc).toNat = crc.toNat / 2 ^ count := by
  induction count generalizing crc with
  | zero => simp
  | succ count ih =>
    obtain ⟨rest, value⟩ := clear
    have even : crc.toNat = 2 * (2 ^ count * rest) := by
      rw [value, Nat.pow_succ', Nat.mul_assoc]
    have shifted : (crcShift crc).toNat = 2 ^ count * rest := by
      rw [crcShift_eq_crcBit, crcBit, if_neg]
      · rw [UInt32.toNat_shiftRight, even]
        change (2 * (2 ^ count * rest)) >>> 1 = _
        rw [Nat.shiftRight_one]
        omega
      · simp [even]
    rw [iterate_succ_apply, ih ⟨rest, shifted⟩, shifted, value,
      Nat.mul_div_cancel_left _ (Nat.two_pow_pos _), Nat.mul_div_cancel_left _ (Nat.two_pow_pos _)]

/-- Eight shifts by the table. -/
theorem crcTable_xor (crc : UInt32) :
    crcTable (crc &&& 0xFF) ^^^ crc >>> 8 = crcShift^[8] crc := by
  have low : (crc &&& 0xFF).toNat = crc.toNat % 2 ^ 8 := Nat.and_two_pow_sub_one_eq_mod crc.toNat 8
  have high : (crc &&& 0xFF ^^^ crc).toNat % 2 ^ 8 = 0 := by
    rw [UInt32.toNat_xor, low, Nat.xor_mod_two_pow, Nat.mod_mod, Nat.xor_self]
  have moved : crcShift^[8] (crc &&& 0xFF ^^^ crc) = crc >>> 8 := by
    rw [← UInt32.toNat_inj, toNat_crcShift_iterate (Nat.dvd_of_mod_eq_zero high),
      UInt32.toNat_xor, low, Nat.xor_div_two_pow, Nat.mod_div_self, Nat.zero_xor]
    exact (Nat.shiftRight_eq_div_pow _ _).symm
  rw [← moved, crcTable, ← crcShift_iterate_xor, ← UInt32.xor_assoc, UInt32.xor_self,
    UInt32.zero_xor]

/-- The bits of a byte, taken at once. -/
theorem foldl_byteBits (crc : UInt32) (byte : UInt8) :
    (byteBits byte).foldl crcBit crc =
      crcTable ((crc ^^^ byte.toUInt32) &&& 0xFF) ^^^ crc >>> 8 := by
  have entry : (byteBits byte).foldl crcBit 0 = crcShift^[8] byte.toUInt32 := by
    have all : ∀ n : Fin 256, (byteBits (.ofFin n)).foldl crcBit 0 =
        crcShift^[8] (UInt8.ofFin n).toUInt32 := by decide +kernel
    exact all byte.toFin
  have above : (crc ^^^ byte.toUInt32) >>> 8 = crc >>> 8 := by
    rw [← UInt32.toNat_inj, UInt32.toNat_shiftRight, UInt32.toNat_shiftRight, UInt32.toNat_xor]
    change (crc.toNat ^^^ byte.toNat) >>> 8 = crc.toNat >>> 8
    rw [Nat.shiftRight_xor_distrib, Nat.shiftRight_eq_div_pow byte.toNat,
      Nat.div_eq_of_lt byte.toNat_lt, Nat.xor_zero]
  have split := foldl_crcBit (byteBits byte) crc 0
  rw [UInt32.xor_zero, entry] at split
  rw [split, ← above, crcTable_xor, crcShift_iterate_xor]
  rfl

/-- `ggl_update_crc` is the reflected CRC-32, and a checksum can be continued. -/
theorem gglUpdateCrc_eq_bitwiseCrc :
    (∀ crc buf, gglUpdateCrc crc buf = bitwiseCrc crc buf) ∧
      ∀ crc first second, gglUpdateCrc (gglUpdateCrc crc first) second =
        gglUpdateCrc crc (first ++ second) := by
  refine ⟨fun crc buf => ?_, gglUpdateCrc_append⟩
  rw [gglUpdateCrc, bitwiseCrc, foldl_flatMap]
  simp only [foldl_byteBits]

/-! ## Corrupted packets -/

/-- A shift loses nothing: the bit that goes out shows in the highest one. -/
theorem crcShift_injective : Injective crcShift := by
  intro first second same
  have shifted : crcShift (first ^^^ second) = 0 :=
    (crcShift_iterate_xor 1 first second).trans (UInt32.xor_eq_zero_iff.mpr same)
  rw [← UInt32.xor_eq_zero_iff]
  generalize first ^^^ second = crc at shifted
  have half : (crc >>> 1).toNat = crc.toNat / 2 := Nat.shiftRight_one crc.toNat
  have bound := crc.toNat_lt
  rw [crcShift_eq_crcBit, crcBit, Bool.xor_false, Nat.testBit_zero] at shifted
  split_ifs at shifted with odd
  · rw [← UInt32.xor_eq_zero_iff.mp shifted] at half
    change 3988292384 = _ at half
    omega
  · rw [shifted, UInt32.toNat_zero] at half
    rw [decide_eq_true_eq] at odd
    exact UInt32.toNat_inj.mp (show crc.toNat = 0 by omega)

theorem gglUpdateCrc_cons (crc : UInt32) (byte : UInt8) (rest : Buffer) :
    gglUpdateCrc crc (byte :: rest) =
      gglUpdateCrc (~~~crcShift^[8] (~~~crc ^^^ byte.toUInt32)) rest := by
  have high : byte.toUInt32 >>> 8 = 0 :=
    UInt32.toNat_inj.mp ((Nat.shiftRight_eq_div_pow _ _).trans (Nat.div_eq_of_lt byte.toNat_lt))
  rw [gglUpdateCrc, gglUpdateCrc, UInt32.not_not, foldl_cons, ← crcTable_xor,
    UInt32.shiftRight_xor, high, UInt32.xor_zero]

theorem gglUpdateCrc_injective (buf : Buffer) : Injective (gglUpdateCrc · buf) := by
  induction buf with
  | nil => exact fun first second same => UInt32.not_inj.mp (UInt32.not_inj.mp same)
  | cons byte buf ih =>
    intro first second same
    simp only [gglUpdateCrc_cons] at same
    have shifted := crcShift_injective.iterate 8 (UInt32.not_inj.mp (ih same))
    exact UInt32.not_inj.mp ((UInt32.xor_left_inj _).mp shifted)

/-- Of two sections that end with their checksums and differ in one byte, one is wrong. -/
theorem eq_of_checked {crc : UInt32} {before after : Buffer} {byte other : UInt8} {n : Nat}
    (width : (before ++ byte :: after).length = n + 4)
    (first : gglUpdateCrc crc ((before ++ byte :: after).take n) =
      readBeUint32 ((before ++ byte :: after).drop n))
    (second : gglUpdateCrc crc ((before ++ other :: after).take n) =
      readBeUint32 ((before ++ other :: after).drop n)) : byte = other := by
  rcases Nat.lt_or_ge before.length n with inside | outside
  · -- the checksum covers the byte
    obtain ⟨covered, rfl⟩ := Nat.exists_eq_add_of_lt inside
    rw [Nat.add_assoc, take_length_add_append, drop_length_add_append] at first second
    have same := first.trans second.symm
    rw [take_succ_cons, take_succ_cons, ← gglUpdateCrc_append, ← gglUpdateCrc_append,
      gglUpdateCrc_cons, gglUpdateCrc_cons] at same
    have shifted := UInt32.not_inj.mp (gglUpdateCrc_injective _ same)
    exact UInt8.toUInt32_inj.mp
      ((UInt32.xor_right_inj _).mp (crcShift_injective.iterate 8 shifted))
  · -- the byte belongs to the checksum
    rw [length_append, length_cons] at width
    rw [take_append_of_le_length outside, drop_append_of_le_length outside] at first second
    have bytes := congrArg writeBeU32 (first.symm.trans second)
    rw [writeBeU32_readBeUint32, writeBeU32_readBeUint32] at bytes
    · exact (cons.inj (append_cancel_left bytes)).1
    all_goals
      rw [length_append, length_drop, length_cons]
      omega

/-- Of two preludes, or two data sections behind one prelude, that differ in one byte only, at most
one is accepted. -/
theorem corrupted_byte_rejected (before after : Buffer) (byte other : UInt8) :
    (∀ prelude corrupted, (before ++ byte :: after).length = 12 →
      eventstreamDecodePrelude (before ++ byte :: after) = .ok prelude →
      eventstreamDecodePrelude (before ++ other :: after) = .ok corrupted → byte = other) ∧
    ∀ prelude message corrupted,
      eventstreamDecode prelude (before ++ byte :: after) = .ok message →
      eventstreamDecode prelude (before ++ other :: after) = .ok corrupted → byte = other := by
  have sameLength : (before ++ other :: after).length = (before ++ byte :: after).length := by simp
  constructor
  · intro prelude corrupted width accepted decoded
    exact eq_of_checked width ((eventstreamDecodePrelude_eq_ok_iff width).mp accepted).1
      ((eventstreamDecodePrelude_eq_ok_iff (sameLength.trans width)).mp decoded).1
  · intro prelude message corrupted accepted decoded
    have long : 4 ≤ (before ++ byte :: after).length := by
      by_contra short
      rw [eventstreamDecode, if_pos (Nat.lt_of_not_le short)] at accepted
      cases accepted
    have second := ((eventstreamDecode_eq_ok_iff (sameLength ▸ long)).mp decoded).1
    rw [sameLength] at second
    exact eq_of_checked (Nat.sub_add_cancel long).symm
      ((eventstreamDecode_eq_ok_iff long).mp accepted).1 second

/-- A packet with one header is accepted, and with another value in the header it is not. -/
theorem corrupted_byte_rejected_one_header :
    let prelude : EventStreamPrelude :=
      ⟨10, 6, gglUpdateCrc 0 [0, 0, 0, 22, 0, 0, 0, 6, 99, 225, 24, 126]⟩
    (∃ message, eventstreamDecode prelude [0, 4, 0, 0, 0, 1, 111, 37, 115, 214] = .ok message) ∧
      ∀ corrupted,
        eventstreamDecode prelude [0, 4, 0, 0, 0, 2, 111, 37, 115, 214] ≠ .ok corrupted := by
  intro prelude
  have accepted : eventstreamDecode prelude [0, 4, 0, 0, 0, 1, 111, 37, 115, 214] =
      .ok (⟨1, [0, 4, 0, 0, 0, 1, 111, 37, 115, 214]⟩, []) := by
    refine (eventstreamDecode_eq_ok_iff (by decide)).mpr
      ⟨by decide +kernel, by decide, ?_, rfl, rfl⟩
    refine countHeadersLoop_eq_ok_iff.mpr ⟨[([], .int32 1)], ?_, rfl, rfl⟩
    simp [HeaderFits, EventStreamValue.Fits]
  refine ⟨⟨_, accepted⟩, fun corrupted decoded => ?_⟩
  have same := (corrupted_byte_rejected [0, 4, 0, 0, 0] [111, 37, 115, 214] 1 2).2 prelude _ _
    accepted decoded
  cases same

end GreengrassLite

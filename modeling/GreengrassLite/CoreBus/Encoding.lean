import GreengrassLite.CoreBus.Serde

/-!
# What is written and what is read

The bytes that `ggl_serialize` writes for an object, defined by recursion over the
object, and the two limits it checks: lengths of 32 bits, and the number of nested
containers.  `ggl_deserialize` does not count containers without entries.

The loops are followed object by object: writing, or reading, one object with everything
in it takes the loop from one moment to another with the same levels.
-/

namespace GreengrassLite

open Library List GglObject

/-! ## The encoding -/

/-- A length and as many bytes. -/
def encodeBuf (buffer : Buffer) : Buffer :=
  leBytes 4 buffer.length ++ buffer

namespace GglObject

mutual

/-- The encoding of an object. -/
def encode : GglObject → Buffer
  | .null => [GglObjectType.null.tag]
  | .boolean value => [GglObjectType.boolean.tag, if value then 1 else 0]
  | .i64 value => GglObjectType.i64.tag :: leBytes 8 (twosComplement 64 value)
  | .f64 bits => GglObjectType.f64.tag :: leBytes 8 bits.toNat
  | .buf bytes => GglObjectType.buf.tag :: encodeBuf bytes
  | .list items => GglObjectType.list.tag :: (leBytes 4 items.length ++ encodeItems items)
  | .map pairs => GglObjectType.map.tag :: (leBytes 4 pairs.length ++ encodePairs pairs)

def encodeItems : List GglObject → Buffer
  | [] => []
  | item :: items => encode item ++ encodeItems items

def encodePairs : GglMap → Buffer
  | [] => []
  | (key, value) :: pairs => encodeBuf key ++ (encode value ++ encodePairs pairs)

end

mutual

/-- All lengths in the object fit 32 bits. -/
def LengthsFit : GglObject → Prop
  | .buf bytes => bytes.length ≤ uint32Max
  | .list items => items.length ≤ uint32Max ∧ ItemsFit items
  | .map pairs => pairs.length ≤ uint32Max ∧ PairsFit pairs
  | _ => True

def ItemsFit : List GglObject → Prop
  | [] => True
  | item :: items => LengthsFit item ∧ ItemsFit items

def PairsFit : GglMap → Prop
  | [] => True
  | (key, value) :: pairs => key.length ≤ uint32Max ∧ LengthsFit value ∧ PairsFit pairs

end

mutual

/-- All integers in the object are of the type `int64_t`. -/
def Int64s : GglObject → Prop
  | .i64 value => SignedFits 64 value
  | .list items => ItemsInt64s items
  | .map pairs => PairsInt64s pairs
  | _ => True

def ItemsInt64s : List GglObject → Prop
  | [] => True
  | item :: items => Int64s item ∧ ItemsInt64s items

def PairsInt64s : GglMap → Prop
  | [] => True
  | (_, value) :: pairs => Int64s value ∧ PairsInt64s pairs

end

mutual

/-- The number of nested containers, those without entries not counted. -/
def openDepth : GglObject → Nat
  | .list [] => 0
  | .list (item :: items) => 1 + max (openDepth item) (itemsOpenDepth items)
  | .map [] => 0
  | .map ((_, value) :: pairs) => 1 + max (openDepth value) (pairsOpenDepth pairs)
  | _ => 0

def itemsOpenDepth : List GglObject → Nat
  | [] => 0
  | item :: items => max (openDepth item) (itemsOpenDepth items)

def pairsOpenDepth : GglMap → Nat
  | [] => 0
  | (_, value) :: pairs => max (openDepth value) (pairsOpenDepth pairs)

end

mutual

theorem openDepth_le_depth : ∀ object : GglObject, object.openDepth ≤ object.depth
  | .null | .boolean _ | .i64 _ | .f64 _ | .buf _ => Nat.le_refl _
  | .list [] => Nat.zero_le _
  | .list (item :: items) => by
    have first := openDepth_le_depth item
    have others := itemsOpenDepth_le_listDepth items
    rw [openDepth, depth, listDepth]
    omega
  | .map [] => Nat.zero_le _
  | .map ((_, value) :: pairs) => by
    have first := openDepth_le_depth value
    have others := pairsOpenDepth_le_pairsDepth pairs
    rw [openDepth, depth, pairsDepth]
    omega

theorem itemsOpenDepth_le_listDepth :
    ∀ items : List GglObject, itemsOpenDepth items ≤ listDepth items
  | [] => Nat.le_refl _
  | item :: items => by
    have first := openDepth_le_depth item
    have others := itemsOpenDepth_le_listDepth items
    rw [itemsOpenDepth, listDepth]
    omega

theorem pairsOpenDepth_le_pairsDepth : ∀ pairs : GglMap, pairsOpenDepth pairs ≤ pairsDepth pairs
  | [] => Nat.le_refl _
  | (_, value) :: pairs => by
    have first := openDepth_le_depth value
    have others := pairsOpenDepth_le_pairsDepth pairs
    rw [pairsOpenDepth, pairsDepth]
    omega

end

end GglObject

/-! ## Writing -/

section Writing

variable {mem : Nat} {written out : Buffer} {levels : List WriteLevel}

theorem serializeLoop_cons (level : WriteLevel) :
    serializeLoop mem ⟨written, level :: levels⟩ =
      serializeRound mem written levels level >>= serializeLoop mem := by
  rw [serializeLoop]
  cases went : serializeRound mem written levels level with
  | error | ok => rfl

/-- The writer goes on as `after`, within the limits and if there is room `upto` there. -/
structure Proceeds (mem : Nat) (limits : Prop) (upto : Buffer)
    (before after : Except GglError Buffer) : Prop where
  sound : ∀ {out}, before = .ok out → limits ∧ after = .ok out
  complete : mem < 2 ^ 64 → limits → upto.length ≤ mem → before = after

namespace Proceeds

variable {limits others : Prop} {upto more : Buffer} {before between after : Except GglError Buffer}

theorem refl : Proceeds mem True upto after after :=
  ⟨fun ended => ⟨trivial, ended⟩, fun _ _ _ => rfl⟩

theorem trans (first : Proceeds mem limits upto before between)
    (second : limits → Proceeds mem others (upto ++ more) between after) :
    Proceeds mem (limits ∧ others) (upto ++ more) before after where
  sound ended := by
    rcases first.sound ended with ⟨within, goesOn⟩
    rcases (second within).sound goesOn with ⟨further, ends⟩
    exact ⟨⟨within, further⟩, ends⟩
  complete wide within room := by
    have enough := room
    rw [length_append] at enough
    rw [first.complete wide within.1 (by omega), (second within.1).complete wide within.2 room]

theorem congr (written : Proceeds mem limits upto before after) (same : limits ↔ others)
    (bytes : upto = more) : Proceeds mem others more before after := by
  rwa [← bytes, ← propext same]

/-- What `write` does in front of anything. -/
theorem of_write {α : Type} {write : Except GglError α} {result : α}
    {rest : α → Except GglError Buffer}
    (sound : ∀ {value}, write = .ok value → limits ∧ value = result)
    (complete : mem < 2 ^ 64 → limits → upto.length ≤ mem → write = .ok result) :
    Proceeds mem limits upto (write >>= rest) (rest result) where
  sound ended := by
    rcases except_bind_eq_ok_iff.mp ended with ⟨value, wrote, ends⟩
    rcases sound wrote with ⟨within, rfl⟩
    exact ⟨within, ends⟩
  complete wide within room := by
    rw [complete wide within room]
    rfl

end Proceeds

theorem proceeds_bumpWrite {bytes : Buffer} {rest : Buffer → Except GglError Buffer} :
    Proceeds mem True (written ++ bytes) (bumpWrite mem written bytes >>= rest)
      (rest (written ++ bytes)) :=
  .of_write (fun wrote => ⟨trivial, bumpWrite_eq_ok wrote⟩)
    fun wide _ room => bumpWrite_of_fits wide room

theorem proceeds_writeBuf {buffer : Buffer} {rest : Buffer → Except GglError Buffer} :
    Proceeds mem (buffer.length ≤ uint32Max) (written ++ encodeBuf buffer)
      (writeBuf mem written buffer >>= rest) (rest (written ++ encodeBuf buffer)) := by
  refine .of_write (fun wrote => ?_) fun wide short room => ?_
  · rw [writeBuf] at wrote
    split at wrote
    · cases wrote
    next short => exact ⟨Nat.le_of_not_lt short, bumpWrite_eq_ok wrote⟩
  · rw [writeBuf, if_neg (Nat.not_lt.mpr short)]
    exact bumpWrite_of_fits wide room

theorem proceeds_writeContainer {len : Nat} {level : WriteLevel} :
    Proceeds mem (len ≤ uint32Max ∧ levels.length < maxObjectDepth) (written ++ leBytes 4 len)
      (writeContainer mem ⟨written, levels⟩ len level >>= serializeLoop mem)
      (serializeLoop mem ⟨written ++ leBytes 4 len, level :: levels⟩) := by
  refine .of_write (fun begun => ?_) fun wide within room => ?_
  · rw [writeContainer] at begun
    split at begun
    · cases begun
    next short =>
      rcases except_bind_eq_ok_iff.mp begun with ⟨after, wrote, pushed⟩
      rcases except_bind_eq_ok_iff.mp pushed with ⟨deeper, taken, ended⟩
      cases ended
      rw [bumpWrite_eq_ok wrote]
      rw [pushParseState] at taken
      split at taken
      · cases taken
      next free =>
        cases taken
        exact ⟨⟨Nat.le_of_not_lt short, Nat.lt_of_not_le free⟩, rfl⟩
  · rw [writeContainer, if_neg (Nat.not_lt.mpr within.1)]
    rw [bumpWrite_of_fits wide room, pushParseState, if_neg (Nat.not_le.mpr within.2)]
    rfl

mutual

/-- The encoding of an object is written, if its lengths and its depth are within the limits. -/
theorem proceeds_writeObj : ∀ (obj : GglObject) (written : Buffer) (levels : List WriteLevel),
    levels.length ≤ maxObjectDepth →
    Proceeds mem (obj.LengthsFit ∧ levels.length + obj.depth ≤ maxObjectDepth)
      (written ++ obj.encode) (writeObj mem ⟨written, levels⟩ obj >>= serializeLoop mem)
      (serializeLoop mem ⟨written ++ obj.encode, levels⟩)
  | .null, _, _, bounded => by
    rw [writeObj, bind_assoc]
    exact proceeds_bumpWrite.congr ⟨fun _ => ⟨trivial, bounded⟩, fun _ => trivial⟩ rfl
  | .boolean _, _, _, bounded | .i64 _, _, _, bounded | .f64 _, _, _, bounded => by
    rw [writeObj, bind_assoc, encode, append_cons]
    refine (proceeds_bumpWrite.trans fun _ => ?_).congr
      ⟨fun _ => ⟨trivial, bounded⟩, fun _ => ⟨trivial, trivial⟩⟩ rfl
    rw [bind_assoc]
    exact proceeds_bumpWrite
  | .buf bytes, _, _, bounded => by
    rw [writeObj, bind_assoc, encode, append_cons]
    refine (proceeds_bumpWrite.trans fun _ => ?_).congr
      ⟨fun within => ⟨within.2, bounded⟩, fun within => ⟨trivial, within.1⟩⟩ rfl
    rw [bind_assoc]
    exact proceeds_writeBuf
  | .list items, _, levels, bounded => by
    rw [writeObj, bind_assoc, encode, append_cons, ← append_assoc, depth, ← Nat.add_assoc]
    refine ((proceeds_bumpWrite.trans fun _ => proceeds_writeContainer).trans fun within =>
      proceeds_writeItems items _ levels within.2.2).congr ?_ rfl
    rw [LengthsFit]
    grind
  | .map pairs, _, levels, bounded => by
    rw [writeObj, bind_assoc, encode, append_cons, ← append_assoc, depth, ← Nat.add_assoc]
    refine ((proceeds_bumpWrite.trans fun _ => proceeds_writeContainer).trans fun within =>
      proceeds_writePairs pairs _ levels within.2.2).congr ?_ rfl
    rw [LengthsFit]
    grind

theorem proceeds_writeItems :
    ∀ (items : List GglObject) (written : Buffer) (levels : List WriteLevel),
      levels.length < maxObjectDepth →
      Proceeds mem (ItemsFit items ∧ levels.length + 1 + listDepth items ≤ maxObjectDepth)
        (written ++ encodeItems items) (serializeLoop mem ⟨written, .handlingObj items :: levels⟩)
        (serializeLoop mem ⟨written ++ encodeItems items, levels⟩)
  | [], written, levels, bounded => by
    rw [serializeLoop_cons, encodeItems, append_nil]
    exact Proceeds.refl.congr ⟨fun _ => ⟨trivial, bounded⟩, fun _ => trivial⟩ rfl
  | item :: items, written, levels, bounded => by
    rw [serializeLoop_cons, encodeItems, ← append_assoc]
    refine ((proceeds_writeObj item written (.handlingObj items :: levels) bounded).trans fun _ =>
      proceeds_writeItems items _ levels bounded).congr ?_ rfl
    rw [ItemsFit, length_cons, listDepth]
    grind

theorem proceeds_writePairs :
    ∀ (pairs : GglMap) (written : Buffer) (levels : List WriteLevel),
      levels.length < maxObjectDepth →
      Proceeds mem (PairsFit pairs ∧ levels.length + 1 + pairsDepth pairs ≤ maxObjectDepth)
        (written ++ encodePairs pairs) (serializeLoop mem ⟨written, .handlingKv pairs :: levels⟩)
        (serializeLoop mem ⟨written ++ encodePairs pairs, levels⟩)
  | [], written, levels, bounded => by
    rw [serializeLoop_cons, encodePairs, append_nil]
    exact Proceeds.refl.congr ⟨fun _ => ⟨trivial, bounded⟩, fun _ => trivial⟩ rfl
  | (key, value) :: pairs, written, levels, bounded => by
    rw [serializeLoop_cons, encodePairs, ← append_assoc, ← append_assoc, serializeRound, bind_assoc]
    refine ((proceeds_writeBuf.trans fun _ =>
      proceeds_writeObj value _ (.handlingKv pairs :: levels) bounded).trans fun _ =>
        proceeds_writePairs pairs _ levels bounded).congr ?_ rfl
    rw [PairsFit, length_cons, pairsDepth]
    grind

end

/-- `ggl_serialize` writes the encoding of an object within the limits. -/
theorem proceeds_gglSerialize {obj : GglObject} :
    Proceeds mem (obj.LengthsFit ∧ obj.depth < maxObjectDepth) obj.encode (gglSerialize obj mem)
      (.ok obj.encode) := by
  have written := @proceeds_writeItems mem [obj] [] [] (by decide)
  rw [encodeItems, encodeItems, append_nil, serializeLoop] at written
  refine written.congr ?_ rfl
  rw [ItemsFit, ItemsFit, listDepth, listDepth]
  grind

end Writing

end GreengrassLite

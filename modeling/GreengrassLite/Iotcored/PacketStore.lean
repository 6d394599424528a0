import GreengrassLite.Core.Object
import GreengrassLite.Library.Region
import GreengrassLite.Library.Run
import Mathlib.Algebra.GroupWithZero.Nat
import Mathlib.Data.List.Nodup

/-!
# Unacknowledged publishes

`iotcored/src/mqtt.c` keeps the publishes that the broker has not acknowledged.  Their
bytes stand one after the other in a fixed buffer, and an array of records holds the
packet id, the position and the length of each.  A record is free when its id is zero.
Clearing a packet moves the bytes behind it to the front and closes the gap in the
array.

A pointer into the buffer is an offset, `NULL` is `none`.
-/

namespace GreengrassLite

open Library List

variable {before after : List (UInt16 × Buffer)} {packetId : UInt16}
  {offset : Nat} {record : StoredPublish} {packet : Buffer}

/-- `StoredPublish`. -/
structure StoredPublish where
  packetId : UInt16
  serializedPacket : Option Nat
  serializedPacketLen : Nat
  deriving DecidableEq, Repr

namespace StoredPublish

def cleared : StoredPublish :=
  ⟨0, none, 0⟩

def start (record : StoredPublish) : Nat :=
  record.serializedPacket.getD 0

def stop (record : StoredPublish) : Nat :=
  record.start + record.serializedPacketLen

end StoredPublish

/-- `IOTCORED_MQTT_MAX_PUBLISH_RECORDS`. -/
def mqttMaxPublishRecords : Nat :=
  10

/-- `unacked_publishes` and `packet_store_buffer`. -/
structure PacketStore where
  unackedPublishes : List StoredPublish
  packetStoreBuffer : Buffer
  deriving DecidableEq, Repr

namespace PacketStore

/-- The static arrays at the start, for a buffer of any size. -/
def empty (bufferSize : Nat) : PacketStore :=
  ⟨replicate mqttMaxPublishRecords .cleared, replicate bufferSize 0⟩

variable (store : PacketStore)

/-- `mqtt_pub_alloc`. -/
def mqttPubAlloc (length : Nat) : Option Nat :=
  match store.unackedPublishes.findIdx? (·.packetId = 0) with
  | none => none
  | some i =>
    let bytesFilled :=
      if i = 0 then 0 else ((store.unackedPublishes[i - 1]?).map StoredPublish.stop).getD 0
    if store.packetStoreBuffer.length - bytesFilled < length then none else some bytesFilled

/-- The loop of `mqtt_pub_free` over the records from the freed one: the records behind it
come one place and `byteOffset` bytes forward, and the last place is cleared. -/
def compactRecords (byteOffset : Nat) : List StoredPublish → List StoredPublish
  | [] => []
  | [_] => [.cleared]
  | _ :: next :: rest =>
    if next.packetId = 0 then .cleared :: next :: rest
    else
      { next with serializedPacket := next.serializedPacket.map (· - byteOffset) } ::
        compactRecords byteOffset (next :: rest)

/-- `mqtt_pub_free`. -/
def mqttPubFree (ptr : Option Nat) : PacketStore :=
  match store.unackedPublishes.findIdx? fun record =>
      record.packetId ≠ 0 ∧ record.serializedPacket = ptr with
  | none => store
  | some i =>
    let freed := (store.unackedPublishes[i]?).getD .cleared
    let byteOffset := freed.serializedPacketLen
    let moved :=
      if i = store.unackedPublishes.length - 1 then store.packetStoreBuffer
      else memmove store.packetStoreBuffer freed.start freed.stop
        (store.packetStoreBuffer.length - freed.stop)
    { unackedPublishes :=
        store.unackedPublishes.take i ++ compactRecords byteOffset (store.unackedPublishes.drop i)
      packetStoreBuffer :=
        memset moved (store.packetStoreBuffer.length - byteOffset) 0 byteOffset }

variable (packetId : UInt16)

/-- `mqtt_store_packet`; the packet comes as the pieces of an `MQTTVec_t`. -/
def mqttStorePacket (mqttVec : List Buffer) : Bool × PacketStore :=
  match store.unackedPublishes.findIdx? (·.packetId = 0) with
  | none => (false, store)
  | some i =>
    let memoryNeeded := (mqttVec.map length).sum
    match store.mqttPubAlloc memoryNeeded with
    | none => (false, store)
    | some allocatedMem =>
      (true,
        { unackedPublishes :=
            store.unackedPublishes.set i ⟨packetId, some allocatedMem, memoryNeeded⟩
          packetStoreBuffer :=
            overwrite store.packetStoreBuffer allocatedMem mqttVec.flatten })

/-- `mqtt_retrieve_packet`: the position and the length it hands out. -/
def mqttRetrievePacket : Option (Option Nat × Nat) :=
  (store.unackedPublishes.find? (·.packetId = packetId)).map fun record =>
    (record.serializedPacket, record.serializedPacketLen)

/-- The bytes its caller finds there. -/
def retrieved : Option Buffer :=
  (store.mqttRetrievePacket packetId).map fun found =>
    region store.packetStoreBuffer (found.1.getD 0) found.2

/-- `mqtt_clear_packet`. -/
def mqttClearPacket : PacketStore :=
  match store.unackedPublishes.find? (·.packetId = packetId) with
  | none => store
  | some record => store.mqttPubFree record.serializedPacket

end PacketStore

/-! ## Packets laid out in a buffer -/

/-- The records of packets whose bytes follow each other from `offset`. -/
def layout (offset : Nat) : List (UInt16 × Buffer) → List StoredPublish
  | [] => []
  | (packetId, packet) :: rest =>
    ⟨packetId, some offset, packet.length⟩ :: layout (offset + packet.length) rest

/-- Their bytes. -/
def packetBytes (packets : List (UInt16 × Buffer)) : Buffer :=
  (packets.map Prod.snd).flatten

@[simp]
theorem packetBytes_nil : packetBytes [] = [] :=
  rfl

@[simp]
theorem packetBytes_cons (packet : UInt16 × Buffer) (packets : List (UInt16 × Buffer)) :
    packetBytes (packet :: packets) = packet.2 ++ packetBytes packets :=
  rfl

@[simp]
theorem packetBytes_append (packets others : List (UInt16 × Buffer)) :
    packetBytes (packets ++ others) = packetBytes packets ++ packetBytes others := by
  simp [packetBytes]

@[simp]
theorem length_layout (offset : Nat) (packets : List (UInt16 × Buffer)) :
    (layout offset packets).length = packets.length := by
  induction packets generalizing offset with
  | nil => rfl
  | cons packet rest ih => exact congrArg (· + 1) (ih _)

@[simp]
theorem layout_append (offset : Nat) (packets others : List (UInt16 × Buffer)) :
    layout offset (packets ++ others) =
      layout offset packets ++ layout (offset + (packetBytes packets).length) others := by
  induction packets generalizing offset with
  | nil => rfl
  | cons packet rest ih =>
    simp only [cons_append, layout, ih, packetBytes_cons, length_append, Nat.add_assoc]

@[simp]
theorem sum_layout (offset : Nat) (packets : List (UInt16 × Buffer)) :
    ((layout offset packets).map StoredPublish.serializedPacketLen).sum =
      (packetBytes packets).length := by
  induction packets generalizing offset with
  | nil => rfl
  | cons packet rest ih => simp [layout, ih]

theorem mem_layout {packets : List (UInt16 × Buffer)} (listed : record ∈ layout offset packets) :
    ∃ before packetId packet after, packets = before ++ (packetId, packet) :: after ∧
      record = ⟨packetId, some (offset + (packetBytes before).length), packet.length⟩ := by
  induction packets generalizing offset with
  | nil => cases listed
  | cons first rest ih =>
    rcases first with ⟨packetId, packet⟩
    rcases mem_cons.mp listed with rfl | behind
    · exact ⟨[], packetId, packet, rest, rfl, rfl⟩
    · rcases ih behind with ⟨before, otherId, other, after, rfl, rfl⟩
      refine ⟨(packetId, packet) :: before, otherId, other, after, rfl, ?_⟩
      simp [Nat.add_assoc]

theorem packetId_mem_of_mem_layout {packets : List (UInt16 × Buffer)}
    (listed : record ∈ layout offset packets) : record.packetId ∈ packets.map Prod.fst := by
  rcases mem_layout listed with ⟨before, packetId, packet, after, rfl, rfl⟩
  exact mem_map_of_mem (mem_append_right before mem_cons_self)

/-- The array and the buffer of a store that holds `packets` in this order. -/
structure PacketStore.Holds (store : PacketStore) (bufferSize : Nat)
    (packets : List (UInt16 × Buffer)) : Prop where
  records : ∃ free, store.unackedPublishes = layout 0 packets ++ replicate free .cleared
  bytes : ∃ spare, store.packetStoreBuffer = packetBytes packets ++ spare
  slots : store.unackedPublishes.length = mqttMaxPublishRecords
  size : store.packetStoreBuffer.length = bufferSize
  ids : ∀ packet ∈ packets, packet.1 ≠ 0
  nonempty : ∀ packet ∈ packets, packet.2 ≠ []
  distinct : (packets.map Prod.fst).Nodup

namespace PacketStore

variable {store : PacketStore} {bufferSize : Nat} {packets : List (UInt16 × Buffer)}

theorem holds_empty (bufferSize : Nat) : (empty bufferSize).Holds bufferSize [] where
  records := ⟨mqttMaxPublishRecords, rfl⟩
  bytes := ⟨replicate bufferSize 0, rfl⟩
  slots := length_replicate
  size := length_replicate
  ids := nofun
  nonempty := nofun
  distinct := nodup_nil

theorem findIdx?_append_cons {α : Type} {p : α → Bool} {before : List α} {found : α}
    (after : List α) (skipped : ∀ other ∈ before, p other = false) (matched : p found = true) :
    (before ++ found :: after).findIdx? p = some before.length := by
  rw [findIdx?_append, findIdx?_eq_none_iff.mpr skipped, findIdx?_cons, matched]
  exact congrArg some (Nat.zero_add _)

section

variable (held : store.Holds bufferSize packets)

include held

/-- The records of the packets are in use. -/
theorem Holds.used : ∀ record ∈ layout offset packets, decide (record.packetId = 0) = false := by
  intro record listed
  rcases mem_layout listed with ⟨before, packetId, packet, after, rfl, rfl⟩
  exact decide_eq_false (held.ids _ (mem_append_right before mem_cons_self))

/-- The first free record comes right behind them. -/
theorem Holds.findIdx?_free :
    store.unackedPublishes.findIdx? (·.packetId = 0) =
      if packets.length < mqttMaxPublishRecords then some packets.length else none := by
  rcases held.records with ⟨free, records⟩
  have slots := held.slots
  rw [records, length_append, length_layout, length_replicate] at slots
  cases free with
  | zero =>
    rw [if_neg (by omega), records, replicate_zero, append_nil]
    exact findIdx?_eq_none_iff.mpr held.used
  | succ free =>
    rw [if_pos (by omega), records, replicate_succ,
      findIdx?_append_cons _ held.used rfl, length_layout]

/-- The last record ends where the bytes of the packets end. -/
theorem Holds.bytesFilled :
    (if packets.length = 0 then 0
      else ((store.unackedPublishes[packets.length - 1]?).map StoredPublish.stop).getD 0) =
      (packetBytes packets).length := by
  rcases held.records with ⟨free, records⟩
  rcases eq_nil_or_concat' packets with rfl | ⟨front, ⟨packetId, packet⟩, rfl⟩
  · rfl
  · have last : store.unackedPublishes[front.length]? =
        some ⟨packetId, some (0 + (packetBytes front).length), packet.length⟩ := by
      rw [records, layout_append, append_assoc, getElem?_append_right (by simp),
        length_layout, Nat.sub_self]
      rfl
    rw [length_append, length_singleton, Nat.add_sub_cancel, last]
    simp [StoredPublish.stop, StoredPublish.start]

theorem Holds.fits : (packetBytes packets).length ≤ bufferSize := by
  rcases held.bytes with ⟨spare, bytes⟩
  rw [← held.size, bytes, length_append]
  exact Nat.le_add_right _ _

theorem Holds.mqttPubAlloc (length : Nat) :
    store.mqttPubAlloc length =
      if packets.length < mqttMaxPublishRecords ∧
          (packetBytes packets).length + length ≤ bufferSize then
        some (packetBytes packets).length
      else none := by
  have fits := held.fits
  rw [PacketStore.mqttPubAlloc, held.findIdx?_free]
  by_cases free : packets.length < mqttMaxPublishRecords
  · rw [if_pos free]
    simp only [held.bytesFilled, held.size]
    by_cases room : (packetBytes packets).length + length ≤ bufferSize
    · rw [if_neg (by omega), if_pos ⟨free, room⟩]
    · rw [if_pos (by omega), if_neg fun both => room both.2]
  · rw [if_neg free, if_neg fun both => free both.1]

/-- A packet is stored behind the others when a record is free and its bytes fit;
otherwise nothing changes. -/
theorem Holds.mqttStorePacket (packetId : UInt16) (mqttVec : List Buffer) :
    store.mqttStorePacket packetId mqttVec =
      if packets.length < mqttMaxPublishRecords ∧
          (packetBytes packets).length + mqttVec.flatten.length ≤ bufferSize then
        (true,
          { unackedPublishes := store.unackedPublishes.set packets.length
              ⟨packetId, some (packetBytes packets).length, mqttVec.flatten.length⟩
            packetStoreBuffer :=
              overwrite store.packetStoreBuffer (packetBytes packets).length mqttVec.flatten })
      else (false, store) := by
  rw [PacketStore.mqttStorePacket, held.findIdx?_free]
  by_cases free : packets.length < mqttMaxPublishRecords
  · rw [if_pos free]
    simp only [← length_flatten, held.mqttPubAlloc]
    by_cases room : (packetBytes packets).length + mqttVec.flatten.length ≤ bufferSize
    · rw [if_pos ⟨free, room⟩, if_pos ⟨free, room⟩]
    · rw [if_neg fun both => room both.2, if_neg fun both => room both.2]
  · rw [if_neg free, if_neg fun both => free both.1]

theorem Holds.exists_free_iff :
    (∃ record ∈ store.unackedPublishes, record.packetId = 0) ↔
      packets.length < mqttMaxPublishRecords := by
  have search := held.findIdx?_free
  constructor
  · rintro ⟨record, listed, isFree⟩
    by_contra full
    rw [if_neg full] at search
    exact absurd isFree (of_decide_eq_false (findIdx?_eq_none_iff.mp search record listed))
  · intro room
    rw [if_pos room] at search
    obtain ⟨inside, isFree, -⟩ := findIdx?_eq_some_iff_getElem.mp search
    exact ⟨_, getElem_mem inside, of_decide_eq_true isFree⟩

/-- A packet is stored exactly if a record is free and its bytes fit behind those stored. -/
theorem Holds.mqttStorePacket_iff (packetId : UInt16) (mqttVec : List Buffer) :
    (store.mqttStorePacket packetId mqttVec).1 = true ↔
      (∃ record ∈ store.unackedPublishes, record.packetId = 0) ∧
        (store.unackedPublishes.map StoredPublish.serializedPacketLen).sum +
          mqttVec.flatten.length ≤ bufferSize := by
  have sum : (store.unackedPublishes.map StoredPublish.serializedPacketLen).sum =
      (packetBytes packets).length := by
    rcases held.records with ⟨free, records⟩
    simp [records, StoredPublish.cleared]
  rw [held.exists_free_iff, sum, held.mqttStorePacket]
  split <;> simp_all

theorem Holds.eq_of_refused {mqttVec : List Buffer} {next : PacketStore}
    (refused : store.mqttStorePacket packetId mqttVec = (false, next)) : next = store := by
  rw [held.mqttStorePacket] at refused
  split at refused
  · cases refused
  · exact (Prod.mk.inj refused).2.symm

theorem Holds.add {mqttVec : List Buffer} {next : PacketStore} (nonzero : packetId ≠ 0)
    (nonempty : mqttVec.flatten ≠ []) (fresh : packetId ∉ packets.map Prod.fst)
    (stored : store.mqttStorePacket packetId mqttVec = (true, next)) :
    next.Holds bufferSize (packets ++ [(packetId, mqttVec.flatten)]) := by
  rw [held.mqttStorePacket] at stored
  split at stored
  case isFalse => cases stored
  case isTrue room =>
    rcases Prod.mk.inj stored with ⟨_, rfl⟩
    rcases held.records with ⟨free, records⟩
    rcases held.bytes with ⟨spare, bytes⟩
    have slots := held.slots
    have size := held.size
    constructor
    case records =>
      rw [records, length_append, length_layout, length_replicate] at slots
      cases free with
      | zero => omega
      | succ free =>
        refine ⟨free, ?_⟩
        rw [records, set_append_right _ _ (by simp), length_layout, Nat.sub_self,
          replicate_succ, set_cons_zero, layout_append, Nat.zero_add, append_assoc]
        rfl
    case bytes =>
      refine ⟨spare.drop mqttVec.flatten.length, ?_⟩
      rw [bytes, length_append] at size
      have length : mqttVec.flatten.length = (spare.take mqttVec.flatten.length).length := by
        rw [length_take]
        omega
      have written := overwrite_append (packetBytes packets) (spare.take mqttVec.flatten.length)
        (spare.drop mqttVec.flatten.length) mqttVec.flatten rfl length
      rw [take_append_drop] at written
      rw [bytes, written, packetBytes_append, packetBytes_cons, packetBytes_nil, append_nil,
        append_assoc]
    case slots => exact length_set.trans slots
    case size =>
      rw [length_overwrite (size ▸ room.2)]
      exact size
    case ids => exact forall_mem_append.mpr ⟨held.ids, forall_mem_singleton.mpr nonzero⟩
    case nonempty =>
      exact forall_mem_append.mpr ⟨held.nonempty, forall_mem_singleton.mpr nonempty⟩
    case distinct =>
      rw [map_append]
      exact (perm_append_singleton _ _).nodup_iff.mpr
        (nodup_cons.mpr ⟨fresh, held.distinct⟩)

end

/-! ### Clearing -/

@[simp]
theorem compactRecords_layout {byteOffset free : Nat} (ids : ∀ packet ∈ packets, packet.1 ≠ 0)
    (record : StoredPublish) :
    compactRecords byteOffset
        (record :: (layout (offset + byteOffset) packets ++ replicate free .cleared)) =
      layout offset packets ++ replicate (free + 1) .cleared := by
  induction packets generalizing offset record with
  | nil =>
    cases free with
    | zero => rfl
    | succ free => exact if_pos rfl
  | cons first rest ih =>
    rcases first with ⟨packetId, packet⟩
    have shifted : offset + byteOffset + packet.length = offset + packet.length + byteOffset :=
      Nat.add_right_comm _ _ _
    rw [layout, cons_append, compactRecords, if_neg (ids _ mem_cons_self), shifted,
      ih fun other listed => ids other (mem_cons_of_mem _ listed)]
    simp [layout]

/-- The record of a packet is the only one in use at its position. -/
theorem Holds.findIdx?_at (held : store.Holds bufferSize (before ++ (packetId, packet) :: after)) :
    store.unackedPublishes.findIdx? (fun record =>
      record.packetId ≠ 0 ∧ record.serializedPacket = some (packetBytes before).length) =
      some before.length := by
  rcases held.records with ⟨free, records⟩
  have nonzero := held.ids _ (mem_append_right before mem_cons_self)
  rw [records, layout_append, append_assoc, Nat.zero_add, layout, cons_append,
    ← length_layout 0 before]
  refine findIdx?_append_cons _ ?_ (decide_eq_true ⟨nonzero, rfl⟩)
  intro record listed
  rcases mem_layout listed with ⟨front, otherId, other, behind, rfl, rfl⟩
  have nonempty : other ≠ [] := held.nonempty (otherId, other) (by simp)
  have positive := length_pos_of_ne_nil nonempty
  refine decide_eq_false ?_
  rintro ⟨_, same⟩
  have position := Option.some.inj same
  simp only [packetBytes_append, packetBytes_cons, length_append] at position
  omega

/-- What `mqtt_pub_free` leaves of the array and of the buffer. -/
theorem Holds.mqttPubFree_eq {spare : Buffer} {free : Nat}
    (held : store.Holds bufferSize (before ++ (packetId, packet) :: after))
    (records : store.unackedPublishes =
      layout 0 (before ++ (packetId, packet) :: after) ++ replicate free .cleared)
    (bytes : store.packetStoreBuffer =
      packetBytes (before ++ (packetId, packet) :: after) ++ spare) :
    ∃ rest : Buffer, rest.length = packet.length + spare.length ∧
      store.mqttPubFree (some (packetBytes before).length) =
        ⟨layout 0 (before ++ after) ++ replicate (free + 1) .cleared,
          packetBytes (before ++ after) ++ rest⟩ := by
  have ids : ∀ other ∈ after, other.1 ≠ 0 := fun other listed =>
    held.ids other (mem_append_right _ (mem_cons_of_mem _ listed))
  rw [layout_append, Nat.zero_add, layout, append_assoc, cons_append] at records
  rw [packetBytes_append, packetBytes_cons, append_assoc, append_assoc] at bytes
  have freed : (store.unackedPublishes[before.length]?).getD .cleared =
      ⟨packetId, some (packetBytes before).length, packet.length⟩ := by
    rw [records, getElem?_append_right (Nat.le_of_eq (length_layout 0 before)), length_layout,
      Nat.sub_self]
    rfl
  have front : store.unackedPublishes.take before.length = layout 0 before := by
    rw [records, take_left' (length_layout 0 before)]
  have behind : compactRecords packet.length (store.unackedPublishes.drop before.length) =
      layout (packetBytes before).length after ++ replicate (free + 1) .cleared := by
    rw [records, drop_left' (length_layout 0 before), compactRecords_layout ids]
  have array : layout 0 (before ++ after) ++ replicate (free + 1) .cleared =
      layout 0 before ++ (layout (packetBytes before).length after ++
        replicate (free + 1) .cleared) := by
    rw [layout_append, Nat.zero_add, append_assoc]
  rw [PacketStore.mqttPubFree, held.findIdx?_at]
  simp only [freed, front, behind, array, packetBytes_append, StoredPublish.stop,
    StoredPublish.start, Option.getD_some]
  have size : store.packetStoreBuffer.length =
      (packetBytes before).length + packet.length + (packetBytes after ++ spare).length := by
    rw [bytes, length_append, length_append, Nat.add_assoc]
  by_cases last : before.length = store.unackedPublishes.length - 1
  · -- Nothing is behind the last record, and nothing is moved.
    rw [records] at last
    simp only [length_append, length_cons, length_layout, length_replicate] at last
    have none : after = [] := eq_nil_of_length_eq_zero (by omega)
    subst none
    rw [packetBytes_nil, nil_append] at bytes size
    refine ⟨overwrite (packet ++ spare) spare.length (replicate packet.length 0), ?_, ?_⟩
    · rw [length_overwrite, length_append]
      apply Nat.le_of_eq
      rw [length_append, length_replicate, Nat.add_comm]
    · have position : store.packetStoreBuffer.length - packet.length -
          (packetBytes before).length = spare.length := by
        omega
      rw [if_pos (by rw [records]; simpa using last), memset]
      nth_rewrite 1 [bytes]
      rw [overwrite_behind _ _ _ (by omega), position, packetBytes_nil, append_nil]
  · refine ⟨spare ++ replicate packet.length 0, ?_, ?_⟩
    · rw [length_append, length_replicate, Nat.add_comm]
    · have moved : store.packetStoreBuffer.length -
          ((packetBytes before).length + packet.length) = (packetBytes after ++ spare).length := by
        omega
      have target : store.packetStoreBuffer.length - packet.length =
          (packetBytes before).length + (packetBytes after ++ spare).length := by
        omega
      rw [if_neg last, moved, target, bytes, memset_memmove]
      simp

theorem Holds.free (held : store.Holds bufferSize (before ++ (packetId, packet) :: after)) :
    (store.mqttPubFree (some (packetBytes before).length)).Holds bufferSize (before ++ after) := by
  have kept : (before ++ after).Sublist (before ++ (packetId, packet) :: after) :=
    (sublist_cons_self _ _).append_left before
  rcases held.records with ⟨free, records⟩
  rcases held.bytes with ⟨spare, bytes⟩
  rcases held.mqttPubFree_eq records bytes with ⟨rest, length, cleared⟩
  have slots := held.slots
  have size := held.size
  rw [records] at slots
  rw [bytes] at size
  simp only [packetBytes_append, packetBytes_cons, length_append, length_layout,
    length_cons, length_replicate] at slots size
  rw [cleared]
  constructor
  case records => exact ⟨free + 1, rfl⟩
  case bytes => exact ⟨rest, rfl⟩
  case slots =>
    simp only [length_append, length_layout, length_replicate]
    omega
  case size =>
    simp only [packetBytes_append, length_append, length]
    omega
  case ids => exact fun other listed => held.ids other (kept.subset listed)
  case nonempty => exact fun other listed => held.nonempty other (kept.subset listed)
  case distinct => exact held.distinct.sublist (kept.map Prod.fst)

/-! ### Looking packets up -/

theorem Holds.find? (held : store.Holds bufferSize (before ++ (packetId, packet) :: after)) :
    store.unackedPublishes.find? (·.packetId = packetId) =
      some ⟨packetId, some (packetBytes before).length, packet.length⟩ := by
  rcases held.records with ⟨free, records⟩
  have others : ∀ record ∈ layout 0 before, ¬decide (record.packetId = packetId) = true := by
    intro record listed same
    have distinct := held.distinct
    rw [map_append, nodup_append] at distinct
    exact distinct.2.2 _ (packetId_mem_of_mem_layout listed) _ mem_cons_self
      (of_decide_eq_true same)
  rw [records, layout_append, append_assoc, find?_append,
    find?_eq_none.mpr others, Option.none_or, Nat.zero_add, layout, cons_append]
  apply find?_cons_of_pos
  exact decide_eq_true rfl

theorem Holds.find?_none (held : store.Holds bufferSize packets) (nonzero : packetId ≠ 0)
    (absent : packetId ∉ packets.map Prod.fst) :
    store.unackedPublishes.find? (·.packetId = packetId) = none := by
  rcases held.records with ⟨free, records⟩
  rw [records, find?_eq_none]
  intro record listed same
  rcases mem_append.mp listed with used | spare
  · exact absent (of_decide_eq_true same ▸ packetId_mem_of_mem_layout used)
  · rw [(mem_replicate.mp spare).2] at same
    exact nonzero (of_decide_eq_true same).symm

theorem lookup_eq_none_iff_notMem :
    packets.lookup packetId = none ↔ packetId ∉ packets.map Prod.fst := by
  rw [lookup_eq_none_iff, mem_map]
  constructor
  · rintro absent ⟨packet, listed, rfl⟩
    exact bne_iff_ne.mp (absent packet listed) rfl
  · intro absent packet listed
    exact bne_iff_ne.mpr fun same => absent ⟨packet, listed, same.symm⟩

/-- The bytes found under an id are those of its packet. -/
theorem Holds.retrieved (held : store.Holds bufferSize packets) (nonzero : packetId ≠ 0) :
    store.retrieved packetId = packets.lookup packetId := by
  cases found : packets.lookup packetId with
  | none =>
    have absent := held.find?_none nonzero (lookup_eq_none_iff_notMem.mp found)
    rw [PacketStore.retrieved, mqttRetrievePacket, absent]
    rfl
  | some packet =>
    rcases lookup_eq_some_iff.mp found with ⟨before, after, rfl, _⟩
    rcases held.bytes with ⟨spare, bytes⟩
    rw [packetBytes_append, packetBytes_cons, append_assoc, append_assoc] at bytes
    rw [PacketStore.retrieved, mqttRetrievePacket, held.find?]
    simp only [Option.map_some, Option.getD_some]
    rw [bytes, region_append _ _ _ rfl rfl]

/-- A cleared packet is gone, and the others keep their bytes. -/
theorem Holds.clear (held : store.Holds bufferSize packets) (nonzero : packetId ≠ 0) :
    ∃ rest, (store.mqttClearPacket packetId).Holds bufferSize rest ∧
      ∀ asked, rest.lookup asked = if asked = packetId then none else packets.lookup asked := by
  cases found : packets.lookup packetId with
  | none =>
    have absent := held.find?_none nonzero (lookup_eq_none_iff_notMem.mp found)
    refine ⟨packets, ?_, ?_⟩
    · rwa [mqttClearPacket, absent]
    · intro asked
      split
      case isTrue same => rw [same, found]
      case isFalse => rfl
  | some packet =>
    rcases lookup_eq_some_iff.mp found with ⟨before, after, rfl, _⟩
    refine ⟨before ++ after, ?_, ?_⟩
    · rw [mqttClearPacket, held.find?]
      exact held.free
    · intro asked
      have distinct := held.distinct
      rw [map_append, map_cons, nodup_middle, nodup_cons] at distinct
      split
      case isTrue same =>
        rw [same, lookup_eq_none_iff_notMem, map_append]
        exact distinct.1
      case isFalse other =>
        rw [lookup_append, lookup_append, lookup_cons,
          beq_false_of_ne other]

/-! ### Where the records stand -/

/-- The records whose id is not zero. -/
def inUse (store : PacketStore) : List StoredPublish :=
  store.unackedPublishes.filter (·.packetId ≠ 0)

/-- The records in use come first in the array.  They point into the buffer, the first to
its start and each other one to the end of the one before it. -/
structure Packed (store : PacketStore) : Prop where
  front : ∃ free, store.unackedPublishes = store.inUse ++ replicate free .cleared
  first : ∀ record ∈ store.inUse.head?, record.start = 0
  adjacent : store.inUse.IsChain fun record next => next.start = record.stop
  disjoint : store.inUse.Pairwise fun record later => record.stop ≤ later.start
  inside : ∀ record ∈ store.inUse, record.serializedPacket ≠ none ∧
    record.stop ≤ store.packetStoreBuffer.length

theorem layout_bounds (listed : record ∈ layout offset packets) :
    offset ≤ record.start ∧ record.stop ≤ offset + (packetBytes packets).length := by
  rcases mem_layout listed with ⟨before, packetId, packet, after, rfl, rfl⟩
  simp only [StoredPublish.stop, StoredPublish.start, Option.getD_some, packetBytes_append,
    packetBytes_cons, length_append]
  omega

theorem layout_isChain (offset : Nat) (packets : List (UInt16 × Buffer)) :
    (layout offset packets).IsChain fun record next => next.start = record.stop := by
  induction packets generalizing offset with
  | nil => exact .nil
  | cons packet rest ih =>
    cases rest with
    | nil => exact .singleton _
    | cons next rest => exact .cons_cons rfl (ih (offset + packet.2.length))

theorem layout_pairwise (offset : Nat) (packets : List (UInt16 × Buffer)) :
    (layout offset packets).Pairwise fun record later => record.stop ≤ later.start := by
  induction packets generalizing offset with
  | nil => exact .nil
  | cons packet rest ih =>
    exact .cons (fun later listed => (layout_bounds listed).1) (ih (offset + packet.2.length))

theorem Holds.inUse_eq (held : store.Holds bufferSize packets) :
    store.inUse = layout 0 packets := by
  rcases held.records with ⟨free, records⟩
  have used : (layout 0 packets).filter (·.packetId ≠ 0) = layout 0 packets := by
    rw [filter_eq_self]
    intro record listed
    exact decide_eq_true (of_decide_eq_false (held.used record listed))
  rw [inUse, records, filter_append, used, filter_replicate]
  exact append_nil _

theorem Holds.packed (held : store.Holds bufferSize packets) : store.Packed := by
  have fits := held.fits
  constructor
  case front => exact held.inUse_eq ▸ held.records
  case first =>
    intro record head
    rw [held.inUse_eq] at head
    cases packets with
    | nil => cases head
    | cons packet rest =>
      cases head
      rfl
  case adjacent => exact held.inUse_eq ▸ layout_isChain 0 packets
  case disjoint => exact held.inUse_eq ▸ layout_pairwise 0 packets
  case inside =>
    intro record listed
    rw [held.inUse_eq] at listed
    have bounds := (layout_bounds listed).2
    rcases mem_layout listed with ⟨before, packetId, packet, after, _, rfl⟩
    exact ⟨Option.some_ne_none _, by rw [held.size]; omega⟩

end PacketStore

/-! ## Runs -/

/-- A call with the packet it is about; `store` says whether the packet was stored. -/
inductive PacketEvent where
  | store (packetId : UInt16) (packet : Buffer) (stored : Bool)
  | clear (packetId : UInt16)
  | retrieve (packetId : UInt16)

inductive PacketStore.Step : PacketStore → PacketEvent → PacketStore → Prop
  | store {store next : PacketStore} {packetId} {mqttVec : List Buffer} {stored}
      (result : store.mqttStorePacket packetId mqttVec = (stored, next)) :
      Step store (.store packetId mqttVec.flatten stored) next
  | clear {store : PacketStore} (packetId : UInt16) :
      Step store (.clear packetId) (store.mqttClearPacket packetId)
  | retrieve {store} (packetId : UInt16) : Step store (.retrieve packetId) store

/-- The bytes last stored under an id, unless it was cleared since. -/
def lastStored : List PacketEvent → UInt16 → Option Buffer
  | [], _ => none
  | .store packetId packet true :: earlier, asked =>
    if asked = packetId then some packet else lastStored earlier asked
  | .store _ _ false :: earlier, asked => lastStored earlier asked
  | .clear packetId :: earlier, asked =>
    if asked = packetId then none else lastStored earlier asked
  | .retrieve _ :: earlier, asked => lastStored earlier asked

/-- Ids are not zero, packets not empty, and no packet is stored under an id that is in
use. -/
def Disciplined : List PacketEvent → Prop
  | [] => True
  | .store packetId packet _ :: earlier =>
    packetId ≠ 0 ∧ packet ≠ [] ∧ lastStored earlier packetId = none ∧ Disciplined earlier
  | .clear packetId :: earlier => packetId ≠ 0 ∧ Disciplined earlier
  | .retrieve packetId :: earlier => packetId ≠ 0 ∧ Disciplined earlier

namespace PacketStore

theorem holds_of_run {bufferSize : Nat} {history : List PacketEvent} {store : PacketStore}
    (run : Run Step (empty bufferSize) history store) (disciplined : Disciplined history) :
    ∃ packets, store.Holds bufferSize packets ∧
      ∀ asked, packets.lookup asked = lastStored history asked := by
  induction run with
  | refl => exact ⟨[], holds_empty bufferSize, fun asked => rfl⟩
  | tail earlier step ih =>
    cases step with
    | @store _ packetId mqttVec stored result =>
      rcases disciplined with ⟨nonzero, nonempty, fresh, disciplined⟩
      rcases ih disciplined with ⟨packets, held, agree⟩
      cases stored with
      | false =>
        cases held.eq_of_refused result
        exact ⟨packets, held, agree⟩
      | true =>
        have absent := (agree packetId).trans fresh
        refine ⟨_, held.add nonzero nonempty (lookup_eq_none_iff_notMem.mp absent) result, ?_⟩
        intro asked
        rw [lookup_append, lastStored, agree, lookup_cons]
        by_cases same : asked = packetId
        · rw [if_pos same, same, fresh, beq_self_eq_true, Option.none_or]
        · rw [if_neg same, beq_false_of_ne same]
          exact Option.or_none
    | clear packetId =>
      rcases disciplined with ⟨nonzero, disciplined⟩
      rcases ih disciplined with ⟨packets, held, agree⟩
      rcases held.clear nonzero with ⟨rest, left, lookups⟩
      refine ⟨rest, left, ?_⟩
      intro asked
      rw [lookups, agree]
      rfl
    | retrieve packetId =>
      rcases ih disciplined.2 with ⟨packets, held, agree⟩
      exact ⟨packets, held, agree⟩

end PacketStore

/-- Over any disciplined run, an id leads to the bytes last stored under it, the records
stay packed inside the buffer, clearing an id keeps the bytes of the others, a packet is stored
exactly if a record is free and its bytes fit, and one that is not stored changes nothing. -/
theorem packetStore_correct {bufferSize : Nat} {history : List PacketEvent} {store : PacketStore}
    (run : Run PacketStore.Step (PacketStore.empty bufferSize) history store)
    (disciplined : Disciplined history) :
    (∀ packetId, packetId ≠ 0 → store.retrieved packetId = lastStored history packetId) ∧
      (store.Packed ∧ store.packetStoreBuffer.length = bufferSize) ∧
      (∀ cleared packetId, cleared ≠ 0 → packetId ≠ 0 → packetId ≠ cleared →
        (store.mqttClearPacket cleared).retrieved packetId = store.retrieved packetId) ∧
      (∀ packetId mqttVec, (store.mqttStorePacket packetId mqttVec).1 = true ↔
        (∃ record ∈ store.unackedPublishes, record.packetId = 0) ∧
          (store.unackedPublishes.map StoredPublish.serializedPacketLen).sum +
            mqttVec.flatten.length ≤ bufferSize) ∧
      ∀ packetId mqttVec next,
        store.mqttStorePacket packetId mqttVec = (false, next) → next = store := by
  rcases PacketStore.holds_of_run run disciplined with ⟨packets, held, agree⟩
  refine ⟨?_, ⟨held.packed, held.size⟩, ?_, held.mqttStorePacket_iff, ?_⟩
  · intro packetId nonzero
    rw [held.retrieved nonzero, agree]
  · intro cleared packetId clearedNonzero nonzero other
    rcases held.clear clearedNonzero with ⟨rest, left, lookups⟩
    rw [left.retrieved nonzero, held.retrieved nonzero, lookups, if_neg other]
  · exact fun packetId mqttVec next => held.eq_of_refused

/-- Two packets in a buffer of four bytes, a third that does not fit, and the first cleared:
the second is found where the first was. -/
theorem packetStore_correct_cleared :
    (⟨⟨2, some 0, 1⟩ :: replicate 9 .cleared, [7, 0, 0, 0]⟩ : PacketStore).retrieved 2 =
      some [7] := by
  have run : Run PacketStore.Step (PacketStore.empty 4)
      [.clear 1, .store 3 [8, 9] false, .store 2 [7] true, .store 1 [5, 6] true]
      ⟨⟨2, some 0, 1⟩ :: replicate 9 .cleared, [7, 0, 0, 0]⟩ := by
    have first := Run.tail (.refl : Run _ (PacketStore.empty 4) [] _)
      (@PacketStore.Step.store _ _ 1 [[5], [6]] _ rfl)
    have second := Run.tail first (@PacketStore.Step.store _ _ 2 [[7]] _ rfl)
    have third := Run.tail second (@PacketStore.Step.store _ _ 3 [[8, 9]] _ rfl)
    exact Run.tail third (.clear 1)
  have disciplined : Disciplined
      [.clear 1, .store 3 [8, 9] false, .store 2 [7] true, .store 1 [5, 6] true] := by
    simp [Disciplined, lastStored]
  exact (packetStore_correct run disciplined).1 2 (by decide)

end GreengrassLite

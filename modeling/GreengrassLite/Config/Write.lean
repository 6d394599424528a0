import GreengrassLite.Config.Create

/-!
# What a write can do

The structural invariant of the tables and the outcomes of
`ggconfig_write_value_at_key` when every statement succeeds: the path is new
and inserted, a key above it holds a value, it has children, it lacks the value
a childless key should hold, it holds a newer value, or its value is replaced.
Every later result about writing goes through these cases.
-/

namespace GreengrassLite.Config

open GreengrassLite.Library List Forest

namespace Database

variable {database : Database} {keyid : Nat}

/-- The structural invariant: well-formed tables in which a key without
children holds a value. -/
structure Inv (database : Database) : Prop extends database.Wf where
  complete : ∀ keyid keyvalue, database.forest.label keyid keyvalue →
    (∀ child, ¬database.forest.edge child keyid) → database.Holds keyid

theorem inv_created : created.Inv where
  toWf := wf_created
  complete := by simp [created, forest]

/-- The value and timestamp that belong to a key path. -/
def Stored (database : Database) (keyPath : List Buffer) (value : Buffer) (timeStamp : Int) :
    Prop :=
  ∃ keyid, database.forest.Path none keyPath (some keyid) ∧
    ⟨keyid, value, timeStamp⟩ ∈ database.valueTable

theorem Holds.exists_row (holds : database.Holds keyid) :
    ∃ value timeStamp, ⟨keyid, value, timeStamp⟩ ∈ database.valueTable := by
  obtain ⟨⟨rowKey, value, timeStamp⟩, member, rfl⟩ := holds
  exact ⟨value, timeStamp, member⟩

variable {timeStamp : Int} {other : Nat}

theorem holds_of_mem {value : Buffer} (member : ⟨keyid, value, timeStamp⟩ ∈ database.valueTable) :
    database.Holds keyid :=
  ⟨_, member, rfl⟩

theorem Wf.row_unique (wf : database.Wf) {first second : ValueRow}
    (firstMember : first ∈ database.valueTable) (secondMember : second ∈ database.valueTable)
    (sameKey : first.keyid = second.keyid) : first = second :=
  inj_on_of_nodup_map wf.values_nodup firstMember secondMember sameKey

/-- A path stores at most one value. -/
theorem Stored.unique (wf : database.Wf) {keyPath : List Buffer} {firstValue secondValue : Buffer}
    {firstTime secondTime : Int} (first : database.Stored keyPath firstValue firstTime)
    (second : database.Stored keyPath secondValue secondTime) :
    firstValue = secondValue ∧ firstTime = secondTime := by
  obtain ⟨firstKey, firstPath, firstMember⟩ := first
  obtain ⟨secondKey, secondPath, secondMember⟩ := second
  have sameRow := wf.row_unique firstMember secondMember
    (firstPath.node_unique wf.forest secondPath)
  simp only [ValueRow.mk.injEq] at sameRow
  exact sameRow.2

/-- A key above a longer existing path holds no value. -/
theorem Wf.not_holds_of_longer (wf : database.Wf) {keyPath rest : List Buffer} {target : Option Nat}
    (reached : database.forest.Path none keyPath (some keyid))
    (longer : database.forest.Path none (keyPath ++ rest) target) (nonempty : rest ≠ []) :
    ¬database.Holds keyid := by
  have restPath := (reached.append_iff wf.forest).mp longer
  cases rest with
  | nil => exact absurd rfl nonempty
  | cons key rest =>
    obtain ⟨next, child, _⟩ := path_cons_iff.mp restPath
    exact wf.not_holds_of_child child

/-- No stored path is a proper prefix of another. -/
theorem Stored.eq_of_isPrefix (wf : database.Wf) {first second : List Buffer}
    {firstValue secondValue : Buffer} {firstTime secondTime : Int}
    (firstStored : database.Stored first firstValue firstTime)
    (secondStored : database.Stored second secondValue secondTime) (isPrefix : first <+: second) :
    first = second := by
  obtain ⟨rest, rfl⟩ := isPrefix
  obtain ⟨firstKey, firstPath, firstMember⟩ := firstStored
  obtain ⟨secondKey, secondPath, _⟩ := secondStored
  by_contra different
  have nonempty : rest ≠ [] := by
    rintro rfl
    simp at different
  exact wf.not_holds_of_longer firstPath secondPath nonempty (holds_of_mem firstMember)

/-- Below every existing path some value is stored. -/
theorem Inv.exists_stored (inv : database.Inv) {keyPath : List Buffer}
    (reached : database.forest.Path none keyPath (some keyid)) :
    ∃ rest value timeStamp, database.Stored (keyPath ++ rest) value timeStamp := by
  induction remaining : database.sequence - keyid using Nat.strong_induction_on
    generalizing keyPath keyid with
  | h remaining ih =>
    by_cases childless : ∀ child, ¬database.forest.edge child keyid
    · obtain ⟨name, labelled⟩ := path_labelled reached
      obtain ⟨value, timeStamp, member⟩ :=
        (inv.complete keyid name labelled childless).exists_row
      exact ⟨[], value, timeStamp, keyid, by simpa using reached, member⟩
    · push Not at childless
      obtain ⟨child, edge⟩ := childless
      obtain ⟨name, childPath⟩ := reached.exists_below inv.forest edge
      have above := inv.forest.edge_lt edge
      have issued := (inv.path_issued childPath).2
      obtain ⟨rest, value, timeStamp, stored⟩ :=
        ih (database.sequence - child) (by omega) childPath rfl
      exact ⟨name :: rest, value, timeStamp, by simpa using stored⟩

/-! ## Changing the value table -/

/-- The tables after a value row has been added. -/
def withValue (database : Database) (keyid : Nat) (value : Buffer) (timeStamp : Int) :
    Database :=
  { database with valueTable := database.valueTable ++ [⟨keyid, value, timeStamp⟩] }

@[simp]
theorem valueInsert_of_vacant (value : Buffer) (timeStamp : Int) (vacant : ¬database.Holds keyid) :
    database.valueInsert keyid value timeStamp =
      .ok (database.withValue keyid value timeStamp) := by
  rw [valueInsert, if_pos (valuePresent_eq_nil_iff.mpr vacant)]
  rfl

@[simp]
theorem holds_withValue_iff {value : Buffer} :
    (database.withValue keyid value timeStamp).Holds other ↔
      database.Holds other ∨ other = keyid := by
  simp only [Holds, withValue, mem_append, mem_singleton]
  constructor
  · rintro ⟨row, old | rfl, rowKey⟩
    · exact .inl ⟨row, old, rowKey⟩
    · exact .inr rowKey.symm
  · rintro (⟨row, old, rowKey⟩ | rfl)
    · exact ⟨row, .inl old, rowKey⟩
    · exact ⟨_, .inr rfl, rfl⟩

/-- Giving a value to a childless key without one keeps the tables well
formed. -/
theorem Wf.withValue (wf : database.Wf) {name : Buffer}
    (labelled : database.forest.label keyid name)
    (childless : ∀ child, ¬database.forest.edge child keyid) (vacant : ¬database.Holds keyid)
    (value : Buffer) (timeStamp : Int) :
    (database.withValue keyid value timeStamp).Wf where
  forest := wf.forest
  keys_nodup := wf.keys_nodup
  relations_nodup := wf.relations_nodup
  values_nodup := by
    simpa [Database.withValue, nodup_append] using
      ⟨wf.values_nodup, fun row member rowKey => vacant ⟨row, member, rowKey⟩⟩
  issued := wf.issued
  valued row member := by
    rcases mem_append.mp member with old | new
    · exact wf.valued row old
    · obtain rfl := mem_singleton.mp new
      exact ⟨name, labelled⟩
  subscribed := wf.subscribed
  exclusive row member := by
    rcases mem_append.mp member with old | new
    · exact wf.exclusive row old
    · obtain rfl := mem_singleton.mp new
      exact childless

@[simp]
theorem valueUpdate_keyids (database : Database) (keyid : Nat) (value : Buffer)
    (timeStamp : Int) :
    (database.valueUpdate keyid value timeStamp).valueTable.map ValueRow.keyid =
      database.valueTable.map ValueRow.keyid := by
  simp only [valueUpdate, map_map]
  congr 1
  funext row
  by_cases same : row.keyid = keyid <;> simp [same]

theorem holds_iff_mem_keyids :
    database.Holds keyid ↔ keyid ∈ database.valueTable.map ValueRow.keyid := by
  simp [Holds]

@[simp]
theorem holds_valueUpdate_iff {value : Buffer} :
    (database.valueUpdate keyid value timeStamp).Holds other ↔ database.Holds other := by
  rw [holds_iff_mem_keyids, valueUpdate_keyids, ← holds_iff_mem_keyids]

theorem Wf.valueUpdate (wf : database.Wf) (keyid : Nat) (value : Buffer) (timeStamp : Int) :
    (database.valueUpdate keyid value timeStamp).Wf where
  forest := wf.forest
  keys_nodup := wf.keys_nodup
  relations_nodup := wf.relations_nodup
  values_nodup := by
    rw [valueUpdate_keyids]
    exact wf.values_nodup
  issued := wf.issued
  valued row member := by
    obtain ⟨old, oldMember, sameKey⟩ := holds_valueUpdate_iff.mp ⟨row, member, rfl⟩
    exact sameKey ▸ wf.valued old oldMember
  subscribed := wf.subscribed
  exclusive row member child := by
    obtain ⟨old, oldMember, sameKey⟩ := holds_valueUpdate_iff.mp ⟨row, member, rfl⟩
    exact sameKey ▸ wf.exclusive old oldMember child

theorem Inv.valueUpdate (inv : database.Inv) (keyid : Nat) (value : Buffer) (timeStamp : Int) :
    (database.valueUpdate keyid value timeStamp).Inv where
  toWf := inv.toWf.valueUpdate keyid value timeStamp
  complete other name labelled childless :=
    holds_valueUpdate_iff.mpr (inv.complete other name labelled childless)

@[simp]
theorem mem_valueUpdate_iff {value otherValue : Buffer} {otherTime : Int}
    (holds : database.Holds keyid) :
    ⟨other, otherValue, otherTime⟩ ∈
        (database.valueUpdate keyid value timeStamp).valueTable ↔
      (other ≠ keyid ∧ ⟨other, otherValue, otherTime⟩ ∈ database.valueTable) ∨
        (other = keyid ∧ otherValue = value ∧ otherTime = timeStamp) := by
  simp only [Database.valueUpdate, mem_map]
  constructor
  · rintro ⟨row, member, equal⟩
    by_cases same : row.keyid = keyid
    · rw [if_pos same] at equal
      obtain ⟨rfl, rfl, rfl⟩ := equal
      exact .inr ⟨same, rfl, rfl⟩
    · rw [if_neg same] at equal
      subst equal
      exact .inl ⟨same, member⟩
  · rintro (⟨different, member⟩ | ⟨rfl, rfl, rfl⟩)
    · exact ⟨_, member, if_neg different⟩
    · obtain ⟨row, member, rfl⟩ := holds
      exact ⟨row, member, if_pos rfl⟩

end Database

/-! ## The outcomes of a write -/

/-- Commit changed tables and notify along the written path. -/
def Ggconfigd.commit (daemon : Ggconfigd) (database : Database) (keyPath : List Buffer)
    (ids : Vec Nat maxObjectDepth) : Ggconfigd :=
  { daemon with
    configDatabase := database
    responses := daemon.responses ++ notifyNestedKey noFault database keyPath ids }

/-- The outcomes of writing one value. -/
inductive Written (daemon : Ggconfigd) (keyPath : List Buffer) (value : Buffer)
    (timestamp : Int) : Except GglError Unit × Ggconfigd → Prop
  | inserted {created : Database} {ids : Vec Nat maxObjectDepth} :
      (∀ id, ¬daemon.configDatabase.forest.Path none keyPath (some id)) → created.Wf →
      Grown daemon.configDatabase created keyPath →
      created.forest.Trail none keyPath ids.items →
      Written daemon keyPath value timestamp
        (.ok (), daemon.commit (created.withValue (lastKeyId ids) value timestamp) keyPath ids)
  | valueAbove {path id} :
      (∀ id, ¬daemon.configDatabase.forest.Path none keyPath (some id)) → path <+: keyPath →
      daemon.configDatabase.forest.Path none path (some id) → daemon.configDatabase.Holds id →
      Written daemon keyPath value timestamp (.error .failure, daemon)
  | childBelow {id child} :
      daemon.configDatabase.forest.Path none keyPath (some id) →
      daemon.configDatabase.forest.edge child id →
      Written daemon keyPath value timestamp (.error .failure, daemon)
  | valueless {id} :
      daemon.configDatabase.forest.Path none keyPath (some id) →
      (∀ child, ¬daemon.configDatabase.forest.edge child id) →
      ¬daemon.configDatabase.Holds id →
      Written daemon keyPath value timestamp (.error .noentry, daemon)
  | stale {id existing existingTimestamp} :
      daemon.configDatabase.forest.Path none keyPath (some id) →
      ⟨id, existing, existingTimestamp⟩ ∈ daemon.configDatabase.valueTable →
      timestamp < existingTimestamp →
      Written daemon keyPath value timestamp (.ok (), daemon)
  | updated {ids : Vec Nat maxObjectDepth} {existing existingTimestamp} :
      daemon.configDatabase.forest.Trail none keyPath ids.items →
      ⟨lastKeyId ids, existing, existingTimestamp⟩ ∈ daemon.configDatabase.valueTable →
      existingTimestamp ≤ timestamp →
      Written daemon keyPath value timestamp
        (.ok (), daemon.commit
          (daemon.configDatabase.valueUpdate (lastKeyId ids) value timestamp) keyPath ids)

variable {daemon : Ggconfigd} {created : Database} {keyPath : List Buffer} {value : Buffer}
  {timestamp : Int} {outcome : Except GglError Unit × Ggconfigd}

theorem Grown.holds_iff {database : Database} (grown : Grown database created keyPath) {id : Nat} :
    created.Holds id ↔ database.Holds id := by
  rw [Database.Holds, grown.values]
  rfl

variable {ids : Vec Nat maxObjectDepth} {pathValue : Buffer} {pathTime : Int}

section

variable {database : Database} (wf : database.Wf) (createdWf : created.Wf)
  (grown : Grown database created keyPath) (nonempty : keyPath ≠ [])
  (absent : ∀ id, ¬database.forest.Path none keyPath (some id))
  (trail : created.forest.Trail none keyPath ids.items)

include wf createdWf grown nonempty absent trail

/-- On a created path that was absent before, the last key is a new leaf. -/
theorem Grown.last_leaf :
    (∀ child, ¬created.forest.edge child (lastKeyId ids)) ∧
      ¬created.Holds (lastKeyId ids) := by
  have lastPath := lastKeyId_of_trail nonempty trail
  constructor
  · intro child edge
    obtain ⟨name, childPath⟩ := lastPath.exists_below createdWf.forest edge
    rcases grown.added _ _ childPath with old | ⟨isPrefix, _⟩
    · obtain ⟨id, parentPath⟩ := old.exists_prefix nonempty
      exact absent id parentPath
    · have bound := isPrefix.length_le
      rw [length_append, length_singleton] at bound
      omega
  · intro holds
    have bound := (wf.holds_issued (grown.holds_iff.mp holds)).2
    rcases grown.added _ _ lastPath with old | ⟨_, issued⟩
    · exact absent _ old
    · omega

/-- A new leaf with its value keeps the tables well formed. -/
theorem Grown.wf_withValue :
    (created.withValue (lastKeyId ids) value timestamp).Wf := by
  obtain ⟨childless, vacant⟩ := grown.last_leaf wf createdWf nonempty absent trail
  obtain ⟨name, labelled⟩ := Database.path_labelled (lastKeyId_of_trail nonempty trail)
  exact createdWf.withValue labelled childless vacant value timestamp

/-- After an insertion the written path stores the new value, and every other
path what it stored before. -/
theorem Grown.stored_withValue_iff {path : List Buffer} :
    (created.withValue (lastKeyId ids) value timestamp).Stored path pathValue pathTime ↔
      (path ≠ keyPath ∧ database.Stored path pathValue pathTime) ∨
        (path = keyPath ∧ pathValue = value ∧ pathTime = timestamp) := by
  have lastPath := lastKeyId_of_trail nonempty trail
  constructor
  · rintro ⟨keyid, reached, member⟩
    rcases mem_append.mp member with old | new
    · rw [grown.values] at old
      rcases grown.added path keyid reached with oldPath | ⟨_, issued⟩
      · exact .inl ⟨fun same => absent keyid (same ▸ oldPath), keyid, oldPath, old⟩
      · have bound := (wf.holds_issued (Database.holds_of_mem old)).2
        omega
    · have equal := mem_singleton.mp new
      obtain ⟨rfl, rfl, rfl⟩ := equal
      exact .inr ⟨reached.labels_unique createdWf.forest lastPath, rfl, rfl⟩
  · rintro (⟨-, keyid, reached, member⟩ | ⟨rfl, rfl, rfl⟩)
    · refine ⟨keyid, grown.keep path keyid reached, mem_append.mpr (.inl ?_)⟩
      rw [grown.values]
      exact member
    · exact ⟨_, lastPath, mem_append.mpr (.inr mem_cons_self)⟩

end

/-- The write to a path that does not fully exist. -/
theorem writeNewKey_written (wf : daemon.configDatabase.Wf) (nonempty : keyPath ≠ [])
    (short : keyPath.length ≤ maxObjectDepth)
    (absent : ∀ id, ¬daemon.configDatabase.forest.Path none keyPath (some id)) :
    Written daemon keyPath value timestamp
      (writeNewKey noFault lastKeyId daemon keyPath value timestamp) := by
  rw [writeNewKey]
  rcases createKeyPath_creates wf nonempty short with
    ⟨failed, path, id, _, isPrefix, reached, holds⟩ |
    ⟨ids, created, idList, ok, items, createdWf, grown, trail⟩
  · simp only [failed]
    exact Written.valueAbove absent isPrefix reached holds
  · subst items
    have leaf := grown.last_leaf wf createdWf nonempty absent trail
    have inserted : valueInsert noFault created (lastKeyId ids) value timestamp =
        .ok (created.withValue (lastKeyId ids) value timestamp) := by
      rw [valueInsert, execute_noFault, Database.valueInsert_of_vacant _ _ leaf.2]
    simp only [ok, inserted]
    exact Written.inserted absent createdWf grown trail

@[simp]
theorem valueGetTimestamp_of_vacant {database : Database} {id : Nat}
    (vacant : ¬database.Holds id) :
    valueGetTimestamp noFault database id = .error .noentry := by
  have rows : database.getTimestamp id = [] := by
    rw [Database.getTimestamp, map_eq_nil_iff, filter_eq_nil_iff]
    intro row member sameKey
    exact vacant ⟨row, member, by simpa using sameKey⟩
  simp only [valueGetTimestamp, execute_noFault, rows]

/-- The write to a path that fully exists. -/
theorem writeExistingKey_written (wf : daemon.configDatabase.Wf) (nonempty : keyPath ≠ [])
    (trail : daemon.configDatabase.forest.Trail none keyPath ids.items) :
    Written daemon keyPath value timestamp
      (writeExistingKey noFault lastKeyId daemon keyPath ids value timestamp) := by
  have lastPath := lastKeyId_of_trail nonempty trail
  rw [writeExistingKey, childIsPresentForKey]
  cases hasChild : daemon.configDatabase.hasChild (lastKeyId ids) with
  | true =>
    obtain ⟨child, edge⟩ := Database.hasChild_iff.mp hasChild
    exact Written.childBelow lastPath edge
  | false =>
    by_cases holds : daemon.configDatabase.Holds (lastKeyId ids)
    · obtain ⟨existing, existingTimestamp, member⟩ := holds.exists_row
      have rows := Database.filter_eq_singleton wf.values_nodup member
      simp only [valueGetTimestamp, execute_noFault, Database.getTimestamp, rows, map_cons]
      by_cases newer : existingTimestamp > timestamp
      · rw [if_pos newer]
        exact Written.stale lastPath member newer
      · rw [if_neg newer]
        exact Written.updated trail member (not_lt.mp newer)
    · simp only [valueGetTimestamp_of_vacant holds]
      refine Written.valueless lastPath (fun child edge => ?_) holds
      rw [Database.hasChild_iff.mpr ⟨child, edge⟩] at hasChild
      cases hasChild

/-- Every fault-free write to a path of one to fifteen keys has one of these
outcomes. -/
theorem ggconfigWriteValueAtKey_written (isOpen : daemon.configInitialized = true)
    (wf : daemon.configDatabase.Wf) (nonempty : keyPath ≠ [])
    (short : keyPath.length ≤ maxObjectDepth) :
    Written daemon keyPath value timestamp
      (ggconfigWriteValueAtKey noFault daemon keyPath value timestamp) := by
  rw [ggconfigWriteValueAtKey, writeValueAtKeyBy, isOpen]
  by_cases exists_trail : ∃ ids, daemon.configDatabase.forest.Trail none keyPath ids
  · obtain ⟨idList, trail⟩ := exists_trail
    obtain ⟨ids, found, rfl⟩ := getKeyIds_of_trail wf short trail
    simp only [found]
    exact writeExistingKey_written wf nonempty trail
  · simp only [getKeyIds_of_no_trail wf short exists_trail]
    refine writeNewKey_written wf nonempty short ?_
    intro id reached
    exact exists_trail reached.exists_trail

/-! ## The tables after a write -/

/-- A leaf after creation was one before, or it is the last key of the path. -/
theorem Grown.leaf_cases {database : Database} {path : List Buffer} {keyid : Nat}
    (wf : database.Wf) (createdWf : created.Wf) (grown : Grown database created keyPath)
    (nonempty : keyPath ≠ []) (trail : created.forest.Trail none keyPath ids.items)
    (reached : created.forest.Path none path (some keyid))
    (childless : ∀ child, ¬created.forest.edge child keyid) :
    database.forest.Path none path (some keyid) ∧
        (∀ child, ¬database.forest.edge child keyid) ∨
      keyid = lastKeyId ids := by
  rcases grown.added path keyid reached with old | ⟨⟨rest, rfl⟩, _⟩
  · refine .inl ⟨old, fun child edge => ?_⟩
    obtain ⟨name, childPath⟩ := old.exists_below wf.forest edge
    exact childless child ((grown.keep _ _ childPath).last_child createdWf.forest reached).2
  · have below := (reached.append_iff createdWf.forest).mp (lastKeyId_of_trail nonempty trail)
    cases rest with
    | nil => exact .inr (Option.some.inj (path_nil_iff.mp below))
    | cons key rest =>
      obtain ⟨next, child, _⟩ := path_cons_iff.mp below
      exact absurd child.2 (childless next)

/-- A new leaf with its value keeps the invariant. -/
theorem Grown.inv_withValue {database : Database} (inv : database.Inv) (createdWf : created.Wf)
    (grown : Grown database created keyPath) (nonempty : keyPath ≠ [])
    (absent : ∀ id, ¬database.forest.Path none keyPath (some id))
    (trail : created.forest.Trail none keyPath ids.items) :
    (created.withValue (lastKeyId ids) value timestamp).Inv where
  toWf := grown.wf_withValue inv.toWf createdWf nonempty absent trail
  complete keyid name labelled childless := by
    rw [Database.holds_withValue_iff]
    obtain ⟨path, _, reached⟩ := exists_path createdWf.forest labelled
    rcases grown.leaf_cases inv.toWf createdWf nonempty trail reached childless with
      ⟨old, oldChildless⟩ | last
    · obtain ⟨oldName, oldLabelled⟩ := Database.path_labelled old
      exact .inl (grown.holds_iff.mpr (inv.complete keyid oldName oldLabelled oldChildless))
    · exact .inr last

section

variable (written : Written daemon keyPath value timestamp outcome)

include written

/-- Every outcome of a write keeps the tables well formed. -/
theorem Written.wf (wf : daemon.configDatabase.Wf) (nonempty : keyPath ≠ []) :
    outcome.2.configDatabase.Wf := by
  cases written with
  | inserted absent createdWf grown trail =>
    exact grown.wf_withValue wf createdWf nonempty absent trail
  | valueAbove | childBelow | valueless | stale => exact wf
  | updated => exact wf.valueUpdate _ _ _

/-- Every outcome of a write keeps the invariant. -/
theorem Written.inv (inv : daemon.configDatabase.Inv) (nonempty : keyPath ≠ []) :
    outcome.2.configDatabase.Inv := by
  cases written with
  | inserted absent createdWf grown trail =>
    exact grown.inv_withValue inv createdWf nonempty absent trail
  | valueAbove | childBelow | valueless | stale => exact inv
  | updated => exact inv.valueUpdate _ _ _

/-- A write that is rejected leaves the daemon as it was. -/
theorem Written.unchanged_of_error {error : GglError} (rejected : outcome.1 = .error error) :
    outcome.2 = daemon := by
  cases written with
  | inserted | updated => cases rejected
  | valueAbove | childBelow | valueless | stale => rfl

/-- No outcome of a write closes the store. -/
theorem Written.configInitialized : outcome.2.configInitialized = daemon.configInitialized := by
  cases written <;> rfl

end

/-- After an update the written path stores the new value, and every other
path what it stored before. -/
theorem stored_valueUpdate_iff {database : Database} (wf : database.Wf) {id : Nat}
    (reached : database.forest.Path none keyPath (some id)) (holds : database.Holds id)
    {path : List Buffer} :
    (database.valueUpdate id value timestamp).Stored path pathValue pathTime ↔
      (path ≠ keyPath ∧ database.Stored path pathValue pathTime) ∨
        (path = keyPath ∧ pathValue = value ∧ pathTime = timestamp) := by
  constructor
  · rintro ⟨keyid, keyPathReached, member⟩
    rcases (Database.mem_valueUpdate_iff holds).mp member with
      ⟨different, old⟩ | ⟨rfl, rfl, rfl⟩
    · refine Or.inl ⟨?_, keyid, keyPathReached, old⟩
      rintro rfl
      exact different (keyPathReached.node_unique wf.forest reached)
    · exact .inr ⟨keyPathReached.labels_unique wf.forest reached, rfl, rfl⟩
  · rintro (⟨different, keyid, oldPath, old⟩ | ⟨rfl, rfl, rfl⟩)
    · refine ⟨keyid, oldPath, (Database.mem_valueUpdate_iff holds).mpr (.inl ⟨?_, old⟩)⟩
      rintro rfl
      exact different (oldPath.labels_unique wf.forest reached)
    · exact ⟨id, reached, (Database.mem_valueUpdate_iff holds).mpr (.inr ⟨rfl, rfl, rfl⟩)⟩

section

variable (written : Written daemon keyPath value timestamp outcome) (wf : daemon.configDatabase.Wf)
  (nonempty : keyPath ≠ [])

include written wf nonempty

/-- A write leaves what other paths store. -/
theorem Written.stored_iff_of_ne {path : List Buffer} (different : path ≠ keyPath) :
    outcome.2.configDatabase.Stored path pathValue pathTime ↔
      daemon.configDatabase.Stored path pathValue pathTime := by
  cases written with
  | inserted absent createdWf grown trail =>
    apply (grown.stored_withValue_iff wf createdWf nonempty absent trail).trans
    simp [different]
  | valueAbove | childBelow | valueless | stale => rfl
  | updated trail member notNewer =>
    have reached := lastKeyId_of_trail nonempty trail
    apply (stored_valueUpdate_iff wf reached (Database.holds_of_mem member)).trans
    simp [different]

/-- A write to a path that stores a value replaces it unless it is newer. -/
theorem Written.stored_self {existing : Buffer} {existingTime : Int}
    (stored : daemon.configDatabase.Stored keyPath existing existingTime) :
    (existingTime ≤ timestamp → outcome.2.configDatabase.Stored keyPath value timestamp) ∧
      (timestamp < existingTime →
        outcome.2.configDatabase.Stored keyPath existing existingTime) := by
  obtain ⟨keyid, here, row⟩ := stored
  have same : ∀ {id}, daemon.configDatabase.forest.Path none keyPath (some id) → keyid = id :=
    fun reached => here.node_unique wf.forest reached
  cases written with
  | inserted absent | valueAbove absent => exact absurd here (absent keyid)
  | childBelow reached edge => exact absurd (same reached ▸ edge) (wf.exclusive _ row _)
  | valueless reached _ vacant =>
    exact absurd (same reached ▸ Database.holds_of_mem row) vacant
  | stale reached member newer =>
    obtain ⟨rfl, rfl⟩ := Database.Stored.unique wf ⟨keyid, here, row⟩ ⟨_, reached, member⟩
    exact ⟨fun older => absurd newer (not_lt.mpr older), fun _ => ⟨keyid, here, row⟩⟩
  | updated trail member notNewer =>
    have reached := lastKeyId_of_trail nonempty trail
    obtain ⟨rfl, rfl⟩ := Database.Stored.unique wf ⟨keyid, here, row⟩ ⟨_, reached, member⟩
    refine ⟨fun _ => ?_, fun newer => absurd newer (not_lt.mpr notNewer)⟩
    exact (stored_valueUpdate_iff wf reached (Database.holds_of_mem member)).mpr
      (.inr ⟨rfl, rfl, rfl⟩)

/-- An accepted write that meets nothing newer is stored. -/
theorem Written.stored_of_ok (accepted : outcome.1 = .ok ())
    (notNewer : ∀ existing existingTime,
      daemon.configDatabase.Stored keyPath existing existingTime → existingTime ≤ timestamp) :
    outcome.2.configDatabase.Stored keyPath value timestamp := by
  cases written with
  | inserted absent createdWf grown trail =>
    exact (grown.stored_withValue_iff wf createdWf nonempty absent trail).mpr (.inr ⟨rfl, rfl, rfl⟩)
  | valueAbove | childBelow | valueless => cases accepted
  | stale reached member newer =>
    have older := notNewer _ _ ⟨_, reached, member⟩
    omega
  | updated trail member older =>
    exact (stored_valueUpdate_iff wf (lastKeyId_of_trail nonempty trail)
      (Database.holds_of_mem member)).mpr (.inr ⟨rfl, rfl, rfl⟩)

end

end GreengrassLite.Config

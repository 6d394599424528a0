import GreengrassLite.Config.Store
import GreengrassLite.Library.Forest
import Mathlib.Data.List.Nodup

/-!
# The key forest and path lookup

The key and relation tables are the adjacency form of a labelled forest.  On
well-formed tables each query answers exactly the forest relation it stands
for, and `get_key_ids` finds the trail of a key path whenever it exists.
-/

namespace GreengrassLite.Config

open GreengrassLite.Library List

namespace Database

variable {database : Database} {keyvalue : Buffer} {keyPath : List Buffer} {keyid parentid : Nat}

/-- The forest stored in the key and relation tables. -/
def forest (database : Database) : Forest Nat Buffer where
  label keyid keyvalue := ⟨keyid, keyvalue⟩ ∈ database.keyTable
  edge keyid parentid := ⟨keyid, parentid⟩ ∈ database.relationTable

/-- Well-formed tables.  Only the requirement that a childless key holds a
value is missing from the full structural invariant. -/
structure Wf (database : Database) : Prop where
  forest : database.forest.Wf
  keys_nodup : (database.keyTable.map KeyRow.keyid).Nodup
  relations_nodup : (database.relationTable.map RelationRow.keyid).Nodup
  values_nodup : (database.valueTable.map ValueRow.keyid).Nodup
  issued : ∀ row ∈ database.keyTable, 0 < row.keyid ∧ row.keyid ≤ database.sequence
  valued : ∀ row ∈ database.valueTable, ∃ keyvalue, database.forest.label row.keyid keyvalue
  subscribed : ∀ row ∈ database.subscriberTable,
    ∃ keyvalue, database.forest.label row.keyid keyvalue
  exclusive : ∀ row ∈ database.valueTable, ∀ child, ¬database.forest.edge child row.keyid

theorem forest_label_iff :
    database.forest.label keyid keyvalue ↔ ⟨keyid, keyvalue⟩ ∈ database.keyTable :=
  Iff.rfl

theorem forest_edge_iff :
    database.forest.edge keyid parentid ↔ ⟨keyid, parentid⟩ ∈ database.relationTable :=
  Iff.rfl

/-- The created database is well formed. -/
theorem wf_created : created.Wf where
  forest := by
    constructor <;> simp [forest, created, Forest.Child]
  keys_nodup := by simp [created]
  relations_nodup := by simp [created]
  values_nodup := by simp [created]
  issued := by simp [created]
  valued := by simp [created]
  subscribed := by simp [created]
  exclusive := by simp [created]

@[simp]
theorem isRoot_iff :
    database.isRoot keyid = true ↔ ∀ parentid, ¬database.forest.edge keyid parentid := by
  simp only [isRoot, all_eq_true, decide_eq_true_eq, forest_edge_iff]
  constructor
  · intro all parentid member
    exact all _ member rfl
  · rintro none ⟨rowKey, parentid⟩ member rfl
    exact none parentid member

@[simp]
theorem hasChild_iff :
    database.hasChild keyid = true ↔ ∃ child, database.forest.edge child keyid := by
  simp only [hasChild, any_eq_true, decide_eq_true_eq, forest_edge_iff]
  constructor
  · rintro ⟨⟨child, parentid⟩, member, rfl⟩
    exact ⟨child, member⟩
  · rintro ⟨child, member⟩
    exact ⟨_, member, rfl⟩

/-! ## Rows of the key queries -/

@[simp]
theorem mem_getRootKey_iff :
    keyid ∈ database.getRootKey keyvalue ↔ database.forest.Child none keyvalue keyid := by
  simp only [getRootKey, mem_map, mem_filter, decide_eq_true_eq, isRoot_iff,
    Forest.Child, forest_label_iff]
  constructor
  · rintro ⟨⟨rowKey, rowValue⟩, ⟨member, isRoot, rfl⟩, rfl⟩
    exact ⟨member, isRoot⟩
  · rintro ⟨member, isRoot⟩
    exact ⟨_, ⟨member, isRoot, rfl⟩, rfl⟩

@[simp]
theorem mem_getKeyWithParent_iff :
    keyid ∈ database.getKeyWithParent keyvalue parentid ↔
      database.forest.Child (some parentid) keyvalue keyid := by
  simp only [getKeyWithParent, mem_flatMap, mem_map, mem_filter,
    decide_eq_true_eq, Forest.Child, forest_label_iff, forest_edge_iff]
  constructor
  · rintro ⟨⟨rowKey, rowValue⟩, member, ⟨relKey, relParent⟩, ⟨relMember, sameKey, rfl, rfl⟩, rfl⟩
    exact ⟨member, sameKey ▸ relMember⟩
  · rintro ⟨member, relMember⟩
    exact ⟨_, member, _, ⟨relMember, rfl, rfl, rfl⟩, rfl⟩

@[simp]
theorem mem_findElementStep_iff :
    keyid ∈ database.findElementStep keyvalue parentid ↔
      database.forest.Child (some parentid) keyvalue keyid := by
  simp only [findElementStep, mem_flatMap, mem_map, mem_filter,
    decide_eq_true_eq, Forest.Child, forest_label_iff, forest_edge_iff]
  constructor
  · rintro ⟨⟨relKey, relParent⟩, ⟨relMember, rfl⟩, ⟨rowKey, rowValue⟩, ⟨member, sameKey, rfl⟩, rfl⟩
    exact ⟨member, sameKey ▸ relMember⟩
  · rintro ⟨member, relMember⟩
    exact ⟨_, ⟨relMember, rfl⟩, _, ⟨member, rfl, rfl⟩, rfl⟩

@[simp]
theorem mem_getChildren_iff :
    (keyid, keyvalue) ∈ database.getChildren parentid ↔
      database.forest.Child (some parentid) keyvalue keyid := by
  simp only [getChildren, mem_flatMap, mem_map, mem_filter,
    decide_eq_true_eq, Forest.Child, forest_label_iff, forest_edge_iff, Prod.mk.injEq]
  constructor
  · rintro ⟨⟨relKey, relParent⟩, ⟨relMember, rfl⟩, ⟨rowKey, rowValue⟩, ⟨member, sameKey⟩, rfl, rfl⟩
    exact ⟨member, sameKey ▸ relMember⟩
  · rintro ⟨member, relMember⟩
    exact ⟨_, ⟨relMember, rfl⟩, _, ⟨member, rfl⟩, rfl, rfl⟩

private theorem keyids_filter_nodup (wf : database.Wf) (keep : KeyRow → Bool) :
    ((database.keyTable.filter keep).map KeyRow.keyid).Nodup :=
  wf.keys_nodup.sublist (filter_sublist.map _)

/-- Joining the relations of one parent with the key table meets no key
twice. -/
private theorem joined_keyids_nodup (wf : database.Wf) (parentid : Nat) (keep : KeyRow → Bool) :
    ((database.relationTable.filter fun relation => parentid = relation.parentid).flatMap
      fun relation =>
        (database.keyTable.filter fun key =>
          relation.keyid = key.keyid ∧ keep key = true).map KeyRow.keyid).Nodup := by
  rw [nodup_flatMap]
  refine ⟨fun relation _ => keyids_filter_nodup wf _, ?_⟩
  have distinct : (database.relationTable.filter fun relation =>
      parentid = relation.parentid).Pairwise fun first second => first.keyid ≠ second.keyid :=
    (pairwise_map.mp wf.relations_nodup).sublist filter_sublist
  refine distinct.imp ?_
  intro first second different keyid firstMember secondMember
  simp only [mem_map, mem_filter, decide_eq_true_eq] at firstMember secondMember
  obtain ⟨firstRow, ⟨_, firstKey, _⟩, rfl⟩ := firstMember
  obtain ⟨secondRow, ⟨_, secondKey, _⟩, sameKey⟩ := secondMember
  exact different (firstKey.trans (sameKey.symm.trans secondKey.symm))

theorem findElementStep_nodup (wf : database.Wf) (keyvalue : Buffer) (parentid : Nat) :
    (database.findElementStep keyvalue parentid).Nodup := by
  have nodup := joined_keyids_nodup wf parentid fun key => decide (key.keyvalue = keyvalue)
  simpa only [findElementStep, decide_eq_true_eq] using nodup

theorem getChildren_keyids_nodup (wf : database.Wf) (parentid : Nat) :
    ((database.getChildren parentid).map Prod.fst).Nodup := by
  have nodup := joined_keyids_nodup wf parentid fun _ => true
  simpa [getChildren, map_flatMap, Function.comp_def, eq_comm] using nodup

/-- Duplicate-free rows that must all be equal are at most one row. -/
private theorem eq_singleton_of_unique {α : Type} {rows : List α} {row : α} (nodup : rows.Nodup)
    (member : row ∈ rows) (unique : ∀ other ∈ rows, other = row) : rows = [row] := by
  refine perm_singleton.mp ((perm_ext_iff_of_nodup nodup (nodup_singleton row)).mpr fun other => ?_)
  rw [mem_singleton]
  exact ⟨unique other, fun same => same ▸ member⟩

/-- A table with distinct keys has one row of a key. -/
theorem filter_eq_singleton {α : Type} {key : α → Nat} {rows : List α}
    (distinct : (rows.map key).Nodup) {row : α} (member : row ∈ rows) :
    (rows.filter fun other => key other = key row) = [row] := by
  apply eq_singleton_of_unique ((List.Nodup.of_map _ distinct).filter _)
    (mem_filter.mpr ⟨member, decide_eq_true rfl⟩)
  intro other inside
  obtain ⟨otherMember, sameKey⟩ := mem_filter.mp inside
  exact inj_on_of_nodup_map distinct otherMember member (of_decide_eq_true sameKey)

theorem getRootKey_eq_singleton (wf : database.Wf)
    (child : database.forest.Child none keyvalue keyid) :
    database.getRootKey keyvalue = [keyid] := by
  apply eq_singleton_of_unique (keyids_filter_nodup wf _) (mem_getRootKey_iff.mpr child)
  intro other member
  exact wf.forest.sibling_unique (mem_getRootKey_iff.mp member) child

theorem findElementStep_eq_singleton (wf : database.Wf)
    (child : database.forest.Child (some parentid) keyvalue keyid) :
    database.findElementStep keyvalue parentid = [keyid] := by
  apply eq_singleton_of_unique (findElementStep_nodup wf keyvalue parentid)
    (mem_findElementStep_iff.mpr child)
  intro other member
  exact wf.forest.sibling_unique (mem_findElementStep_iff.mp member) child

/-! ## The recursive path query -/

@[simp]
theorem findElementFrom_nil (database : Database) (keys : List Buffer) :
    database.findElementFrom [] keys = [] := by
  induction keys with
  | nil => rfl
  | cons key keys ih => simpa [findElementFrom] using ih

variable {keys : List Buffer} {ids : List Nat}

/-- An existing trail is exactly what the recursive query returns. -/
theorem findElementFrom_of_trail (wf : database.Wf)
    (trail : database.forest.Trail (some keyid) keys ids) :
    database.findElementFrom [keyid] keys = keyid :: ids := by
  induction keys generalizing keyid ids with
  | nil =>
    cases trail
    rfl
  | cons key keys ih =>
    cases trail with
    | cons child rest =>
      simp [findElementFrom, findElementStep_eq_singleton wf child, ih rest]

/-- The path leads to a key. -/
def Has (database : Database) (path : List Buffer) : Prop :=
  ∃ id, database.forest.Path none path (some id)

/-- A path through a child goes on from there. -/
theorem exists_path_cons_iff (wf : database.Wf) {parent : Option Nat} {key : Buffer} {next : Nat}
    (child : database.forest.Child parent key next) (keys : List Buffer) :
    (∃ target, database.forest.Path parent (key :: keys) (some target)) ↔
      ∃ target, database.forest.Path (some next) keys (some target) := by
  refine exists_congr fun target => ?_
  rw [Forest.path_cons_iff]
  constructor
  · rintro ⟨other, otherChild, path⟩
    exact wf.forest.sibling_unique otherChild child ▸ path
  · exact fun path => ⟨next, child, path⟩

/-- The recursive query has a row for every key of the path that exists. -/
theorem lt_findElementFrom_length_iff (wf : database.Wf) {step : Nat} :
    step < (database.findElementFrom [keyid] keys).length ↔
      step ≤ keys.length ∧
        ∃ target, database.forest.Path (some keyid) (keys.take step) (some target) := by
  induction keys generalizing keyid step with
  | nil => cases step <;> simp [findElementFrom]
  | cons key keys ih =>
    cases step with
    | zero => simp [findElementFrom]
    | succ step =>
      rw [findElementFrom, flatMap_singleton, take_succ_cons, length_cons, Nat.succ_le_succ_iff]
      by_cases exists_child : ∃ next, database.forest.Child (some keyid) key next
      · obtain ⟨next, child⟩ := exists_child
        rw [findElementStep_eq_singleton wf child, length_append, length_singleton,
          Nat.add_comm 1, Nat.succ_lt_succ_iff, ih, exists_path_cons_iff wf child]
      · push Not at exists_child
        rw [eq_nil_iff_forall_not_mem.mpr fun keyid member =>
          exists_child keyid (mem_findElementStep_iff.mp member)]
        simp [Forest.path_cons_iff, exists_child]

/-- `find_element.sql` has a row for every key of the path that exists, up to the fifteenth. -/
theorem lt_findElement_length_iff (wf : database.Wf) {step : Nat} :
    step < (database.findElement keyPath).length ↔
      step < keyPath.length ∧ step < maxObjectDepth ∧ database.Has (keyPath.take (step + 1)) := by
  cases keyPath with
  | nil => simp [findElement]
  | cons key keys =>
    rw [findElement, take_succ_cons, Has]
    by_cases exists_child : ∃ next, database.forest.Child none key next
    · obtain ⟨next, child⟩ := exists_child
      rw [getRootKey_eq_singleton wf child, exists_path_cons_iff wf child,
        lt_findElementFrom_length_iff wf, take_take, length_take, Nat.le_min]
      constructor
      · rintro ⟨⟨shallow, bound⟩, target⟩
        rw [Nat.min_eq_left shallow] at target
        exact ⟨Nat.lt_succ_of_le bound, Nat.lt_succ_of_le shallow, target⟩
      · rintro ⟨bound, shallow, target⟩
        have within : step ≤ maxObjectDepth - 1 := Nat.le_of_lt_succ shallow
        rw [Nat.min_eq_left within]
        exact ⟨⟨within, Nat.le_of_lt_succ bound⟩, target⟩
    · push Not at exists_child
      rw [eq_nil_iff_forall_not_mem.mpr fun keyid member =>
        exists_child keyid (mem_getRootKey_iff.mp member)]
      simp [Forest.path_cons_iff, exists_child]

/-- On a path of at most fifteen keys `find_element.sql` returns its trail. -/
theorem findElement_of_trail (wf : database.Wf) (short : keyPath.length ≤ maxObjectDepth)
    (trail : database.forest.Trail none keyPath ids) : database.findElement keyPath = ids := by
  cases trail with
  | nil => rfl
  | @cons _ key keys next nodes child rest =>
    have whole : keys.take (maxObjectDepth - 1) = keys :=
      take_of_length_le (by simp only [length_cons] at short; omega)
    rw [findElement, whole, getRootKey_eq_singleton wf child,
      findElementFrom_of_trail wf rest]

theorem findElement_length_lt (wf : database.Wf) (short : keyPath.length ≤ maxObjectDepth)
    (absent : ¬∃ ids, database.forest.Trail none keyPath ids) :
    (database.findElement keyPath).length < keyPath.length := by
  have nonempty : keyPath ≠ [] := by
    rintro rfl
    exact absent ⟨[], .nil _⟩
  have positive := length_pos_of_ne_nil nonempty
  by_contra long
  have all := ((@lt_findElement_length_iff _ keyPath wf (keyPath.length - 1)).mp (by omega)).2.2
  rw [Nat.sub_add_cancel positive, take_length] at all
  exact absent ((Forest.exists_trail_iff nonempty).mpr all)

end Database

/-! ## `get_key_ids` -/

variable {keyIds : Vec Nat maxObjectDepth}

theorem keep_push_of_room {count : Nat} (id : Nat)
    (room : keyIds.items.length + (count + 1) ≤ maxObjectDepth) :
    (keyIds.keep (gglObjVecPush keyIds id)).items = keyIds.items ++ [id] ∧
      (keyIds.keep (gglObjVecPush keyIds id)).items.length + count ≤ maxObjectDepth := by
  have pushed : (keyIds.keep (gglObjVecPush keyIds id)).items = keyIds.items ++ [id] := by
    rw [gglObjVecPush, Vec.keep_push_items, if_pos (by omega)]
  refine ⟨pushed, ?_⟩
  rw [pushed, length_append, length_singleton]
  omega

theorem getKeyIdsLoop_noFault (keys : List Buffer) (rows : List Nat) (index : Nat)
    (keyIds : Vec Nat maxObjectDepth)
    (room : keyIds.items.length + keys.length ≤ maxObjectDepth) :
    (rows.length < keys.length ∧
        getKeyIdsLoop noFault index keys rows keyIds = .error .noentry) ∨
      ∃ result, getKeyIdsLoop noFault index keys rows keyIds = .ok result ∧
        keys.length ≤ rows.length ∧
        result.items = keyIds.items ++ rows.take keys.length := by
  induction keys generalizing rows index keyIds with
  | nil => exact .inr ⟨keyIds, rfl, by simp, by simp⟩
  | cons key keys ih =>
    cases rows with
    | nil => exact .inl ⟨by simp, by simp [getKeyIdsLoop, noFault]⟩
    | cons id rows =>
      obtain ⟨pushed, nextRoom⟩ := keep_push_of_room id room
      have unfolded : getKeyIdsLoop noFault index (key :: keys) (id :: rows) keyIds =
          getKeyIdsLoop noFault (index + 1) keys rows
            (keyIds.keep (gglObjVecPush keyIds id)) := by
        simp [getKeyIdsLoop, noFault]
      rcases ih rows (index + 1) _ nextRoom with ⟨short, missing⟩ | ⟨result, ok, long, items⟩
      · exact .inl ⟨by simpa using short, missing⟩
      · refine Or.inr ⟨result, ok, by simpa using long, ?_⟩
        rw [items, pushed]
        simp

/-- `get_key_ids` answers the trail of a key path that exists. -/
theorem getKeyIds_of_trail {database : Database} (wf : database.Wf) {keyPath : List Buffer}
    {ids : List Nat} (short : keyPath.length ≤ maxObjectDepth)
    (trail : database.forest.Trail none keyPath ids) :
    ∃ keyIds, getKeyIds noFault database keyPath = .ok keyIds ∧ keyIds.items = ids := by
  have rows := Database.findElement_of_trail wf short trail
  rcases getKeyIdsLoop_noFault keyPath (database.findElement keyPath) 0
      (Vec.empty Nat maxObjectDepth) (by simpa using short) with
    ⟨missing, _⟩ | ⟨result, ok, _, items⟩
  · rw [rows, trail.length_eq] at missing
    exact absurd missing (lt_irrefl _)
  · refine ⟨result, ok, ?_⟩
    rw [items, rows, ← trail.length_eq]
    simp

/-- `get_key_ids` answers `GGL_ERR_NOENTRY` for a key path that does not fully
exist. -/
theorem getKeyIds_of_no_trail {database : Database} (wf : database.Wf) {keyPath : List Buffer}
    (short : keyPath.length ≤ maxObjectDepth)
    (absent : ¬∃ ids, database.forest.Trail none keyPath ids) :
    getKeyIds noFault database keyPath = .error .noentry := by
  have rows := Database.findElement_length_lt wf short absent
  rcases getKeyIdsLoop_noFault keyPath (database.findElement keyPath) 0
      (Vec.empty Nat maxObjectDepth) (by simpa using short) with
    ⟨_, missing⟩ | ⟨_, _, long, _⟩
  · exact missing
  · exact absurd rows (Nat.not_lt.mpr long)

/-- The last id of a trail is the key its path leads to. -/
theorem lastKeyId_of_trail {database : Database} {keyPath : List Buffer} (nonempty : keyPath ≠ [])
    (trail : database.forest.Trail none keyPath keyIds.items) :
    database.forest.Path none keyPath (some (lastKeyId keyIds)) := by
  have itemsNonempty : keyIds.items ≠ [] := by
    intro isEmpty
    have length := trail.length_eq
    rw [isEmpty] at length
    exact nonempty (eq_nil_of_length_eq_zero length.symm)
  have last : keyIds.items.getLast? = some (lastKeyId keyIds) := by
    rw [lastKeyId, getLast?_eq_some_getLast itemsNonempty, Option.getD_some]
  have path := trail.path
  rwa [Forest.endpoint_eq_some last] at path

end GreengrassLite.Config

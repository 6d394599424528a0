import GreengrassLite.Config.Lookup

/-!
# Creating a key path

`create_key_path` descends as far as the keys exist, fails on a key that holds
a value, and adds the missing keys as one chain below the last existing key.
The tables stay well formed, every old path keeps its key, and every new key
lies on the created path.
-/

namespace GreengrassLite.Config

open GreengrassLite.Library List Forest

namespace Database

variable {database : Database} {keyid : Nat} {keyvalue : Buffer} {path : List Buffer}

/-- Some value row belongs to this key. -/
def Holds (database : Database) (keyid : Nat) : Prop :=
  ∃ row ∈ database.valueTable, row.keyid = keyid

@[simp]
theorem valuePresent_eq_nil_iff : database.valuePresent keyid = [] ↔ ¬database.Holds keyid := by
  simp [valuePresent, Holds, filter_eq_nil_iff]

theorem holds_of_mem_valuePresent {pid : Nat} (member : pid ∈ database.valuePresent keyid) :
    pid = keyid ∧ database.Holds keyid := by
  simp only [valuePresent, mem_map, mem_filter, decide_eq_true_eq] at member
  obtain ⟨row, ⟨rowMember, rowKey⟩, rfl⟩ := member
  exact ⟨rowKey, row, rowMember, rowKey⟩

theorem Wf.label_issued (wf : database.Wf) (labelled : database.forest.label keyid keyvalue) :
    0 < keyid ∧ keyid ≤ database.sequence :=
  wf.issued _ labelled

/-- The next key id is not used anywhere in the forest. -/
theorem Wf.fresh (wf : database.Wf) :
    database.forest.Fresh (database.sequence + 1) where
  unlabelled keyvalue labelled := by
    have bound := (wf.label_issued labelled).2
    omega
  no_parent above edge := by
    obtain ⟨⟨keyvalue, labelled⟩, _⟩ := wf.forest.edge_labelled edge
    have bound := (wf.label_issued labelled).2
    omega
  no_child below edge := by
    obtain ⟨_, keyvalue, labelled⟩ := wf.forest.edge_labelled edge
    have bound := (wf.label_issued labelled).2
    omega

theorem path_labelled (reached : database.forest.Path none path (some keyid)) :
    ∃ keyvalue, database.forest.label keyid keyvalue := by
  have nonempty : path ≠ [] := by
    rintro rfl
    simp at reached
  obtain ⟨node, keyvalue, equal, labelled⟩ := reached.exists_label nonempty
  obtain rfl := Option.some.inj equal
  exact ⟨keyvalue, labelled⟩

/-- A key that a path leads to has been issued. -/
theorem Wf.path_issued (wf : database.Wf) (reached : database.forest.Path none path (some keyid)) :
    0 < keyid ∧ keyid ≤ database.sequence := by
  obtain ⟨keyvalue, labelled⟩ := path_labelled reached
  exact wf.label_issued labelled

theorem Wf.holds_issued (wf : database.Wf) (holds : database.Holds keyid) :
    0 < keyid ∧ keyid ≤ database.sequence := by
  obtain ⟨row, member, rfl⟩ := holds
  obtain ⟨keyvalue, labelled⟩ := wf.valued row member
  exact wf.label_issued labelled

/-- A key that has a child holds no value. -/
theorem Wf.not_holds_of_child (wf : database.Wf) {child : Nat}
    (below : database.forest.Child (some keyid) keyvalue child) : ¬database.Holds keyid := by
  rintro ⟨row, member, rfl⟩
  exact wf.exclusive row member child below.2

/-! ## Adding one key -/

/-- The tables after a key has been inserted below `parent`, a root key having
no relation row. -/
def addKey (database : Database) (keyvalue : Buffer) (parent : Option Nat) : Database :=
  { database with
    keyTable := database.keyTable ++ [⟨database.sequence + 1, keyvalue⟩]
    relationTable := database.relationTable ++
      parent.toList.map fun parentid => ⟨database.sequence + 1, parentid⟩
    sequence := database.sequence + 1 }

@[simp]
theorem forest_addKey (database : Database) (keyvalue : Buffer) (parent : Option Nat) :
    (database.addKey keyvalue parent).forest =
      database.forest.insert (database.sequence + 1) keyvalue parent := by
  cases parent <;>
    simp only [forest, addKey, Forest.insert, Forest.mk.injEq, mem_append,
      mem_singleton, KeyRow.mk.injEq, Option.toList_none, Option.toList_some,
      map_nil, map_cons, not_mem_nil, RelationRow.mk.injEq, true_and]
  · funext keyid above
    simp
  · funext keyid above
    rw [Option.some.injEq]
    simp [eq_comm]

@[simp]
theorem keyInsert_eq_addKey (database : Database) (keyvalue : Buffer) :
    database.keyInsert keyvalue =
      (database.sequence + 1, database.addKey keyvalue none) := by
  simp [keyInsert, addKey]

theorem insertRelation_eq_addKey (wf : database.Wf) (keyvalue : Buffer) (parentid : Nat) :
    (database.addKey keyvalue none).insertRelation (database.sequence + 1) parentid =
      .ok (database.addKey keyvalue (some parentid)) := by
  have isRoot : (database.addKey keyvalue none).isRoot (database.sequence + 1) = true := by
    rw [isRoot_iff, forest_addKey]
    intro above edge
    rcases edge with edge | ⟨_, equal⟩
    · exact wf.fresh.no_parent above edge
    · cases equal
  rw [insertRelation, if_pos isRoot]
  simp [addKey]

/-- Adding a key under an unused name below a key without a value keeps the
tables well formed. -/
theorem Wf.addKey (wf : database.Wf) {parent : Option Nat}
    (parentPath : database.forest.Path none path parent)
    (vacant : ∀ parentid, parent = some parentid → ¬database.Holds parentid)
    (unused : ∀ keyid, ¬database.forest.Child parent keyvalue keyid) :
    (database.addKey keyvalue parent).Wf where
  forest := by
    rw [forest_addKey]
    refine wf.forest.insert wf.fresh ?_ unused
    rintro parentid rfl
    obtain ⟨name, labelled⟩ := path_labelled parentPath
    exact ⟨Nat.lt_succ_of_le (wf.label_issued labelled).2, name, labelled⟩
  keys_nodup := by
    have unissued : database.sequence + 1 ∉ database.keyTable.map KeyRow.keyid := by
      intro member
      obtain ⟨row, rowMember, rowKey⟩ := mem_map.mp member
      have bound := (wf.issued row rowMember).2
      omega
    simpa [Database.addKey, nodup_append] using
      ⟨wf.keys_nodup, fun row member equal =>
        unissued (mem_map.mpr ⟨row, member, equal⟩)⟩
  relations_nodup := by
    have unissued : ∀ row ∈ database.relationTable, row.keyid ≠ database.sequence + 1 := by
      rintro ⟨keyid, parentid⟩ member rfl
      exact wf.fresh.no_parent parentid member
    cases parent with
    | none => simpa [Database.addKey] using wf.relations_nodup
    | some parentid =>
      simpa [Database.addKey, nodup_append] using ⟨wf.relations_nodup, unissued⟩
  values_nodup := wf.values_nodup
  issued := by
    intro row member
    rcases mem_append.mp member with old | new
    · obtain ⟨positive, bound⟩ := wf.issued row old
      exact ⟨positive, Nat.le_succ_of_le bound⟩
    · obtain rfl := mem_singleton.mp new
      exact ⟨Nat.succ_pos _, le_rfl⟩
  valued := by
    intro row member
    obtain ⟨name, labelled⟩ := wf.valued row member
    rw [forest_addKey]
    exact ⟨name, .inl labelled⟩
  subscribed := by
    intro row member
    obtain ⟨name, labelled⟩ := wf.subscribed row member
    rw [forest_addKey]
    exact ⟨name, .inl labelled⟩
  exclusive := by
    intro row member child edge
    rw [forest_addKey] at edge
    rcases edge with edge | ⟨rfl, equal⟩
    · exact wf.exclusive row member child edge
    · exact vacant row.keyid equal ⟨row, member, rfl⟩

end Database

/-! ## What creation may change -/

/-- `created` extends `database` by keys on the path `keyPath` only. -/
structure Grown (database created : Database) (keyPath : List Buffer) : Prop where
  values : created.valueTable = database.valueTable
  subscribers : created.subscriberTable = database.subscriberTable
  sequence_le : database.sequence ≤ created.sequence
  keep : ∀ path keyid, database.forest.Path none path (some keyid) →
    created.forest.Path none path (some keyid)
  added : ∀ path keyid, created.forest.Path none path (some keyid) →
    database.forest.Path none path (some keyid) ∨
      (path <+: keyPath ∧ database.sequence < keyid)

theorem Grown.refl (database : Database) (keyPath : List Buffer) :
    Grown database database keyPath :=
  ⟨rfl, rfl, le_rfl, fun _ _ path => path, fun _ _ path => .inl path⟩

theorem Grown.trans {first second third : Database} {keyPath : List Buffer}
    (left : Grown first second keyPath) (right : Grown second third keyPath) :
    Grown first third keyPath where
  values := right.values.trans left.values
  subscribers := right.subscribers.trans left.subscribers
  sequence_le := left.sequence_le.trans right.sequence_le
  keep path keyid reached := right.keep path keyid (left.keep path keyid reached)
  added path keyid reached := by
    rcases right.added path keyid reached with reached | ⟨onPath, issued⟩
    · exact left.added path keyid reached
    · exact .inr ⟨onPath, left.sequence_le.trans_lt issued⟩

variable {id : Nat} {keyPath : List Buffer}

/-- The only new path is the one to the added key. -/
theorem path_addKey_iff {database : Database} (wf : database.Wf) {base path : List Buffer}
    {key : Buffer} {parent : Option Nat} (parentPath : database.forest.Path none base parent) :
    (database.addKey key parent).forest.Path none path (some id) ↔
      database.forest.Path none path (some id) ∨
        path = base ++ [key] ∧ id = database.sequence + 1 := by
  have aboveFresh : parent ≠ some (database.sequence + 1) := by
    rintro rfl
    have bound := (wf.path_issued parentPath).2
    omega
  rw [Database.forest_addKey, path_insert_iff wf.fresh aboveFresh (by simp)]
  refine or_congr_right ⟨?_, ?_⟩
  · rintro ⟨init, rfl, initPath, equal⟩
    refine ⟨?_, Option.some.inj equal⟩
    cases parent with
    | none => rw [initPath.eq_nil_of_target_none, parentPath.eq_nil_of_target_none]
    | some parentid => rw [initPath.labels_unique wf.forest parentPath]
  · rintro ⟨rfl, rfl⟩
    exact ⟨base, rfl, parentPath, rfl⟩

/-- Adding one key below the end of a path grows the tables along every path
that continues with it. -/
theorem Grown.addKey {database : Database} (wf : database.Wf) {base : List Buffer}
    {key : Buffer} {keys : List Buffer} {parent : Option Nat}
    (parentPath : database.forest.Path none base parent) :
    Grown database (database.addKey key parent) (base ++ key :: keys) where
  values := rfl
  subscribers := rfl
  sequence_le := Nat.le_succ _
  keep path keyid reached := (path_addKey_iff wf parentPath).mpr (.inl reached)
  added path keyid reached := by
    rcases (path_addKey_iff wf parentPath).mp reached with old | ⟨rfl, rfl⟩
    · exact .inl old
    · exact .inr ⟨⟨keys, by simp⟩, Nat.lt_succ_self _⟩

/-! ## The statements of the loop -/

theorem valueIsPresentForKey_of_clear (database : Database) {keyId : Nat} {fault : Fault}
    {statement : Statement} (clear : fault statement = false) (positive : 0 < keyId) :
    (database.Holds keyId ∧
        valueIsPresentForKey fault statement database keyId = .ok true) ∨
      (¬database.Holds keyId ∧
        valueIsPresentForKey fault statement database keyId = .ok false) := by
  simp only [valueIsPresentForKey, execute_of_clear clear]
  cases rows : database.valuePresent keyId with
  | nil => exact .inr ⟨Database.valuePresent_eq_nil_iff.mp rows, rfl⟩
  | cons pid rest =>
    have member : pid ∈ database.valuePresent keyId := by
      rw [rows]
      exact mem_cons_self
    obtain ⟨rfl, holds⟩ := Database.holds_of_mem_valuePresent member
    exact .inl ⟨holds, by simp [Nat.pos_iff_ne_zero.mp positive]⟩

/-- The keys of this name below a key, or at the root. -/
def Database.childRows (database : Database) (key : Buffer) : Option Nat → List Nat
  | none => database.getRootKey key
  | some parentid => database.getKeyWithParent key parentid

@[simp]
theorem Database.mem_childRows_iff {database : Database} {key : Buffer} {parent : Option Nat} :
    id ∈ database.childRows key parent ↔ database.forest.Child parent key id := by
  cases parent with
  | none => exact mem_getRootKey_iff
  | some parentid => exact mem_getKeyWithParent_iff

/-- A key that holds a value ends the creation. -/
def vacantKey (fault : Fault) (index : Nat) (key : Nat × Database) :
    Except GglError (Nat × Database) :=
  match valueIsPresentForKey fault (.valuePresent index) key.2 key.1 with
  | .error error => .error error
  | .ok true => .error .failure
  | .ok false => .ok key

/-- The round of `create_key_path` for one key: the first has no parent. -/
def createKey (fault : Fault) (index : Nat) (database : Database) (key : Buffer) :
    Option Nat → Except GglError (Nat × Database)
  | none => getOrCreateKeyAtRoot fault database key >>= vacantKey fault index
  | some parentKeyId =>
    match findKeyWithParent fault index database key parentKeyId with
    | .error .noentry => do
      let inserted ← keyInsert fault index database key
      let related ← relationInsert fault index inserted.2 inserted.1 parentKeyId
      return (inserted.1, related)
    | .ok id => vacantKey fault index (id, database)
    | .error error => .error error

/-- All rounds of `create_key_path`. -/
def createFrom (fault : Fault) : Database → Option Nat → Nat → Vec Nat maxObjectDepth →
    List Buffer → Except GglError (Vec Nat maxObjectDepth × Database)
  | database, _, _, ids, [] => .ok (ids, database)
  | database, parent, index, ids, key :: keys => do
    let next ← createKey fault index database key parent
    createFrom fault next.2 (some next.1) (index + 1) (ids.keep (gglObjVecPush ids next.1)) keys

theorem createKeyPathLoop_eq (fault : Fault) (keys : List Buffer) (database : Database)
    (parentKeyId index : Nat) (ids : Vec Nat maxObjectDepth) :
    createKeyPathLoop fault database parentKeyId index ids keys =
      createFrom fault database (some parentKeyId) index ids keys := by
  induction keys generalizing database parentKeyId index ids with
  | nil => rfl
  | cons key keys ih =>
    rw [createKeyPathLoop, createFrom, createKey]
    cases findKeyWithParent fault index database key parentKeyId with
    | ok id =>
      dsimp only [vacantKey]
      rcases valueIsPresentForKey fault (.valuePresent index) database id with _ | _ | _
      · rfl
      · exact ih ..
      · rfl
    | error error =>
      cases error with
      | noentry =>
        rcases keyInsert fault index database key with _ | ⟨id, inserted⟩
        · rfl
        dsimp only [bind, Except.bind]
        rcases relationInsert fault index inserted id parentKeyId with _ | related
        · rfl
        · exact ih ..
      | _ => rfl

@[simp]
theorem createKeyPath_eq (fault : Fault) (database : Database) (nonempty : keyPath ≠ []) :
    createKeyPath fault database keyPath =
      createFrom fault database none 0 (Vec.empty Nat maxObjectDepth) keyPath := by
  cases keyPath with
  | nil => exact absurd rfl nonempty
  | cons rootKey keys =>
    rw [createKeyPath, createFrom, createKey]
    rcases getOrCreateKeyAtRoot fault database rootKey with _ | root
    · rfl
    dsimp only [bind, Except.bind, vacantKey]
    rcases valueIsPresentForKey fault (.valuePresent 0) root.2 root.1 with _ | _ | _
    · rfl
    · exact createKeyPathLoop_eq ..
    · rfl

theorem vacantKey_noFault (database : Database) {keyId : Nat} (index : Nat)
    (positive : 0 < keyId) :
    (database.Holds keyId ∧ vacantKey noFault index (keyId, database) = .error .failure) ∨
      (¬database.Holds keyId ∧
        vacantKey noFault index (keyId, database) = .ok (keyId, database)) := by
  rw [vacantKey]
  rcases @valueIsPresentForKey_of_clear database _ noFault (.valuePresent index) rfl positive with
    ⟨holds, present⟩ | ⟨vacant, present⟩
  · exact .inl ⟨holds, by rw [present]⟩
  · exact .inr ⟨vacant, by rw [present]⟩

/-! ## One key of the path -/

/-- Outcome of creating `keys` below the key at `base`: either a key on the
way holds a value and nothing is kept, or the whole path exists afterwards. -/
def Creates (database : Database) (base keys : List Buffer) (parent : Option Nat)
    (keyIds : List Nat)
    (outcome : Except GglError (Vec Nat maxObjectDepth × Database)) : Prop :=
  (outcome = .error .failure ∧
      ∃ rest id, rest ≠ [] ∧ rest <+: keys ∧
        database.forest.Path none (base ++ rest) (some id) ∧ database.Holds id) ∨
    ∃ result created ids, outcome = .ok (result, created) ∧
      result.items = keyIds ++ ids ∧ created.Wf ∧ Grown database created (base ++ keys) ∧
      created.forest.Trail parent keys ids

variable {database : Database} {base keys : List Buffer} {key : Buffer} {parent : Option Nat}
  {keyIds : List Nat} {outcome : Except GglError (Vec Nat maxObjectDepth × Database)}

/-- A path is kept also where it leads to the virtual root. -/
theorem Grown.keep_option {created : Database} {path : List Buffer}
    (grown : Grown database created keyPath) (reached : database.forest.Path none path parent) :
    created.forest.Path none path parent := by
  cases parent with
  | none =>
    obtain rfl := reached.eq_nil_of_target_none
    exact Forest.Path.nil none
  | some keyid => exact grown.keep path keyid reached

/-- Descending to a key that exists. -/
theorem Creates.descend (parentPath : database.forest.Path none base parent)
    (child : database.forest.Child parent key id)
    (creates : Creates database (base ++ [key]) keys (some id) (keyIds ++ [id]) outcome) :
    Creates database base (key :: keys) parent keyIds outcome := by
  rcases creates with ⟨failed, rest, held, nonempty, isPrefix, restPath, holds⟩ |
    ⟨result, created, ids, ok, items, createdWf, grown, trail⟩
  · refine Or.inl ⟨failed, key :: rest, held, by simp,
      cons_prefix_cons.mpr ⟨rfl, isPrefix⟩, ?_, holds⟩
    simpa using restPath
  · have childKept : created.forest.Child parent key id :=
      (grown.keep _ _ (parentPath.snoc child)).last_child createdWf.forest
        (grown.keep_option parentPath)
    exact .inr ⟨result, created, id :: ids, ok, by simpa using items, createdWf,
      by simpa using grown, Forest.Trail.cons childKept trail⟩

section

variable (wf : database.Wf)

include wf

/-- The added key has no children yet. -/
theorem no_child_addKey (parentPath : database.forest.Path none base parent) (name : Buffer)
    (below : Nat) :
    ¬(database.addKey key parent).forest.Child (some (database.sequence + 1)) name below := by
  rw [Database.forest_addKey, child_insert_iff wf.fresh]
  rintro (old | ⟨rfl, _⟩)
  · exact wf.fresh.no_child below old.2
  · have bound := (wf.path_issued parentPath).2
    omega

theorem not_holds_addKey : ¬(database.addKey key parent).Holds (database.sequence + 1) := by
  intro holds
  have bound := (wf.holds_issued holds).2
  omega

theorem path_addKey (parentPath : database.forest.Path none base parent) :
    (database.addKey key parent).forest.Path none (base ++ [key])
      (some (database.sequence + 1)) :=
  (path_addKey_iff wf parentPath).mpr (.inr ⟨rfl, rfl⟩)

/-- Continuing below a key that has just been added. -/
theorem Creates.add (parentPath : database.forest.Path none base parent)
    (nextWf : (database.addKey key parent).Wf)
    (creates : Creates (database.addKey key parent) (base ++ [key]) keys
      (some (database.sequence + 1)) (keyIds ++ [database.sequence + 1]) outcome) :
    Creates database base (key :: keys) parent keyIds outcome := by
  rcases creates with ⟨_, rest, held, nonempty, _, restPath, _⟩ |
    ⟨result, created, ids, ok, items, createdWf, grown, trail⟩
  · have belowPath := ((path_addKey wf parentPath).append_iff nextWf.forest).mp restPath
    cases rest with
    | nil => exact absurd rfl nonempty
    | cons second rest =>
      obtain ⟨below, belowChild, _⟩ := path_cons_iff.mp belowPath
      exact absurd belowChild (no_child_addKey wf parentPath second below)
  · have grownOne : Grown database (database.addKey key parent) (base ++ key :: keys) :=
      Grown.addKey wf parentPath
    have childKept : created.forest.Child parent key (database.sequence + 1) :=
      (grown.keep _ _ (path_addKey wf parentPath)).last_child createdWf.forest
        (grown.keep_option (grownOne.keep_option parentPath))
    exact .inr ⟨result, created, (database.sequence + 1) :: ids, ok, by simpa using items,
      createdWf, grownOne.trans (by simpa using grown), Forest.Trail.cons childKept trail⟩

/-! ## The whole path -/

/-- A key of the path is there and holds a value, is there and holds none, or is added. -/
theorem createKey_noFault (index : Nat) (parentPath : database.forest.Path none base parent)
    (vacant : ∀ parentid, parent = some parentid → ¬database.Holds parentid) (key : Buffer) :
    (∃ id, database.forest.Child parent key id ∧
        (database.Holds id ∧ createKey noFault index database key parent = .error .failure ∨
          ¬database.Holds id ∧ createKey noFault index database key parent = .ok (id, database))) ∨
      (∀ id, ¬database.forest.Child parent key id) ∧ (database.addKey key parent).Wf ∧
        createKey noFault index database key parent =
          .ok (database.sequence + 1, database.addKey key parent) := by
  cases rows : database.childRows key parent with
  | nil =>
    have absent : ∀ id, ¬database.forest.Child parent key id := by
      intro id child
      rw [← Database.mem_childRows_iff, rows] at child
      cases child
    refine .inr ⟨absent, wf.addKey parentPath vacant absent, ?_⟩
    cases parent with
    | none =>
      change database.getRootKey key = [] at rows
      rw [createKey, getOrCreateKeyAtRoot, execute_noFault, rows, keyInsert, execute_noFault,
        Database.keyInsert_eq_addKey]
      rcases vacantKey_noFault (database.addKey key none) index (Nat.succ_pos _) with
        ⟨holds, _⟩ | ⟨_, free⟩
      · exact absurd holds (not_holds_addKey wf)
      · exact free
    | some parentid =>
      change database.getKeyWithParent key parentid = [] at rows
      rw [createKey, findKeyWithParent, execute_noFault, rows, keyInsert, execute_noFault,
        Database.keyInsert_eq_addKey]
      dsimp only [bind, Except.bind]
      rw [relationInsert, Database.insertRelation_eq_addKey wf]
      rfl
  | cons id rest =>
    have child : database.forest.Child parent key id := by
      rw [← Database.mem_childRows_iff, rows]
      exact mem_cons_self
    have found : createKey noFault index database key parent =
        vacantKey noFault index (id, database) := by
      cases parent with
      | none =>
        change database.getRootKey key = id :: rest at rows
        rw [createKey, getOrCreateKeyAtRoot, rows]
        rfl
      | some parentid =>
        change database.getKeyWithParent key parentid = id :: rest at rows
        rw [createKey, findKeyWithParent, execute_noFault, rows]
    rw [found]
    exact .inl ⟨id, child,
      vacantKey_noFault database index (wf.path_issued (parentPath.snoc child)).1⟩

/-- Keys are created below a key that holds no value. -/
theorem createFrom_creates (index : Nat) {ids : Vec Nat maxObjectDepth}
    (parentPath : database.forest.Path none base parent)
    (vacant : ∀ parentid, parent = some parentid → ¬database.Holds parentid)
    (room : ids.items.length + keys.length ≤ maxObjectDepth) :
    Creates database base keys parent ids.items
      (createFrom noFault database parent index ids keys) := by
  induction keys generalizing database base parent index ids with
  | nil =>
    exact .inr ⟨ids, database, [], rfl, by simp, wf, Grown.refl _ _, Forest.Trail.nil _⟩
  | cons key keys ih =>
    rw [createFrom]
    rcases createKey_noFault wf index parentPath vacant key with
      ⟨id, child, ⟨holds, failed⟩ | ⟨idVacant, found⟩⟩ | ⟨absent, nextWf, added⟩
    · rw [failed]
      exact .inl ⟨rfl, [key], id, by simp, by simp, parentPath.snoc child, holds⟩
    · obtain ⟨pushed, nextRoom⟩ := keep_push_of_room id room
      have creates := ih wf (index + 1) (parentPath.snoc child)
        (fun _ same => Option.some.inj same ▸ idVacant) nextRoom
      rw [pushed] at creates
      rw [found]
      exact creates.descend parentPath child
    · obtain ⟨pushed, nextRoom⟩ := keep_push_of_room (database.sequence + 1) room
      have creates := ih nextWf (index + 1) (path_addKey wf parentPath)
        (fun _ same => Option.some.inj same ▸ not_holds_addKey wf) nextRoom
      rw [pushed] at creates
      rw [added]
      exact creates.add wf parentPath nextWf

/-- `create_key_path` creates a path of one to fifteen keys, unless a key on
it holds a value. -/
theorem createKeyPath_creates (nonempty : keyPath ≠ []) (short : keyPath.length ≤ maxObjectDepth) :
    Creates database [] keyPath none [] (createKeyPath noFault database keyPath) := by
  rw [createKeyPath_eq noFault database nonempty]
  exact createFrom_creates wf 0 (.nil none) (by simp) (by simpa using short)

end

end GreengrassLite.Config

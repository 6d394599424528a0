import GreengrassLite.Config.Invariant

/-!
# What a read answers

`read_key_recursive` rebuilds the object below a key from the tables.  On
tables that satisfy the structural invariant, and with enough memory, it
answers an object whose leaves are exactly the values stored below the key.
Key ids grow along the relation, so the recursion needs no more depth than
there are key ids above its start.
-/

namespace GreengrassLite.Config

open GreengrassLite.Library List GglObject Database

variable {rows : List (Nat × Buffer)} {pairs : GglMap}

mutual

/-- Bytes of read memory that suffice for building an object: its buffers, its
pairs and the padding of every allocation. -/
def readSize : GglObject → Nat
  | .buf bytes => 1 + bytes.length * 1
  | .map pairs => (kvAlign + pairs.length * kvSize) + pairsReadSize pairs
  | _ => 0

/-- Bytes that suffice for the keys and values of the pairs. -/
def pairsReadSize : GglMap → Nat
  | [] => 0
  | (key, value) :: rest => (1 + key.length * 1) + readSize value + pairsReadSize rest

end

/-- Requests for which `size` free bytes suffice. -/
def Modest (requests : List (Nat × Nat)) (size : Nat) : Prop :=
  ∀ alloc : BumpAlloc, alloc.len < 2 ^ 64 → alloc.index + size ≤ alloc.len →
    ∃ left, bumpAllocator.allocAll alloc requests = some left ∧ left.len = alloc.len ∧
      left.index ≤ alloc.index + size

theorem Modest.append {first second : List (Nat × Nat)} {size more : Nat}
    (firstModest : Modest first size) (secondModest : Modest second more) :
    Modest (first ++ second) (size + more) := by
  intro alloc wide room
  obtain ⟨middle, granted, middleLen, middleUsed⟩ := firstModest alloc wide (by omega)
  obtain ⟨left, later, leftLen, leftUsed⟩ := secondModest middle (by omega) (by omega)
  refine ⟨left, ?_, by omega, by omega⟩
  rw [GglAlloc.allocAll] at granted later ⊢
  rw [foldlM_append, granted]
  exact later

theorem modest_singleton (size count : Nat) {alignment : Nat} (aligned : 0 < alignment) :
    Modest [(count * size, alignment)] (alignment + count * size) := by
  intro alloc wide room
  rw [GglAlloc.allocAll_singleton, ← gglAllocn_eq_alloc]
  exact gglAllocn_of_room aligned wide room

theorem modest_buf (text : Buffer) : Modest (bufRequests true text) (1 + text.length * 1) := by
  have modest := modest_singleton 1 text.length Nat.one_pos
  rw [Nat.mul_one] at modest ⊢
  exact modest

theorem modest_map {pairs : GglMap}
    (inside : Modest (pairRequests true pairs) (pairsReadSize pairs)) :
    Modest ((map pairs).requests true) (readSize (.map pairs)) := by
  rw [requests, readSize]
  refine Modest.append ?_ inside
  cases pairs with
  | nil => exact fun alloc _ _ => ⟨alloc, rfl, rfl, Nat.le_add_right _ _⟩
  | cons pair pairs => exact modest_singleton kvSize _ (by decide)

/-- Pairs whose leaves are all texts fit into the memory that suffices for them. -/
theorem modest_pairs (pairs : GglMap)
    (texts : ∀ path leaf, (path, leaf) ∈ pairsLeaves pairs → ∃ text, leaf = .buf text) :
    Modest (pairRequests true pairs) (pairsReadSize pairs) := by
  have first : ∀ {key value rest path leaf}, (path, leaf) ∈ leaves value →
      (key :: path, leaf) ∈ pairsLeaves ((key, value) :: rest) := fun member =>
    mem_append_left _ (mem_map_of_mem member)
  induction pairs using pairs_induction with
  | nil => exact fun alloc _ _ => ⟨alloc, rfl, rfl, Nat.le_refl _⟩
  | nested key pairs rest ihPairs ihRest =>
    rw [pairRequests, pairsReadSize, Nat.add_assoc]
    exact (modest_buf key).append
      ((modest_map (ihPairs fun _ _ member => texts _ _ (first member))).append
        (ihRest fun _ _ member => texts _ _ (mem_append_right _ member)))
  | leaf key value rest isLeaf ihRest =>
    have here : ([key], value) ∈ pairsLeaves ((key, value) :: rest) := by
      apply first
      rw [leaves_of_not_map isLeaf]
      exact mem_cons_self
    obtain ⟨text, rfl⟩ := texts _ _ here
    rw [pairRequests, pairsReadSize, Nat.add_assoc]
    exact (modest_buf key).append ((modest_buf text).append
      (ihRest fun _ _ member => texts _ _ (mem_append_right _ member)))

/-- With the memory that an object takes, `read` answers it. -/
def Delivers (read : BumpAlloc → Except GglError GglObject × BumpAlloc) (object : GglObject) :
    Prop :=
  ∀ alloc left, bumpAllocator.allocAll alloc (object.requests true) = some left →
    read alloc = (.ok object, left)

/-- None of the statements fails that read what is stored at or below a key. -/
def Database.Clear (database : Database) (fault : Fault) (keyid : Nat) : Prop :=
  ∀ rest target, database.forest.Path (some keyid) rest (some target) →
    fault (.readPresent target) = false ∧ fault (.readValue target) = false ∧
      ∀ row < (database.getChildren target).length,
        fault (.countChildren target row) = false ∧ fault (.getChildren target row) = false

/-- The object is well nested and its leaves are exactly the values stored at
or below the key. -/
structure Database.Reads (database : Database) (keyid : Nat) (object : GglObject) : Prop where
  wellNested : object.WellNested
  mem_leaves_iff : ∀ rest leaf, (rest, leaf) ∈ object.leaves ↔
    ∃ value timeStamp target, leaf = .buf value ∧
      database.forest.Path (some keyid) rest (some target) ∧
      ⟨target, value, timeStamp⟩ ∈ database.valueTable

variable {database : Database}

theorem Database.Reads.modest {keyid : Nat} {object : GglObject}
    (reads : database.Reads keyid object) : Modest (object.requests true) (readSize object) := by
  have texts : ∀ path leaf, (path, leaf) ∈ object.leaves → ∃ text, leaf = .buf text := by
    intro path leaf member
    obtain ⟨text, -, -, isText, -⟩ := (reads.mem_leaves_iff path leaf).mp member
    exact ⟨text, isText⟩
  cases object using map_cases with
  | map pairs => exact modest_map (modest_pairs pairs texts)
  | leaf object isLeaf =>
    rw [leaves_of_not_map isLeaf] at texts
    obtain ⟨text, rfl⟩ := texts [] object mem_cons_self
    exact modest_buf text

/-! ## A key that holds a value -/

section

variable (wf : database.Wf) {keyid : Nat} {value : Buffer} {timeStamp : Int}
  (member : ⟨keyid, value, timeStamp⟩ ∈ database.valueTable)

include wf member

theorem readValueAtKey_delivers {fault : Fault} (clear : fault (.readValue keyid) = false) :
    Delivers (readValueAtKey fault database keyid) (.buf value) := by
  intro alloc left granted
  have rows := filter_eq_singleton wf.values_nodup member
  have allocated : gglAllocn 64 alloc 1 1 value.length = some left := by
    rw [gglAllocn_eq_alloc, Nat.mul_one]
    exact (bumpAllocator.allocAll_singleton alloc _).symm.trans granted
  simp only [readValueAtKey, execute_of_clear clear, Database.readValue, rows, map_cons, allocated]

theorem Database.Wf.reads_value :
    database.Reads keyid (.buf value) where
  wellNested := trivial
  mem_leaves_iff rest leaf := by
    simp only [leaves, mem_singleton, Prod.mk.injEq]
    constructor
    · rintro ⟨rfl, rfl⟩
      exact ⟨value, timeStamp, keyid, rfl, Forest.Path.nil _, member⟩
    · rintro ⟨other, otherTime, target, rfl, path, otherMember⟩
      cases rest with
      | nil =>
        obtain rfl := Option.some.inj (Forest.path_nil_iff.mp path)
        have sameRow := wf.row_unique otherMember member rfl
        simp only [ValueRow.mk.injEq] at sameRow
        exact ⟨rfl, by rw [sameRow.2.1]⟩
      | cons key rest =>
        obtain ⟨next, child, _⟩ := Forest.path_cons_iff.mp path
        exact absurd (holds_of_mem member) (wf.not_holds_of_child child)

end

/-! ## A key with children -/

/-- The pairs built from the rows of the children. -/
def ChildPairs (database : Database) (rows : List (Nat × Buffer)) (pairs : GglMap) : Prop :=
  List.Forall₂ (fun row pair => pair.1 = row.2 ∧ database.Reads row.1 pair.2) rows pairs

theorem readChildren_delivers {read : Nat → BumpAlloc → Except GglError GglObject × BumpAlloc}
    (readable : ∀ row ∈ rows,
      ∃ object, database.Reads row.1 object ∧ Delivers (read row.1) object) :
    ∃ pairs, ChildPairs database rows pairs ∧
      ∀ {count : Nat} (kvs : Vec (Buffer × GglObject) count),
        kvs.items.length + rows.length ≤ count → ∀ alloc left,
          bumpAllocator.allocAll alloc (pairRequests true pairs) = some left →
          readChildren read kvs rows alloc = (.ok (.map (kvs.items ++ pairs)), left) := by
  induction rows with
  | nil =>
    refine ⟨[], List.Forall₂.nil, fun kvs _ alloc left granted => ?_⟩
    cases granted
    simp [readChildren]
  | cons row rows ih =>
    obtain ⟨childKeyId, childKeyName⟩ := row
    obtain ⟨object, reads, delivers⟩ := readable _ mem_cons_self
    obtain ⟨pairs, childPairs, rest⟩ :=
      ih fun other member => readable other (mem_cons_of_mem _ member)
    refine ⟨(childKeyName, object) :: pairs,
      List.Forall₂.cons ⟨rfl, reads⟩ childPairs, ?_⟩
    intro count kvs fits alloc left granted
    rw [pairRequests] at granted
    obtain ⟨named, key, others⟩ := GglAlloc.allocAll_append granted
    obtain ⟨after, value, last⟩ := GglAlloc.allocAll_append others
    have allocated : gglAllocn 64 alloc 1 1 childKeyName.length = some named := by
      rw [gglAllocn_eq_alloc, Nat.mul_one]
      exact (bumpAllocator.allocAll_singleton alloc _).symm.trans key
    rw [length_cons] at fits
    have space : kvs.items.length < count := by omega
    obtain ⟨next, pushed, nextItems⟩ :
        ∃ next, gglKvVecPush kvs (childKeyName, object) = .ok next ∧
          next.items = kvs.items ++ [(childKeyName, object)] :=
      ⟨_, Vec.push_of_lt _ space, rfl⟩
    have nextFits : next.items.length + rows.length ≤ count := by
      rw [nextItems, length_append, length_singleton]
      omega
    simp only [readChildren, allocated, delivers named after value, pushed]
    rw [rest next nextFits after left last, nextItems, append_assoc]
    rfl

section

variable (childPairs : ChildPairs database rows pairs)

include childPairs

theorem ChildPairs.length_eq : pairs.length = rows.length :=
  (List.Forall₂.length_eq childPairs).symm

theorem ChildPairs.keys_eq : pairs.map Prod.fst = rows.map Prod.snd := by
  induction childPairs with
  | nil => rfl
  | cons related _ ih => rw [map_cons, map_cons, related.1, ih]

theorem ChildPairs.wellNested : GglObject.PairsWellNested pairs := by
  induction childPairs with
  | nil => trivial
  | cons related _ ih => exact ⟨related.2.wellNested, ih⟩

theorem ChildPairs.mem_leaves_iff (path : List Buffer) (leaf : GglObject) :
    (path, leaf) ∈ pairsLeaves pairs ↔
      ∃ keyid key rest value timeStamp target, (keyid, key) ∈ rows ∧ path = key :: rest ∧
        leaf = .buf value ∧ database.forest.Path (some keyid) rest (some target) ∧
        ⟨target, value, timeStamp⟩ ∈ database.valueTable := by
  induction childPairs with
  | nil => simp [pairsLeaves]
  | @cons row pair rows pairs related _ ih =>
    obtain ⟨keyid, key⟩ := row
    obtain ⟨pairKey, object⟩ := pair
    obtain ⟨rfl, reads⟩ := related
    rw [pairsLeaves, mem_append, ih, mem_map]
    constructor
    · rintro (⟨⟨rest, found⟩, member, equal⟩ |
        ⟨other, name, rest, value, timeStamp, target, member, tail⟩)
      · obtain ⟨value, timeStamp, target, rfl, reached, stored⟩ :=
          (reads.mem_leaves_iff rest found).mp member
        obtain ⟨rfl, rfl⟩ := equal
        exact ⟨keyid, pairKey, rest, value, timeStamp, target, mem_cons_self, rfl, rfl,
          reached, stored⟩
      · exact ⟨other, name, rest, value, timeStamp, target,
          mem_cons_of_mem _ member, tail⟩
    · rintro ⟨other, name, rest, value, timeStamp, target, member, rfl, rfl, reached, stored⟩
      rcases mem_cons.mp member with same | old
      · obtain ⟨rfl, rfl⟩ := same
        exact .inl ⟨(rest, .buf value), (reads.mem_leaves_iff rest _).mpr
          ⟨value, timeStamp, target, rfl, reached, stored⟩, rfl⟩
      · exact .inr ⟨other, name, rest, value, timeStamp, target, old, rfl, rfl, reached,
          stored⟩

end

/-- The pairs of all children are what the key itself reads as. -/
theorem ChildPairs.reads (wf : database.Wf) {keyid : Nat} (vacant : ¬database.Holds keyid)
    (parent : database.getChildren keyid ≠ [])
    (childPairs : ChildPairs database (database.getChildren keyid) pairs) :
    database.Reads keyid (.map pairs) where
  wellNested := by
    refine ⟨?_, ?_, childPairs.wellNested⟩
    · rintro rfl
      exact parent (eq_nil_of_length_eq_zero childPairs.length_eq.symm)
    · rw [childPairs.keys_eq]
      exact wf.siblings_distinct keyid
  mem_leaves_iff rest leaf := by
    rw [leaves, childPairs.mem_leaves_iff]
    constructor
    · rintro ⟨child, key, rest, value, timeStamp, target, member, rfl, rfl, reached, stored⟩
      exact ⟨value, timeStamp, target, rfl,
        Forest.Path.cons (mem_getChildren_iff.mp member) reached, stored⟩
    · rintro ⟨value, timeStamp, target, rfl, reached, stored⟩
      cases rest with
      | nil =>
        obtain rfl := Option.some.inj (Forest.path_nil_iff.mp reached)
        exact absurd (holds_of_mem stored) vacant
      | cons key rest =>
        obtain ⟨next, child, below⟩ := Forest.path_cons_iff.mp reached
        exact ⟨next, key, rest, value, timeStamp, target,
          mem_getChildren_iff.mpr child, rfl, rfl, below, stored⟩

/-! ## The recursion -/

/-- `read_key_recursive` delivers what its key reads as, the remaining key ids
being fuel enough. -/
theorem readKeyRecursive_delivers (inv : database.Inv) {fault : Fault} {keyid fuel : Nat}
    {name : Buffer} (labelled : database.forest.label keyid name)
    (clear : database.Clear fault keyid) (enough : database.sequence < keyid + fuel) :
    ∃ object, database.Reads keyid object ∧
      Delivers (readKeyRecursive fault database fuel keyid) object := by
  induction fuel generalizing keyid name with
  | zero =>
    have issued := (inv.label_issued labelled).2
    omega
  | succ fuel ih =>
    obtain ⟨presentClear, valueClear, rowsClear⟩ := clear [] keyid (Forest.Path.nil _)
    rcases valueIsPresentForKey_of_clear database presentClear
        (inv.label_issued labelled).1 with ⟨holds, present⟩ | ⟨vacant, present⟩
    · obtain ⟨value, timeStamp, member⟩ := holds.exists_row
      refine ⟨.buf value, inv.reads_value member, ?_⟩
      intro alloc left granted
      simp only [readKeyRecursive, present]
      exact readValueAtKey_delivers inv.toWf member valueClear alloc left granted
    · have parent : database.getChildren keyid ≠ [] := by
        intro childless
        refine vacant (inv.complete keyid name labelled fun child edge => ?_)
        obtain ⟨⟨childName, childLabelled⟩, _⟩ := inv.forest.edge_labelled edge
        have member : (child, childName) ∈ database.getChildren keyid :=
          mem_getChildren_iff.mpr ⟨childLabelled, edge⟩
        rw [childless] at member
        cases member
      have readable : ∀ row ∈ database.getChildren keyid, ∃ object,
          database.Reads row.1 object ∧
            Delivers (readKeyRecursive fault database fuel row.1) object := by
        rintro ⟨child, childName⟩ member
        have below := mem_getChildren_iff.mp member
        have later := inv.forest.edge_lt below.2
        exact ih below.1 (fun rest target path => clear _ target (.cons below path)) (by omega)
      obtain ⟨pairs, childPairs, delivers⟩ := readChildren_delivers readable
      have counted := childPairs.length_eq
      refine ⟨.map pairs, childPairs.reads inv.toWf vacant parent, ?_⟩
      intro alloc left granted
      rw [requests, counted] at granted
      obtain ⟨taken, array, rest⟩ := GglAlloc.allocAll_append granted
      have allocated : gglAllocn 64 alloc kvSize kvAlign (database.getChildren keyid).length =
          some taken := by
        obtain ⟨more, length⟩ := Nat.exists_eq_succ_of_ne_zero (mt length_eq_zero_iff.mp parent)
        rw [length] at array ⊢
        rw [gglAllocn_eq_alloc]
        exact (bumpAllocator.allocAll_singleton alloc _).symm.trans array
      have countClear : ∀ row < (database.getChildren keyid).length,
          fault (.countChildren keyid (0 + row)) = false := by
        intro row inside
        rw [Nat.zero_add]
        exact (rowsClear row inside).1
      have childClear : ∀ row < (database.getChildren keyid).length,
          fault (.getChildren keyid (0 + row)) = false := by
        intro row inside
        rw [Nat.zero_add]
        exact (rowsClear row inside).2
      simp only [readKeyRecursive, present, stepRows_of_clear countClear,
        stepRows_of_clear childClear, allocated]
      rw [if_neg (mt length_eq_zero_iff.mp parent)]
      refine delivers (Vec.empty _ _) ?_ taken left rest
      rw [stepRows_of_clear countClear]
      exact Nat.le_of_eq (Nat.zero_add _)

/-! ## The read call -/

variable {daemon : Ggconfigd} {keyPath : List Buffer}

/-- Reading a path that does not exist. -/
theorem ggconfigGetValueFromKey_missing (isOpen : daemon.configInitialized = true)
    (wf : daemon.configDatabase.Wf) (short : keyPath.length ≤ maxObjectDepth) (memory : Nat)
    (nonempty : keyPath ≠ [])
    (absent : ∀ id, ¬daemon.configDatabase.forest.Path none keyPath (some id)) :
    ggconfigGetValueFromKey noFault daemon memory keyPath = .error .noentry := by
  have noTrail : ¬∃ ids, daemon.configDatabase.forest.Trail none keyPath ids := by
    rw [Forest.exists_trail_iff nonempty]
    exact not_exists.mpr absent
  rw [ggconfigGetValueFromKey, getValueFromKeyBy, if_neg (by simp [isOpen])]
  simp [getKeyIds_of_no_trail wf short noTrail]

/-- Once the ids of a path are found, its key is read. -/
theorem ggconfigGetValueFromKey_of_trail (isOpen : daemon.configInitialized = true)
    (inv : daemon.configDatabase.Inv) (nonempty : keyPath ≠ []) {fault : Fault}
    {ids : Vec Nat maxObjectDepth} (found : getKeyIds fault daemon.configDatabase keyPath = .ok ids)
    (trail : daemon.configDatabase.forest.Trail none keyPath ids.items)
    (clear : daemon.configDatabase.Clear fault (lastKeyId ids)) :
    ∃ object, daemon.configDatabase.Reads (lastKeyId ids) object ∧ ∀ memory left,
      bumpAllocator.allocAll (gglBumpAllocInit memory) (object.requests true) = some left →
        ggconfigGetValueFromKey fault daemon memory keyPath = .ok object := by
  obtain ⟨name, labelled⟩ := path_labelled (lastKeyId_of_trail nonempty trail)
  obtain ⟨object, reads, delivers⟩ :=
    @readKeyRecursive_delivers _ inv fault (lastKeyId ids) (daemon.configDatabase.sequence + 1) name
      labelled clear (by omega)
  refine ⟨object, reads, fun memory left granted => ?_⟩
  rw [ggconfigGetValueFromKey, getValueFromKeyBy, if_neg (by simp [isOpen])]
  simp only [found, delivers _ left granted]

/-- Reading a path that exists answers what its key reads as. -/
theorem ggconfigGetValueFromKey_reads (isOpen : daemon.configInitialized = true)
    (inv : daemon.configDatabase.Inv) (short : keyPath.length ≤ maxObjectDepth)
    (nonempty : keyPath ≠ []) {id : Nat}
    (reached : daemon.configDatabase.forest.Path none keyPath (some id)) :
    ∃ object, daemon.configDatabase.Reads id object ∧
      ∀ memory, readSize object ≤ memory → memory < 2 ^ 64 →
        ggconfigGetValueFromKey noFault daemon memory keyPath = .ok object := by
  obtain ⟨idList, trail⟩ := reached.exists_trail
  obtain ⟨ids, found, rfl⟩ := getKeyIds_of_trail inv.toWf short trail
  obtain ⟨object, reads, answers⟩ :=
    ggconfigGetValueFromKey_of_trail isOpen inv nonempty found trail fun _ _ _ => by simp [noFault]
  rw [(lastKeyId_of_trail nonempty trail).node_unique inv.forest reached] at reads
  refine ⟨object, reads, fun memory enough wide => ?_⟩
  have room : (gglBumpAllocInit memory).index + readSize object ≤ memory := by
    rwa [gglBumpAllocInit, Nat.zero_add]
  obtain ⟨left, granted, -⟩ := reads.modest (gglBumpAllocInit memory) wide room
  exact answers memory left granted

end GreengrassLite.Config

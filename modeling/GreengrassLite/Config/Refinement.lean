import GreengrassLite.Config.Read
import GreengrassLite.Library.PrefixMap

/-!
# The store refines a prefix-free map

Abstractly the configuration is a prefix-free map from key paths to a value
and its timestamp.  A daemon represents such a map when its tables store
exactly the entries of the map.  Every call keeps the representation and
answers what the map prescribes, so every history of the daemon is a history
of the map.
-/

namespace GreengrassLite.Config

open GreengrassLite.Library Ggconfigd PrefixMap

/-- The abstract configuration. -/
abbrev ConfigMap := PrefixMap Buffer (Buffer × Int)

/-- What the abstract configuration answers to a call. -/
inductive SpecReply where
  /-- Whether a write is accepted or a subscribed path exists. -/
  | done (accepted : Bool)
  /-- What a read path leads to. -/
  | reading (reading : Reading Buffer (Buffer × Int))

open scoped Classical in
/-- Serve one call on the abstract configuration. -/
noncomputable def specServe (map : ConfigMap) : Call → SpecReply × ConfigMap
  | .write keyPath value timestamp =>
    let outcome := map.write keyPath value timestamp
    (.done outcome.1, outcome.2)
  | .read keyPath _ => (.reading (map.read keyPath), map)
  | .subscribe keyPath _ =>
    (.done (decide (∃ rest, map.lookup (keyPath ++ rest) ≠ none)), map)

/-- Serve a history of calls on the abstract configuration. -/
noncomputable def specServeAll : ConfigMap → List Call → List SpecReply × ConfigMap
  | map, [] => ([], map)
  | map, call :: calls =>
    let served := specServe map call
    let rest := specServeAll served.2 calls
    (served.1 :: rest.1, rest.2)

/-- The pairs form the nested map of exactly these contents. -/
structure Nests (pairs : GglMap) (contents : List Buffer → Option (Buffer × Int)) : Prop where
  wellNested : (GglObject.map pairs).WellNested
  mem_leaves_iff : ∀ rest leaf, (rest, leaf) ∈ GglObject.pairsLeaves pairs ↔
    ∃ value timestamp, leaf = .buf value ∧ contents rest = some (value, timestamp)

/-- A read with `memory` bytes answers what the path leads to, provided the
answer fits. -/
def ReadAgrees (memory : Nat) (result : Except GglError GglObject) :
    Reading Buffer (Buffer × Int) → Prop
  | .value entry =>
    readSize (.buf entry.1) ≤ memory → memory < 2 ^ 64 → result = .ok (.buf entry.1)
  | .below contents =>
    ∃ pairs, Nests pairs contents ∧
      (readSize (.map pairs) ≤ memory → memory < 2 ^ 64 → result = .ok (.map pairs))
  | .missing => result = .error .noentry

/-- A reply is the one the abstract configuration prescribes. -/
def Agrees : Call → Reply → SpecReply → Prop
  | .write _ _ _, .done result, .done accepted =>
    result = if accepted then .ok () else .error .failure
  | .read _ memory, .value result, .reading reading => ReadAgrees memory result reading
  | .subscribe _ _, .done result, .done accepted =>
    result = if accepted then .ok () else .error .noentry
  | _, _, _ => False

/-- The tables store exactly the entries of the map. -/
def Ggconfigd.Represents (daemon : Ggconfigd) (map : ConfigMap) : Prop :=
  ∀ path value timestamp, map.lookup path = some (value, timestamp) ↔
    daemon.configDatabase.Stored path value timestamp

theorem represents_opened :
    opened.Represents (empty Buffer (Buffer × Int)) := by
  intro path value timestamp
  simp [opened, Database.Stored, Database.created]

variable {daemon : Ggconfigd} {map : ConfigMap} {keyPath : List Buffer}

theorem Ggconfigd.Represents.exists_stored (represents : daemon.Represents map)
    (stored : map.lookup keyPath ≠ none) :
    ∃ value timestamp, daemon.configDatabase.Stored keyPath value timestamp := by
  obtain ⟨⟨value, timestamp⟩, found⟩ := Option.ne_none_iff_exists'.mp stored
  exact ⟨value, timestamp, (represents keyPath value timestamp).mp found⟩

theorem Ggconfigd.Represents.ne_none (represents : daemon.Represents map) {value : Buffer}
    {timestamp : Int} (stored : daemon.configDatabase.Stored keyPath value timestamp) :
    map.lookup keyPath ≠ none := by
  rw [(represents keyPath value timestamp).mpr stored]
  simp

/-- A path exists in the tables exactly when something is stored at or below
it. -/
theorem Ggconfigd.Represents.exists_path_iff (represents : daemon.Represents map)
    (inv : daemon.configDatabase.Inv) (nonempty : keyPath ≠ []) :
    (∃ id, daemon.configDatabase.forest.Path none keyPath (some id)) ↔
      ∃ rest, map.lookup (keyPath ++ rest) ≠ none := by
  constructor
  · rintro ⟨id, reached⟩
    obtain ⟨rest, value, timestamp, stored⟩ := inv.exists_stored reached
    exact ⟨rest, represents.ne_none stored⟩
  · rintro ⟨rest, stored⟩
    obtain ⟨value, timestamp, id, reached, _⟩ := represents.exists_stored stored
    exact reached.exists_prefix nonempty

/-! ## Writing -/

variable {value : Buffer} {timestamp : Int}

/-- On a path that creation found free, nothing conflicts. -/
theorem Ggconfigd.Represents.not_conflict (represents : daemon.Represents map)
    (inv : daemon.configDatabase.Inv) (nonempty : keyPath ≠ []) {created : Database}
    {ids : Vec Nat maxObjectDepth}
    (absent : ∀ id, ¬daemon.configDatabase.forest.Path none keyPath (some id))
    (createdWf : created.Wf) (grown : Grown daemon.configDatabase created keyPath)
    (trail : created.forest.Trail none keyPath ids.items) : ¬map.Conflict keyPath := by
  rintro ⟨other, stored, isPrefix | ⟨rest, rfl⟩, different⟩
  · obtain ⟨rest, rfl⟩ := isPrefix
    obtain ⟨otherValue, otherTime, id, reached, member⟩ := represents.exists_stored stored
    have restNonempty : rest ≠ [] := by
      rintro rfl
      simp at different
    refine createdWf.not_holds_of_longer (grown.keep _ _ reached) trail.path restNonempty ?_
    exact grown.holds_iff.mpr (Database.holds_of_mem member)
  · obtain ⟨id, reached⟩ := (represents.exists_path_iff inv nonempty).mpr ⟨rest, stored⟩
    exact absent id reached

/-- Tables in which one path stores another value represent the changed map. -/
theorem Ggconfigd.Represents.set {final : Ggconfigd} (represents : daemon.Represents map)
    (compatible : ¬map.Conflict keyPath)
    (stored : ∀ {path pathValue pathTime},
      final.configDatabase.Stored path pathValue pathTime ↔
        (path ≠ keyPath ∧ daemon.configDatabase.Stored path pathValue pathTime) ∨
          (path = keyPath ∧ pathValue = value ∧ pathTime = timestamp)) :
    final.Represents (map.set keyPath (value, timestamp) compatible) := by
  intro path pathValue pathTime
  rw [stored]
  by_cases here : path = keyPath
  · subst here
    simp [eq_comm]
  · rw [lookup_set_of_ne here, represents]
    simp [here]

variable {outcome : Except GglError Unit × Ggconfigd}

/-- A write keeps the representation and answers as prescribed. -/
theorem Written.refines (written : Written daemon keyPath value timestamp outcome)
    (represents : daemon.Represents map) (inv : daemon.configDatabase.Inv)
    (nonempty : keyPath ≠ []) :
    (outcome.1 = if (map.write keyPath value timestamp).1 then .ok () else .error .failure) ∧
      outcome.2.Represents (map.write keyPath value timestamp).2 := by
  cases written with
  | @inserted created ids absent createdWf grown trail =>
    have compatible := represents.not_conflict inv nonempty absent createdWf grown trail
    have unstored : ∀ storedValue storedTime,
        map.lookup keyPath = some (storedValue, storedTime) → storedTime ≤ timestamp := by
      intro storedValue storedTime found
      obtain ⟨id, reached, _⟩ := (represents _ _ _).mp found
      exact absurd reached (absent id)
    rw [write_of_not_newer value compatible unstored]
    exact ⟨rfl, represents.set compatible
      (grown.stored_withValue_iff inv.toWf createdWf nonempty absent trail)⟩
  | @valueAbove path id absent isPrefix reached holds =>
    obtain ⟨storedValue, storedTime, member⟩ := holds.exists_row
    have conflict : map.Conflict keyPath := by
      refine ⟨path, represents.ne_none ⟨id, reached, member⟩, .inl isPrefix, ?_⟩
      rintro rfl
      exact absent id reached
    rw [write_of_conflict value timestamp conflict]
    exact ⟨rfl, represents⟩
  | @childBelow id child reached edge =>
    obtain ⟨name, childPath⟩ := reached.exists_below inv.forest edge
    obtain ⟨rest, storedValue, storedTime, stored⟩ := inv.exists_stored childPath
    have conflict : map.Conflict keyPath :=
      ⟨_, represents.ne_none stored, .inr ⟨[name] ++ rest, by simp⟩, by simp⟩
    rw [write_of_conflict value timestamp conflict]
    exact ⟨rfl, represents⟩
  | @valueless id reached childless vacant =>
    obtain ⟨name, labelled⟩ := Database.path_labelled reached
    exact absurd (inv.complete id name labelled childless) vacant
  | @stale id existing existingTimestamp reached member newer =>
    have found := (represents _ _ _).mpr ⟨id, reached, member⟩
    rw [write_of_newer value found newer]
    exact ⟨rfl, represents⟩
  | @updated ids existing existingTimestamp trail member notNewer =>
    have reached := lastKeyId_of_trail nonempty trail
    have stored : daemon.configDatabase.Stored keyPath existing existingTimestamp :=
      ⟨_, reached, member⟩
    have compatible := not_conflict_of_stored (represents.ne_none stored)
    have unnewer : ∀ storedValue storedTime,
        map.lookup keyPath = some (storedValue, storedTime) → storedTime ≤ timestamp := by
      intro storedValue storedTime found
      have sameTime := (stored.unique inv.toWf ((represents _ _ _).mp found)).2
      omega
    rw [write_of_not_newer value compatible unnewer]
    exact ⟨rfl, represents.set compatible
      (stored_valueUpdate_iff inv.toWf reached (Database.holds_of_mem member))⟩

/-! ## Reading -/

/-- The leaves of what a key reads as are the entries below its path. -/
theorem Ggconfigd.Represents.mem_leaves_iff (represents : daemon.Represents map)
    (wf : daemon.configDatabase.Wf) {id : Nat} {object : GglObject}
    (reached : daemon.configDatabase.forest.Path none keyPath (some id))
    (reads : daemon.configDatabase.Reads id object) (rest : List Buffer) (leaf : GglObject) :
    (rest, leaf) ∈ object.leaves ↔
      ∃ value timestamp, leaf = .buf value ∧
        map.lookup (keyPath ++ rest) = some (value, timestamp) := by
  rw [reads.mem_leaves_iff]
  constructor
  · rintro ⟨value, timestamp, target, rfl, below, member⟩
    exact ⟨value, timestamp, rfl, (represents _ _ _).mpr
      ⟨target, (reached.append_iff wf.forest).mpr below, member⟩⟩
  · rintro ⟨value, timestamp, rfl, found⟩
    obtain ⟨target, targetPath, member⟩ := (represents _ _ _).mp found
    exact ⟨value, timestamp, target, rfl, (reached.append_iff wf.forest).mp targetPath,
      member⟩

/-- A read answers what the path leads to. -/
theorem Ggconfigd.Represents.read_agrees (represents : daemon.Represents map)
    (inv : daemon.Inv) (nonempty : keyPath ≠ []) (short : keyPath.length ≤ maxObjectDepth)
    (memory : Nat) :
    ReadAgrees memory (ggconfigGetValueFromKey noFault daemon memory keyPath)
      (map.read keyPath) := by
  have pathIff := represents.exists_path_iff inv.tables nonempty
  rw [PrefixMap.read]
  cases found : map.lookup keyPath with
  | some entry =>
    obtain ⟨value, timestamp⟩ := entry
    obtain ⟨id, reached, _⟩ := (represents _ _ _).mp found
    obtain ⟨object, reads, answers⟩ :=
      ggconfigGetValueFromKey_reads inv.isOpen inv.tables short nonempty reached
    have isLeaf : ([], GglObject.buf value) ∈ object.leaves :=
      (represents.mem_leaves_iff inv.tables.toWf reached reads [] _).mpr
        ⟨value, timestamp, rfl, by simpa using found⟩
    obtain rfl := GglObject.eq_of_nil_mem_leaves isLeaf
    exact answers memory
  | none =>
    by_cases below : ∃ rest, map.lookup (keyPath ++ rest) ≠ none
    · simp only [if_pos below]
      obtain ⟨id, reached⟩ := pathIff.mpr below
      obtain ⟨object, reads, answers⟩ :=
        ggconfigGetValueFromKey_reads inv.isOpen inv.tables short nonempty reached
      have leavesIff := represents.mem_leaves_iff inv.tables.toWf reached reads
      cases object using GglObject.map_cases with
      | leaf object isLeaf =>
        have self := (leavesIff [] object).mp (by
          rw [GglObject.leaves_of_not_map isLeaf]
          exact List.mem_cons_self)
        obtain ⟨value, timestamp, _, stored⟩ := self
        rw [List.append_nil, found] at stored
        cases stored
      | map pairs => exact ⟨pairs, ⟨reads.wellNested, leavesIff⟩, answers memory⟩
    · simp only [if_neg below]
      refine ggconfigGetValueFromKey_missing inv.isOpen inv.tables.toWf short memory nonempty
        fun id reached => below (pathIff.mp ⟨id, reached⟩)

/-! ## Whole histories -/

/-- Subscribing answers whether the path exists and changes no entry. -/
theorem Subscribed.refines {handle : UInt32}
    (subscribed : Subscribed daemon keyPath handle outcome) (represents : daemon.Represents map)
    (inv : daemon.configDatabase.Inv) (nonempty : keyPath ≠ []) :
    Agrees (.subscribe keyPath handle) (.done outcome.1)
        (specServe map (.subscribe keyPath handle)).1 ∧
      outcome.2.Represents map := by
  have pathIff := represents.exists_path_iff inv nonempty
  cases subscribed with
  | @added id reached =>
    refine ⟨?_, represents⟩
    simp [specServe, Agrees, pathIff.mp ⟨id, reached⟩]
  | missing absent =>
    refine ⟨?_, represents⟩
    have nothing : ¬∃ rest, map.lookup (keyPath ++ rest) ≠ none := by
      intro stored
      obtain ⟨id, reached⟩ := pathIff.mpr stored
      exact absent id reached
    simp [specServe, Agrees, nothing]

/-- One call of the daemon is one call of the abstract configuration. -/
theorem serve_refines (represents : daemon.Represents map) (inv : daemon.Inv) {call : Call}
    (valid : call.Valid) :
    Agrees call (serve daemon call).1 (specServe map call).1 ∧
      (serve daemon call).2.Represents (specServe map call).2 := by
  obtain ⟨nonempty, short⟩ := valid
  cases call with
  | write keyPath value timestamp =>
    exact (ggconfigWriteValueAtKey_written inv.isOpen inv.tables.toWf nonempty short).refines
      represents inv.tables nonempty
  | read keyPath memory =>
    exact ⟨represents.read_agrees inv nonempty short memory, represents⟩
  | subscribe keyPath handle =>
    exact (ggconfigGetKeyNotification_subscribed inv.isOpen inv.tables.toWf nonempty short
      handle).refines represents inv.tables nonempty

/-- A history of the daemon from a represented map is a history of the map. -/
theorem serveAll_refines_from (represents : daemon.Represents map) (inv : daemon.Inv)
    {calls : List Call} (valid : ∀ call ∈ calls, call.Valid) :
    List.Forall₂ (fun call replies => Agrees call replies.1 replies.2) calls
        ((serveAll daemon calls).1.zip (specServeAll map calls).1) ∧
      (serveAll daemon calls).2.Represents (specServeAll map calls).2 := by
  induction calls generalizing daemon map with
  | nil => exact ⟨List.Forall₂.nil, represents⟩
  | cons call calls ih =>
    have callValid := valid call List.mem_cons_self
    obtain ⟨agrees, servedRepresents⟩ := serve_refines represents inv callValid
    obtain ⟨restAgrees, restRepresents⟩ := ih servedRepresents (serve_inv inv callValid)
      fun other member => valid other (List.mem_cons_of_mem call member)
    exact ⟨List.Forall₂.cons agrees restAgrees, restRepresents⟩

/-- A history of reads and writes on a new database is a history of the prefix-free map: each
reply is the prescribed one, and the tables store exactly the entries of the map.  It is one
exactly if every path can be printed. -/
theorem serveAll_refines (calls : List Call) (valid : ∀ call ∈ calls, call.Valid)
    (accesses : ∀ call ∈ calls, call.isAccess = true) :
    (∃ run, serveAllLogged opened calls = some run ∧
      List.Forall₂ (fun call replies => Agrees call replies.1 replies.2) calls
        (run.1.zip (specServeAll (empty Buffer (Buffer × Int)) calls).1) ∧
      run.2.Represents (specServeAll (empty Buffer (Buffer × Int)) calls).2) ↔
    ∀ call ∈ calls, Printable call.keyPath := by
  have refines := serveAll_refines_from represents_opened inv_opened valid
  rw [serveAllLogged_accesses inv_opened valid accesses]
  constructor
  · rintro ⟨run, served, -⟩
    by_contra unprintable
    rw [if_neg unprintable] at served
    cases served
  · intro printable
    exact ⟨_, if_pos printable, refines⟩

/-- Nested writes, a rejected write and reads of a value, of a map and of a
missing path. -/
theorem serveAll_refines_nested :
    let calls := nestedCalls.take 3 ++
      [.read [gglStr "a"] 4096, .read [gglStr "a", gglStr "b"] 4096, .read [gglStr "d"] 4096]
    ∃ run, serveAllLogged opened calls = some run ∧
      List.Forall₂ (fun call replies => Agrees call replies.1 replies.2) calls
        (run.1.zip (specServeAll (empty Buffer (Buffer × Int)) calls).1) ∧
      run.2.Represents (specServeAll (empty Buffer (Buffer × Int)) calls).2 :=
  (serveAll_refines _ (by decide) (by decide)).mpr (by decide)

/-- Two keys that fit the string of a log line one by one, but not together. -/
def longPath : List Buffer :=
  [List.replicate 600 97, List.replicate 600 97]

theorem not_printable_longPath : ¬Printable longPath := by
  decide +kernel

theorem serveAllLogged_longPath (value : Buffer) (timestamp : Int) :
    serveAllLogged opened [.write longPath value timestamp] = none := by
  have valid : (Call.write longPath value timestamp).Valid :=
    ⟨List.cons_ne_nil _ _, (by decide : 2 ≤ maxObjectDepth)⟩
  rw [serveAllLogged_accesses inv_opened (List.forall_mem_singleton.mpr valid)
    (List.forall_mem_singleton.mpr rfl)]
  refine if_neg fun printable => not_printable_longPath ?_
  exact printable (.write longPath value timestamp) List.mem_cons_self

/-- The daemon ends at the log line of a write that the map accepts. -/
theorem long_path_not_served :
    serveAllLogged opened [.write longPath (gglStr "1") 5] = none ∧
      (specServe (empty Buffer (Buffer × Int)) (.write longPath (gglStr "1") 5)).1 =
        .done true := by
  have free : ¬(empty Buffer (Buffer × Int)).Conflict longPath := by
    rintro ⟨path, stored, -⟩
    exact stored rfl
  exact ⟨serveAllLogged_longPath _ _, by simp [specServe, PrefixMap.write, free]⟩

end GreengrassLite.Config

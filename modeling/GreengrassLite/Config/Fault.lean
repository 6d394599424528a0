import GreengrassLite.Config.Write

/-!
# Failing statements

A failing statement turns the answer of its function into `GGL_ERR_FAILURE`
and otherwise changes nothing.  Lookup and path creation therefore either run
as without faults or fail, and creation succeeds only if none of the statements
it runs fails.
-/

namespace GreengrassLite.Config

open GreengrassLite.Library List Forest

variable {fault : Fault}

/-! ## Lookup -/

@[simp]
theorem getKeyIdsLoop_cons_of_fault {index : Nat} (fails : fault (.findElement index) = true)
    (key : Buffer) (keys : List Buffer) (rows : List Nat) (keyIds : Vec Nat maxObjectDepth) :
    getKeyIdsLoop fault index (key :: keys) rows keyIds = .error .failure := by
  cases rows <;> simp [getKeyIdsLoop, fails]

theorem getKeyIdsLoop_fault (index : Nat) (keys : List Buffer) (rows : List Nat)
    (keyIds : Vec Nat maxObjectDepth) :
    getKeyIdsLoop fault index keys rows keyIds = getKeyIdsLoop noFault index keys rows keyIds ∨
      getKeyIdsLoop fault index keys rows keyIds = .error .failure := by
  induction keys generalizing index rows keyIds with
  | nil => exact .inl rfl
  | cons key keys ih =>
    cases fails : fault (.findElement index) with
    | true => exact .inr (getKeyIdsLoop_cons_of_fault fails key keys rows keyIds)
    | false =>
      cases rows with
      | nil =>
        left
        simp [getKeyIdsLoop, fails, noFault]
      | cons id rows =>
        simpa [getKeyIdsLoop, fails, noFault] using ih (index + 1) rows _

/-- A lookup that may fail either answers as usual or fails. -/
theorem getKeyIds_fault (database : Database) (keyPath : List Buffer) :
    getKeyIds fault database keyPath = getKeyIds noFault database keyPath ∨
      getKeyIds fault database keyPath = .error .failure :=
  getKeyIdsLoop_fault 0 keyPath _ _

theorem getKeyIdsLoop_eq_noentry_iff (index : Nat) (keys : List Buffer) (rows : List Nat)
    (keyIds : Vec Nat maxObjectDepth) :
    getKeyIdsLoop fault index keys rows keyIds = .error .noentry ↔
      rows.length < keys.length ∧
        ∀ step ≤ rows.length, fault (.findElement (index + step)) = false := by
  induction keys generalizing index rows keyIds with
  | nil => simp [getKeyIdsLoop]
  | cons key keys ih =>
    cases fails : fault (.findElement index) with
    | true =>
      rw [getKeyIdsLoop_cons_of_fault fails]
      simp only [Except.error.injEq, reduceCtorEq, false_iff, not_and]
      intro _ clear
      have here := clear 0 (Nat.zero_le _)
      rw [Nat.add_zero, fails] at here
      cases here
    | false =>
      cases rows with
      | nil => simp [getKeyIdsLoop, fails]
      | cons id rows =>
        rw [getKeyIdsLoop, if_neg (by simp [fails]), ih, length_cons, length_cons,
          Nat.succ_lt_succ_iff]
        refine and_congr_right fun _ => ?_
        constructor
        · intro clear step bound
          cases step with
          | zero => exact fails
          | succ step =>
            have next := clear step (by omega)
            rwa [Nat.add_right_comm, Nat.add_assoc] at next
        · intro clear step bound
          have next := clear (step + 1) (by omega)
          rwa [← Nat.add_assoc, Nat.add_right_comm] at next

/-! ## Creation -/

/-- No statement fails that runs for one key of a path. -/
def KeyClear (fault : Fault) (database : Database) (index : Nat) (key : Buffer) :
    Option Nat → Prop
  | none => fault .getRootKey = false ∧
      (database.getRootKey key = [] → fault (.keyInsert 0) = false) ∧
      fault (.valuePresent index) = false
  | some parentid => fault (.getKeyWithParent index) = false ∧
      (database.getKeyWithParent key parentid ≠ [] → fault (.valuePresent index) = false) ∧
      (database.getKeyWithParent key parentid = [] →
        fault (.keyInsert index) = false ∧ fault (.insertRelation index) = false)

/-- A round of creation runs as usual if no statement of it fails, and fails otherwise. -/
theorem createKey_fault (index : Nat) (database : Database) (key : Buffer)
    (parent : Option Nat) :
    (KeyClear fault database index key parent →
        createKey fault index database key parent = createKey noFault index database key parent) ∧
      (¬KeyClear fault database index key parent →
        createKey fault index database key parent = .error .failure) := by
  cases parent with
  | none =>
    rw [KeyClear, createKey, createKey, getOrCreateKeyAtRoot, getOrCreateKeyAtRoot]
    cases database.getRootKey key <;> cases rootFails : fault .getRootKey <;>
      cases insertFails : fault (.keyInsert 0) <;>
      cases presentFails : fault (.valuePresent index) <;>
      simp [execute, keyInsert, vacantKey, valueIsPresentForKey, bind, Except.bind, noFault, *]
  | some parentid =>
    rw [KeyClear, createKey, createKey, findKeyWithParent, findKeyWithParent]
    cases database.getKeyWithParent key parentid <;>
      cases findFails : fault (.getKeyWithParent index) <;>
      cases insertFails : fault (.keyInsert index) <;>
      cases relationFails : fault (.insertRelation index) <;>
      cases presentFails : fault (.valuePresent index) <;>
      simp [execute, keyInsert, relationInsert, vacantKey, valueIsPresentForKey, bind, Except.bind,
        noFault, *]

/-- Creation that may fail either runs as usual or fails. -/
theorem createFrom_fault (database : Database) (parent : Option Nat) (index : Nat)
    (ids : Vec Nat maxObjectDepth) (keys : List Buffer) :
    createFrom fault database parent index ids keys =
        createFrom noFault database parent index ids keys ∨
      createFrom fault database parent index ids keys = .error .failure := by
  induction keys generalizing database parent index ids with
  | nil => exact .inl rfl
  | cons key keys ih =>
    rw [createFrom, createFrom]
    by_cases clear : KeyClear fault database index key parent
    · rw [(createKey_fault index database key parent).1 clear]
      rcases createKey noFault index database key parent with _ | next
      · exact .inl rfl
      · exact ih ..
    · rw [(createKey_fault index database key parent).2 clear]
      exact .inr rfl

@[inherit_doc createFrom_fault]
theorem createKeyPath_fault (database : Database) (keyPath : List Buffer) :
    createKeyPath fault database keyPath = createKeyPath noFault database keyPath ∨
      createKeyPath fault database keyPath = .error .failure := by
  by_cases nonempty : keyPath = []
  · rw [nonempty]
    exact .inl rfl
  · rw [createKeyPath_eq fault database nonempty, createKeyPath_eq noFault database nonempty]
    exact createFrom_fault ..

/-! ## The statements creation runs -/

/-- No statement fails that the loop of `create_key_path` runs for `keys` below
the existing path `base`, the first of them having this index. -/
def LoopClear (fault : Fault) (database : Database) (base : List Buffer) (index : Nat)
    (keys : List Buffer) : Prop :=
  ∀ step < keys.length,
    fault (.getKeyWithParent (index + step)) = false ∧
      (database.Has (base ++ keys.take (step + 1)) →
        fault (.valuePresent (index + step)) = false) ∧
      (¬database.Has (base ++ keys.take (step + 1)) →
        fault (.keyInsert (index + step)) = false ∧
          fault (.insertRelation (index + step)) = false)

variable {database : Database} {base keys : List Buffer} {key : Buffer} {index : Nat}

@[simp]
theorem loopClear_cons_iff :
    LoopClear fault database base index (key :: keys) ↔
      (fault (.getKeyWithParent index) = false ∧
        (database.Has (base ++ [key]) → fault (.valuePresent index) = false) ∧
        (¬database.Has (base ++ [key]) →
          fault (.keyInsert index) = false ∧ fault (.insertRelation index) = false)) ∧
      LoopClear fault database (base ++ [key]) (index + 1) keys := by
  constructor
  · intro clear
    refine ⟨by simpa using clear 0 (by simp), fun step bound => ?_⟩
    have next := clear (step + 1) (by simpa using bound)
    simpa [take_succ_cons, Nat.add_assoc, Nat.add_comm 1] using next
  · rintro ⟨here, rest⟩ step bound
    cases step with
    | zero => simpa using here
    | succ step =>
      have next := rest step (by simpa using bound)
      simpa [take_succ_cons, Nat.add_assoc, Nat.add_comm 1] using next

/-- Below a missing key nothing exists, before and after it is added. -/
theorem loopClear_addKey_iff (wf : database.Wf) {parent : Option Nat}
    (parentPath : database.forest.Path none base parent)
    (nextWf : (database.addKey key parent).Wf)
    (absent : ∀ id, ¬database.forest.Child parent key id) :
    LoopClear fault (database.addKey key parent) (base ++ [key]) index keys ↔
      LoopClear fault database (base ++ [key]) index keys := by
  have before : ∀ rest, ¬database.Has (base ++ [key] ++ rest) := by
    intro rest has
    obtain ⟨id, reached⟩ := has.elim fun _ path => path.exists_prefix (by simp)
    exact absent id (reached.last_child wf.forest parentPath)
  have after : ∀ step < keys.length,
      ¬(database.addKey key parent).Has (base ++ [key] ++ keys.take (step + 1)) := by
    rintro step bound ⟨id, reached⟩
    have below := ((path_addKey wf parentPath).append_iff nextWf.forest).mp reached
    cases keys with
    | nil => simp at bound
    | cons next keys =>
      obtain ⟨child, isChild, _⟩ := path_cons_iff.mp below
      exact no_child_addKey wf parentPath next child isChild
  refine forall_congr' fun step => forall_congr' fun bound => ?_
  rw [iff_of_false (after step bound) (before (keys.take (step + 1)))]

section Clear

variable {parent : Option Nat} {ids : Vec Nat maxObjectDepth} (wf : database.Wf)
  (parentPath : database.forest.Path none base parent)
  (vacant : ∀ parentid, parent = some parentid → ¬database.Holds parentid)

include wf parentPath

theorem has_concat_iff :
    database.Has (base ++ [key]) ↔ database.childRows key parent ≠ [] := by
  constructor
  · rintro ⟨id, reached⟩
    exact ne_nil_of_mem (Database.mem_childRows_iff.mpr (reached.last_child wf.forest parentPath))
  · intro rows
    obtain ⟨id, member⟩ := exists_mem_of_ne_nil _ rows
    exact ⟨id, parentPath.snoc (Database.mem_childRows_iff.mp member)⟩

include vacant

/-- One key and those below it: creation runs as without faults if no statement fails, and
succeeds only then. -/
theorem createFrom_cons_clear
    (later : ∀ {next id}, next.Wf → next.forest.Path none (base ++ [key]) (some id) →
      ¬next.Holds id →
      (LoopClear fault next (base ++ [key]) (index + 1) keys →
        createFrom fault next (some id) (index + 1) (ids.keep (gglObjVecPush ids id)) keys =
          createFrom noFault next (some id) (index + 1) (ids.keep (gglObjVecPush ids id)) keys) ∧
      ∀ result, createFrom fault next (some id) (index + 1) (ids.keep (gglObjVecPush ids id)) keys =
          .ok result → LoopClear fault next (base ++ [key]) (index + 1) keys) :
    (KeyClear fault database index key parent ∧
          LoopClear fault database (base ++ [key]) (index + 1) keys →
        createFrom fault database parent index ids (key :: keys) =
          createFrom noFault database parent index ids (key :: keys)) ∧
      ∀ result, createFrom fault database parent index ids (key :: keys) = .ok result →
        KeyClear fault database index key parent ∧
          LoopClear fault database (base ++ [key]) (index + 1) keys := by
  rw [createFrom, createFrom]
  by_cases clear : KeyClear fault database index key parent
  · rw [(createKey_fault index database key parent).1 clear, and_iff_right clear]
    rcases createKey_noFault wf index parentPath vacant key with
      ⟨id, child, ⟨holds, failed⟩ | ⟨idVacant, found⟩⟩ | ⟨absent, nextWf, added⟩
    · rw [failed]
      exact ⟨fun _ => rfl, by rintro _ ⟨⟩⟩
    · rw [found]
      exact later wf (parentPath.snoc child) idVacant
    · have next := later nextWf (path_addKey wf parentPath) (not_holds_addKey wf)
      rw [loopClear_addKey_iff wf parentPath nextWf absent] at next
      rw [added]
      exact next
  · rw [(createKey_fault index database key parent).2 clear]
    exact ⟨fun both => absurd both.1 clear, by rintro _ ⟨⟩⟩

end Clear

@[inherit_doc createFrom_cons_clear]
theorem createFrom_clear (wf : database.Wf) {parentKeyId : Nat} {ids : Vec Nat maxObjectDepth}
    (parentPath : database.forest.Path none base (some parentKeyId))
    (vacant : ¬database.Holds parentKeyId) :
    (LoopClear fault database base index keys →
        createFrom fault database (some parentKeyId) index ids keys =
          createFrom noFault database (some parentKeyId) index ids keys) ∧
      ∀ result, createFrom fault database (some parentKeyId) index ids keys = .ok result →
        LoopClear fault database base index keys := by
  induction keys generalizing database base parentKeyId index ids with
  | nil => exact ⟨fun _ => rfl, fun _ _ step bound => absurd bound (Nat.not_lt_zero step)⟩
  | cons key keys ih =>
    rw [loopClear_cons_iff, has_concat_iff wf parentPath, not_not]
    exact createFrom_cons_clear wf parentPath (fun _ same => Option.some.inj same ▸ vacant)
      fun nextWf path free => ih nextWf path free

end GreengrassLite.Config

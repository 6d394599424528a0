import GreengrassLite.Config.Fault
import GreengrassLite.Config.Invariant

/-!
# Failure atomicity of a write

A write runs in one transaction, and almost every failing statement rolls it
back.  The exception is `value_insert`, whose result is ignored: the keys of a
new path are then committed without their value, and the write reports
success.  A key left that way rejects every later write, because it has no
timestamp to compare with.

A write is atomic exactly when it does not take that branch and its path can be
printed for the log.
-/

namespace GreengrassLite.Config

open GreengrassLite.Library Database Ggconfigd Forest

/-! ## The property -/

/-- Every write to the path from some timestamp on succeeds. -/
def Ggconfigd.Settable (daemon : Ggconfigd) (keyPath : List Buffer) : Prop :=
  ∃ newest, ∀ value timestamp, newest ≤ timestamp →
    (ggconfigWriteValueAtKey noFault daemon keyPath value timestamp).1 = .ok ()

/-- The path leads to a childless key that newer writes cannot set. -/
def Ggconfigd.Stuck (daemon : Ggconfigd) (keyPath : List Buffer) : Prop :=
  (∃ id, daemon.configDatabase.forest.Path none keyPath (some id) ∧
    ∀ child, ¬daemon.configDatabase.forest.edge child id) ∧
  ¬daemon.Settable keyPath

/-- A write under faults returns; it either succeeds with the tables of the fault-free
write, or fails with the tables unchanged, and leaves no new stuck key. -/
structure Atomic (fault : Fault) (daemon : Ggconfigd) (keyPath : List Buffer) (value : Buffer)
    (timestamp : Int) : Prop where
  returns : ∃ outcome, daemon.logged keyPath
    (ggconfigWriteValueAtKey fault daemon keyPath value timestamp) = some outcome
  complete : (ggconfigWriteValueAtKey fault daemon keyPath value timestamp).1 = .ok () →
    (ggconfigWriteValueAtKey noFault daemon keyPath value timestamp).1 = .ok () ∧
      (ggconfigWriteValueAtKey fault daemon keyPath value timestamp).2.configDatabase =
        (ggconfigWriteValueAtKey noFault daemon keyPath value timestamp).2.configDatabase
  unchanged : ∀ error,
    (ggconfigWriteValueAtKey fault daemon keyPath value timestamp).1 = .error error →
      (ggconfigWriteValueAtKey fault daemon keyPath value timestamp).2.configDatabase =
        daemon.configDatabase
  settable : ∀ path, path ≠ [] → path.length ≤ maxObjectDepth →
    (ggconfigWriteValueAtKey fault daemon keyPath value timestamp).2.Stuck path →
      daemon.Stuck path

/-- No statement fails that runs before the value of a new path is inserted. -/
structure CreationClear (fault : Fault) (database : Database) (keyPath : List Buffer) :
    Prop where
  lookup : ∀ index < keyPath.length, index = 0 ∨ database.Has (keyPath.take index) →
    fault (.findElement index) = false
  rootKey : fault .getRootKey = false
  rootInsert : ¬database.Has (keyPath.take 1) → fault (.keyInsert 0) = false
  rootValue : fault (.valuePresent 0) = false
  keys : LoopClear fault database (keyPath.take 1) 1 (keyPath.drop 1)

/-- The insertion of the value fails, after the keys of a new path have been
created: the path does not exist, no key on it holds a value, and no earlier
statement fails. -/
structure LosesValue (fault : Fault) (database : Database) (keyPath : List Buffer) : Prop where
  insertFails : fault .valueInsert = true
  absent : ¬database.Has keyPath
  free : ∀ path id, path <+: keyPath → database.forest.Path none path (some id) →
    ¬database.Holds id
  clear : CreationClear fault database keyPath

/-! ## States reached under faults -/

/-- The states of the daemon after any calls, whichever statements failed. -/
inductive Reached : Ggconfigd → Prop
  | opened : Reached opened
  | write {daemon} (fault : Fault) (keyPath : List Buffer) (value : Buffer)
      (timestamp : Int) : Reached daemon → keyPath ≠ [] → keyPath.length ≤ maxObjectDepth →
      Reached (ggconfigWriteValueAtKey fault daemon keyPath value timestamp).2
  | subscribe {daemon} (fault : Fault) (keyPath : List Buffer) (handle : UInt32) :
      Reached daemon → keyPath ≠ [] → keyPath.length ≤ maxObjectDepth →
      Reached (ggconfigGetKeyNotification fault daemon keyPath handle).2

variable {fault : Fault} {daemon : Ggconfigd} {keyPath : List Buffer} {value : Buffer}
  {timestamp : Int}

/-! ## The outcome of a write under faults -/

/-- How a write under faults relates to the fault-free one: the same result and
tables, a failure without change, or a lost value. -/
def Degrades (fault : Fault) (daemon : Ggconfigd) (keyPath : List Buffer)
    (outcome success : Except GglError Unit × Ggconfigd) : Prop :=
  (outcome.1 = success.1 ∧ outcome.2.configDatabase = success.2.configDatabase ∧
      outcome.2.configInitialized = success.2.configInitialized) ∨
    outcome = (.error .failure, daemon) ∨
    (fault .valueInsert = true ∧
      getKeyIds fault daemon.configDatabase keyPath = .error .noentry ∧
      ∃ ids created, createKeyPath fault daemon.configDatabase keyPath = .ok (ids, created) ∧
        outcome.1 = .ok () ∧ outcome.2.configDatabase = created ∧
        outcome.2.configInitialized = daemon.configInitialized)

theorem writeExistingKey_fault (ids : Vec Nat maxObjectDepth) :
    Degrades fault daemon keyPath
      (writeExistingKey fault lastKeyId daemon keyPath ids value timestamp)
      (writeExistingKey noFault lastKeyId daemon keyPath ids value timestamp) := by
  rw [writeExistingKey, writeExistingKey]
  cases childFails : fault .hasChild with
  | true =>
    right; left
    simp only [childIsPresentForKey, execute_of_fault childFails]
  | false =>
    simp only [childIsPresentForKey, execute_of_clear childFails, execute_noFault]
    cases daemon.configDatabase.hasChild (lastKeyId ids) with
    | true => exact .inl ⟨rfl, rfl, rfl⟩
    | false =>
      cases timeFails : fault .getTimestamp with
      | true =>
        right; left
        simp only [valueGetTimestamp, execute_of_fault timeFails]
      | false =>
        simp only [valueGetTimestamp, execute_of_clear timeFails, execute_noFault]
        cases daemon.configDatabase.getTimestamp (lastKeyId ids) with
        | nil => exact .inl ⟨rfl, rfl, rfl⟩
        | cons existingTimestamp rows =>
          by_cases newer : existingTimestamp > timestamp
          · simp only [if_pos newer]
            exact .inl ⟨rfl, rfl, rfl⟩
          · simp only [if_neg newer]
            cases updateFails : fault .valueUpdate with
            | true =>
              right; left
              simp only [valueUpdate, execute_of_fault updateFails]
            | false =>
              simp only [valueUpdate, execute_of_clear updateFails, execute_noFault]
              exact .inl ⟨rfl, rfl, rfl⟩

theorem writeNewKey_fault
    (missing : getKeyIds fault daemon.configDatabase keyPath = .error .noentry) :
    Degrades fault daemon keyPath (writeNewKey fault lastKeyId daemon keyPath value timestamp)
      (writeNewKey noFault lastKeyId daemon keyPath value timestamp) := by
  rw [writeNewKey, writeNewKey]
  rcases createKeyPath_fault daemon.configDatabase keyPath with same | failed
  · rw [same]
    cases created : createKeyPath noFault daemon.configDatabase keyPath with
    | error error => exact .inl ⟨rfl, rfl, rfl⟩
    | ok result =>
      cases insertFails : fault .valueInsert with
      | true =>
        right; right
        refine ⟨insertFails, missing, result.1, result.2, by rw [same, created], ?_⟩
        simp [valueInsert, execute_of_fault insertFails]
      | false =>
        simp only [valueInsert, execute_of_clear insertFails, execute_noFault]
        exact .inl ⟨rfl, rfl, rfl⟩
  · right; left
    simp [failed]

/-- Every write under faults relates to the fault-free one. -/
theorem ggconfigWriteValueAtKey_fault :
    Degrades fault daemon keyPath
      (ggconfigWriteValueAtKey fault daemon keyPath value timestamp)
      (ggconfigWriteValueAtKey noFault daemon keyPath value timestamp) := by
  rw [ggconfigWriteValueAtKey, ggconfigWriteValueAtKey, writeValueAtKeyBy, writeValueAtKeyBy]
  by_cases closed : daemon.configInitialized = false
  · rw [if_pos closed, if_pos closed]
    exact .inl ⟨rfl, rfl, rfl⟩
  · rw [if_neg closed, if_neg closed]
    rcases getKeyIds_fault daemon.configDatabase keyPath with same | failed
    · rw [same]
      cases found : getKeyIds noFault daemon.configDatabase keyPath with
      | ok ids => exact writeExistingKey_fault ids
      | error error =>
        cases error with
        | noentry => exact writeNewKey_fault (same.trans found)
        | _ => exact .inl ⟨rfl, rfl, rfl⟩
    · right; left
      simp [failed]

/-! ## When the value is lost -/

variable {database : Database}

/-- Creation runs as without faults if none of its statements fails, and
succeeds only then. -/
theorem createKeyPath_clear (wf : database.Wf) (rootKey : Buffer) (keys : List Buffer) :
    ((fault .getRootKey = false ∧ (¬database.Has [rootKey] → fault (.keyInsert 0) = false) ∧
          fault (.valuePresent 0) = false) ∧ LoopClear fault database [rootKey] 1 keys →
        createKeyPath fault database (rootKey :: keys) =
          createKeyPath noFault database (rootKey :: keys)) ∧
      ∀ result, createKeyPath fault database (rootKey :: keys) = .ok result →
        (fault .getRootKey = false ∧ (¬database.Has [rootKey] → fault (.keyInsert 0) = false) ∧
          fault (.valuePresent 0) = false) ∧ LoopClear fault database [rootKey] 1 keys := by
  have rootPath : database.forest.Path none [] none := Forest.Path.nil none
  have same := @has_concat_iff _ [] rootKey none wf rootPath
  rw [List.nil_append] at same
  rw [createKeyPath_eq fault database (List.cons_ne_nil _ _),
    createKeyPath_eq noFault database (List.cons_ne_nil _ _), same, not_not]
  exact createFrom_cons_clear wf rootPath (by simp) fun nextWf path free =>
    createFrom_clear nextWf path free

section

variable (wf : database.Wf) (nonempty : keyPath ≠ []) (short : keyPath.length ≤ maxObjectDepth)

include wf nonempty short

/-- The lookup reports a missing key exactly when the path does not exist and
no row of the query fails. -/
theorem getKeyIds_eq_noentry_iff :
    getKeyIds fault database keyPath = .error .noentry ↔
      ¬database.Has keyPath ∧
        ∀ index < keyPath.length, index = 0 ∨ database.Has (keyPath.take index) →
          fault (.findElement index) = false := by
  rw [getKeyIds, getKeyIdsLoop_eq_noentry_iff]
  have rowsIff : (database.findElement keyPath).length < keyPath.length ↔
      ¬database.Has keyPath := by
    rw [Database.Has, ← exists_trail_iff nonempty]
    constructor
    · rintro missing ⟨ids, trail⟩
      rw [findElement_of_trail wf short trail, trail.length_eq] at missing
      exact lt_irrefl _ missing
    · exact findElement_length_lt wf short
  rw [rowsIff]
  refine and_congr_right fun absent => ?_
  have bound := rowsIff.mpr absent
  constructor
  · intro clear index inside runs
    rw [← Nat.zero_add index]
    refine clear index ?_
    rcases runs with rfl | has
    · exact Nat.zero_le _
    · cases index with
      | zero => exact Nat.zero_le _
      | succ index =>
        exact (lt_findElement_length_iff wf).mpr ⟨Nat.lt_of_succ_lt inside, by omega, has⟩
  · intro clear step inside
    rw [Nat.zero_add]
    refine clear step (by omega) ?_
    cases step with
    | zero => exact .inl rfl
    | succ step =>
      exact .inr ((lt_findElement_length_iff wf).mp inside).2.2

/-- Whatever fails, creation leaves well-formed tables. -/
theorem createKeyPath_fault_wf {ids : Vec Nat maxObjectDepth} {created : Database}
    (ok : createKeyPath fault database keyPath = .ok (ids, created)) :
    createKeyPath noFault database keyPath = .ok (ids, created) ∧ created.Wf ∧
      Grown database created keyPath ∧ created.forest.Trail none keyPath ids.items := by
  rcases createKeyPath_fault database keyPath with same | failed
  · rw [same] at ok
    rcases createKeyPath_creates wf nonempty short with
      ⟨failed, _⟩ | ⟨result, other, idList, okOther, items, createdWf, grown, trail⟩
    · rw [ok] at failed
      cases failed
    · rw [ok] at okOther
      obtain ⟨rfl, rfl⟩ := Prod.mk.inj (Except.ok.inj okOther)
      exact ⟨ok, createdWf, grown, items ▸ trail⟩
  · rw [ok] at failed
    cases failed

/-- The value is lost exactly when its insertion fails after the lookup found
the path missing and creation succeeded. -/
theorem losesValue_iff :
    LosesValue fault database keyPath ↔
      fault .valueInsert = true ∧ getKeyIds fault database keyPath = .error .noentry ∧
        ∃ result, createKeyPath fault database keyPath = .ok result := by
  cases keyPath with
  | nil => exact absurd rfl nonempty
  | cons rootKey keys =>
    constructor
    · rintro ⟨insertFails, absent, free, clear⟩
      refine ⟨insertFails, (getKeyIds_eq_noentry_iff wf nonempty short).mpr
        ⟨absent, clear.lookup⟩, ?_⟩
      rw [(createKeyPath_clear wf rootKey keys).1
        ⟨⟨clear.rootKey, clear.rootInsert, clear.rootValue⟩, clear.keys⟩]
      rcases createKeyPath_creates wf nonempty short with
        ⟨_, path, id, _, isPrefix, reached, holds⟩ | ⟨ids, created, _, ok, _⟩
      · exact absurd holds (free path id isPrefix reached)
      · exact ⟨_, ok⟩
    · rintro ⟨insertFails, missing, ⟨ids, created⟩, ok⟩
      obtain ⟨absent, lookup⟩ := (getKeyIds_eq_noentry_iff wf nonempty short).mp missing
      obtain ⟨⟨rootKeyClear, rootInsert, rootValue⟩, loopClear⟩ :=
        (createKeyPath_clear wf rootKey keys).2 _ ok
      refine ⟨insertFails, absent, ?_, lookup, rootKeyClear, rootInsert, rootValue, loopClear⟩
      obtain ⟨-, createdWf, grown, trail⟩ := createKeyPath_fault_wf wf nonempty short ok
      rintro path id ⟨rest, equal⟩ reached
      have restNonempty : rest ≠ [] := by
        rintro rfl
        rw [List.append_nil] at equal
        exact absent ⟨id, equal ▸ reached⟩
      have longer := trail.path
      rw [← equal] at longer
      have vacant := createdWf.not_holds_of_longer (grown.keep _ _ reached) longer restNonempty
      rwa [grown.holds_iff] at vacant

end

/-! ## Reached states are well formed -/

variable {outcome : Except GglError Unit × Ggconfigd}

theorem wf_of_degrades {success : Except GglError Unit × Ggconfigd}
    (degrades : Degrades fault daemon keyPath outcome success)
    (isOpen : daemon.configInitialized = true) (wf : daemon.configDatabase.Wf)
    (nonempty : keyPath ≠ []) (short : keyPath.length ≤ maxObjectDepth)
    (written : Written daemon keyPath value timestamp success) :
    outcome.2.configInitialized = true ∧ outcome.2.configDatabase.Wf := by
  rcases degrades with ⟨_, sameTables, sameOpen⟩ | rfl | ⟨_, _, ids, created, ok, _, tables, opened⟩
  · rw [sameTables, sameOpen]
    exact ⟨written.configInitialized.trans isOpen, written.wf wf nonempty⟩
  · exact ⟨isOpen, wf⟩
  · rw [tables, opened]
    exact ⟨isOpen, (createKeyPath_fault_wf wf nonempty short ok).2.1⟩

/-- Every reached state is open with well-formed tables. -/
theorem Reached.wf (reached : Reached daemon) :
    daemon.configInitialized = true ∧ daemon.configDatabase.Wf := by
  induction reached with
  | opened => exact ⟨rfl, wf_created⟩
  | write fault keyPath value timestamp _ nonempty short ih =>
    exact wf_of_degrades ggconfigWriteValueAtKey_fault ih.1 ih.2 nonempty short
      (ggconfigWriteValueAtKey_written ih.1 ih.2 nonempty short)
  | @subscribe daemon fault keyPath handle _ nonempty short ih =>
    rw [ggconfigGetKeyNotification, getKeyNotificationBy, if_neg (by simp [ih.1])]
    rcases getKeyIds_fault daemon.configDatabase keyPath with same | failed
    · rw [same]
      by_cases exists_trail : ∃ ids, daemon.configDatabase.forest.Trail none keyPath ids
      · obtain ⟨idList, trail⟩ := exists_trail
        obtain ⟨ids, found, rfl⟩ := getKeyIds_of_trail ih.2 short trail
        simp only [found]
        cases addFails : fault .addSubscription with
        | true =>
          simp only [execute_of_fault addFails]
          exact ih
        | false =>
          simp only [execute_of_clear addFails]
          exact ⟨ih.1, ih.2.addSubscription (lastKeyId_of_trail nonempty trail) handle⟩
      · simp only [getKeyIds_of_no_trail ih.2 short exists_trail]
        exact ih
    · simp only [failed]
      exact ih

/-! ## Stuck keys -/

/-- A write to a childless key succeeds exactly when the key has a value. -/
theorem Written.ok_iff_holds (written : Written daemon keyPath value timestamp outcome)
    (wf : daemon.configDatabase.Wf) (nonempty : keyPath ≠ []) {id : Nat}
    (reached : daemon.configDatabase.forest.Path none keyPath (some id))
    (childless : ∀ child, ¬daemon.configDatabase.forest.edge child id) :
    outcome.1 = .ok () ↔ daemon.configDatabase.Holds id := by
  have same : ∀ {other}, daemon.configDatabase.forest.Path none keyPath (some other) →
      other = id :=
    fun otherPath => otherPath.node_unique wf.forest reached
  cases written with
  | inserted absent | valueAbove absent => exact absurd reached (absent id)
  | childBelow otherPath edge => exact absurd (same otherPath ▸ edge) (childless _)
  | valueless otherPath _ vacant => exact iff_of_false nofun (same otherPath ▸ vacant)
  | stale otherPath member _ => exact iff_of_true rfl (same otherPath ▸ holds_of_mem member)
  | updated trail member _ =>
    exact iff_of_true rfl (same (lastKeyId_of_trail nonempty trail) ▸ holds_of_mem member)

/-- A key is stuck exactly when it has neither a child nor a value. -/
theorem stuck_iff (isOpen : daemon.configInitialized = true) (wf : daemon.configDatabase.Wf)
    (nonempty : keyPath ≠ []) (short : keyPath.length ≤ maxObjectDepth) :
    daemon.Stuck keyPath ↔
      ∃ id, daemon.configDatabase.forest.Path none keyPath (some id) ∧
        (∀ child, ¬daemon.configDatabase.forest.edge child id) ∧
        ¬daemon.configDatabase.Holds id := by
  have accepted : ∀ {id} value timestamp,
      daemon.configDatabase.forest.Path none keyPath (some id) →
      (∀ child, ¬daemon.configDatabase.forest.edge child id) →
      ((ggconfigWriteValueAtKey noFault daemon keyPath value timestamp).1 = .ok () ↔
        daemon.configDatabase.Holds id) :=
    fun value timestamp =>
      (ggconfigWriteValueAtKey_written isOpen wf nonempty short).ok_iff_holds wf nonempty
  constructor
  · rintro ⟨⟨id, reached, childless⟩, notSettable⟩
    refine ⟨id, reached, childless, fun holds => notSettable ⟨0, fun value timestamp _ => ?_⟩⟩
    exact (accepted value timestamp reached childless).mpr holds
  · rintro ⟨id, reached, childless, vacant⟩
    refine ⟨⟨id, reached, childless⟩, ?_⟩
    rintro ⟨newest, settable⟩
    exact vacant ((accepted [] newest reached childless).mp (settable [] newest le_rfl))

/-- A key without child or value after a fault-free write was one before. -/
theorem Written.vacant_leaf (written : Written daemon keyPath value timestamp outcome)
    (wf : daemon.configDatabase.Wf) (nonempty : keyPath ≠ []) {path : List Buffer} {id : Nat}
    (reached : outcome.2.configDatabase.forest.Path none path (some id))
    (childless : ∀ child, ¬outcome.2.configDatabase.forest.edge child id)
    (vacant : ¬outcome.2.configDatabase.Holds id) :
    daemon.configDatabase.forest.Path none path (some id) ∧
      (∀ child, ¬daemon.configDatabase.forest.edge child id) ∧
      ¬daemon.configDatabase.Holds id := by
  cases written with
  | @inserted created ids absent createdWf grown trail =>
    rw [commit, holds_withValue_iff, not_or] at vacant
    rcases grown.leaf_cases wf createdWf nonempty trail reached childless with
      ⟨old, oldChildless⟩ | last
    · exact ⟨old, oldChildless, fun holds => vacant.1 (grown.holds_iff.mpr holds)⟩
    · exact absurd last vacant.2
  | valueAbove | childBelow | valueless | stale => exact ⟨reached, childless, vacant⟩
  | updated =>
    rw [commit, holds_valueUpdate_iff] at vacant
    exact ⟨reached, childless, vacant⟩

/-! ## Atomicity -/

/-- A lost value breaks atomicity: the write reports success without it. -/
theorem LosesValue.not_atomic (isOpen : daemon.configInitialized = true)
    (wf : daemon.configDatabase.Wf) (nonempty : keyPath ≠ [])
    (short : keyPath.length ≤ maxObjectDepth)
    (loses : LosesValue fault daemon.configDatabase keyPath) :
    ¬Atomic fault daemon keyPath value timestamp := by
  intro atomic
  obtain ⟨insertFails, missing, ⟨ids, created⟩, ok⟩ := (losesValue_iff wf nonempty short).mp loses
  obtain ⟨clearOk, createdWf, grown, trail⟩ := createKeyPath_fault_wf wf nonempty short ok
  have absent : ∀ id, ¬daemon.configDatabase.forest.Path none keyPath (some id) :=
    fun id reached => loses.absent ⟨id, reached⟩
  have leaf := grown.last_leaf wf createdWf nonempty absent trail
  have clearMissing : getKeyIds noFault daemon.configDatabase keyPath = .error .noentry :=
    getKeyIds_of_no_trail wf short (mt (exists_trail_iff nonempty).mp loses.absent)
  have lost : (ggconfigWriteValueAtKey fault daemon keyPath value timestamp).1 = .ok () ∧
      (ggconfigWriteValueAtKey fault daemon keyPath value timestamp).2.configDatabase =
        created := by
    simp [ggconfigWriteValueAtKey, writeValueAtKeyBy, isOpen, missing, writeNewKey, ok, valueInsert,
      execute_of_fault insertFails]
  have stored : (ggconfigWriteValueAtKey noFault daemon keyPath value
      timestamp).2.configDatabase =
        created.withValue (lastKeyId ids) value timestamp := by
    simp [ggconfigWriteValueAtKey, writeValueAtKeyBy, isOpen, clearMissing, writeNewKey, clearOk,
      valueInsert, valueInsert_of_vacant _ _ leaf.2]
  have equal := (atomic.complete lost.1).2
  rw [lost.2, stored] at equal
  have lengths := congrArg (fun tables => tables.valueTable.length) equal
  simp [withValue] at lengths

/-- A write under faults is atomic exactly when its path can be printed and it does
not lose the value of a path it has just created. -/
theorem atomic_iff (fault : Fault) (daemon : Ggconfigd) (reached : Reached daemon)
    (keyPath : List Buffer) (value : Buffer) (timestamp : Int) (nonempty : keyPath ≠ [])
    (short : keyPath.length ≤ maxObjectDepth) :
    Atomic fault daemon keyPath value timestamp ↔
      Printable keyPath ∧ ¬LosesValue fault daemon.configDatabase keyPath := by
  obtain ⟨isOpen, wf⟩ := reached.wf
  constructor
  · intro atomic
    refine ⟨?_, fun loses => loses.not_atomic isOpen wf nonempty short atomic⟩
    by_contra unprintable
    obtain ⟨outcome, returned⟩ := atomic.returns
    rw [Ggconfigd.logged, if_pos ⟨isOpen, unprintable⟩] at returned
    cases returned
  · rintro ⟨printable, keeps⟩
    have returns : ∃ outcome, daemon.logged keyPath
        (ggconfigWriteValueAtKey fault daemon keyPath value timestamp) = some outcome :=
      ⟨_, if_neg fun ends => ends.2 printable⟩
    have degrades := @ggconfigWriteValueAtKey_fault fault daemon keyPath value timestamp
    have written : Written daemon keyPath value timestamp
        (ggconfigWriteValueAtKey noFault daemon keyPath value timestamp) :=
      ggconfigWriteValueAtKey_written isOpen wf nonempty short
    obtain ⟨outcomeOpen, outcomeWf⟩ :=
      wf_of_degrades degrades isOpen wf nonempty short written
    rcases degrades with
      ⟨sameResult, sameTables, _⟩ | failed | ⟨insertFails, missing, ids, created, ok, _⟩
    · refine ⟨returns, fun accepted => ⟨sameResult ▸ accepted, sameTables⟩, ?_, ?_⟩
      · intro error rejected
        rw [sameResult] at rejected
        rw [sameTables]
        exact congrArg configDatabase
          (written.unchanged_of_error rejected)
      · intro path pathNonempty pathShort stuck
        rw [stuck_iff outcomeOpen outcomeWf pathNonempty pathShort] at stuck
        rw [stuck_iff isOpen wf pathNonempty pathShort]
        obtain ⟨id, idPath, childless, vacant⟩ := stuck
        rw [sameTables] at idPath childless vacant
        exact ⟨id, written.vacant_leaf wf nonempty idPath childless vacant⟩
    · refine ⟨returns, fun accepted => ?_, fun _ _ => by rw [failed], fun path _ _ stuck => ?_⟩
      · rw [failed] at accepted
        cases accepted
      · rwa [failed] at stuck
    · exact absurd ((losesValue_iff wf nonempty short).mpr ⟨insertFails, missing, _, ok⟩) keeps

/-- The value insertion of a first write fails: the write reports success, its
value is missing, and no newer write can set the key. -/
theorem not_atomic_first_write :
    ¬Atomic (fun statement => statement = .valueInsert) opened [gglStr "a"]
        (gglStr "1") 5 ∧
      let left := (ggconfigWriteValueAtKey (fun statement => statement = .valueInsert)
        opened [gglStr "a"] (gglStr "1") 5).2
      (ggconfigWriteValueAtKey noFault left [gglStr "a"] (gglStr "2") 6).1 =
        .error .noentry := by
  refine ⟨fun atomic => ?_, by decide⟩
  have complete := (atomic.complete (by decide)).2
  exact absurd complete (by decide)

/-- An update under a failing value insertion stays atomic. -/
theorem atomic_iff_update :
    let daemon := (ggconfigWriteValueAtKey noFault opened [gglStr "a"]
      (gglStr "1") 5).2
    Atomic (fun statement => statement = .valueInsert) daemon [gglStr "a"] (gglStr "2") 6 ↔
      Printable [gglStr "a"] ∧
        ¬LosesValue (fun statement => statement = .valueInsert) daemon.configDatabase
          [gglStr "a"] :=
  atomic_iff _ _ (.write noFault _ _ _ .opened (by decide) (by decide)) _ _ _ (by decide)
    (by decide)

end GreengrassLite.Config

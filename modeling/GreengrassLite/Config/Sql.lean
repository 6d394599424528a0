import GreengrassLite.Core.Vector

/-!
# The configuration tables and their statements

The schema of `create_db.sql` and `create_sub_table.sql` with the meaning of
every statement `db_interface.c` runs.  A query answers the rows it returns, in
order.  An insert checks the uniqueness constraints of its table; foreign keys
are not enforced, as SQLite leaves them off.

Key ids are natural numbers.  `sqlite3_column_int` hands a key id back
unchanged, which for SQLite means fewer than `2 ^ 31` keys.

A statement that SQLite fails to execute changes nothing and makes its caller
return `GGL_ERR_FAILURE`.  `Fault` says which statements of one call fail.
-/

namespace GreengrassLite.Config

structure KeyRow where
  keyid : Nat
  keyvalue : Buffer
  deriving DecidableEq, Repr

structure RelationRow where
  keyid : Nat
  parentid : Nat
  deriving DecidableEq, Repr

structure ValueRow where
  keyid : Nat
  value : Buffer
  timeStamp : Int
  deriving DecidableEq, Repr

structure SubscriberRow where
  keyid : Nat
  handle : UInt32
  deriving DecidableEq, Repr

/-- The database.  `sequence` is the `AUTOINCREMENT` counter of `keyTable`, the
largest key id ever issued. -/
structure Database where
  keyTable : List KeyRow
  relationTable : List RelationRow
  valueTable : List ValueRow
  subscriberTable : List SubscriberRow
  sequence : Nat
  deriving DecidableEq, Repr

/-- The tables as `create_database` leaves them. -/
def Database.created : Database :=
  ⟨[], [], [], [], 0⟩

/-! ## Statement failures -/

/-- The statement executions of one call, in the words of the embedded SQL
files.  A statement that runs once for each key of a path carries the index of
that key; one that runs for a key id carries the id; one that is stepped
through its rows carries the index of the step. -/
inductive Statement where
  | findElement (row : Nat)
  | getRootKey
  | valuePresent (index : Nat)
  | getKeyWithParent (index : Nat)
  | keyInsert (index : Nat)
  | insertRelation (index : Nat)
  | valueInsert
  | hasChild
  | getTimestamp
  | valueUpdate
  | getSubscribers (index row : Nat)
  | addSubscription
  | readPresent (keyid : Nat)
  | readValue (keyid : Nat)
  | countChildren (keyid row : Nat)
  | getChildren (keyid row : Nat)
  deriving DecidableEq, Repr

/-- Which statements fail. -/
abbrev Fault := Statement → Bool

/-- Every statement succeeds with its SQL meaning. -/
def noFault : Fault := fun _ => false

/-- Execute a statement, or fail. -/
def execute {α : Type} (fault : Fault) (statement : Statement)
    (answer : Except GglError α) : Except GglError α :=
  if fault statement then .error .failure else answer

@[simp]
theorem execute_noFault {α : Type} (statement : Statement) (answer : Except GglError α) :
    execute noFault statement answer = answer := by
  simp [execute, noFault]

@[simp]
theorem execute_of_fault {α : Type} {fault : Fault} {statement : Statement}
    {answer : Except GglError α} (fails : fault statement = true) :
    execute fault statement answer = .error .failure := by
  rw [execute, if_pos fails]

@[simp]
theorem execute_of_clear {α : Type} {fault : Fault} {statement : Statement}
    {answer : Except GglError α} (clear : fault statement = false) :
    execute fault statement answer = answer := by
  rw [execute, if_neg (by simp [clear])]

/-- Step a query through its rows until they run out or a step fails.  The
flag tells whether the last step reported `SQLITE_DONE`. -/
def stepRows {α : Type} (fault : Fault) (statement : Nat → Statement) :
    Nat → List α → List α × Bool
  | index, [] => ([], !fault (statement index))
  | index, row :: rows =>
    if fault (statement index) then
      ([], false)
    else
      let rest := stepRows fault statement (index + 1) rows
      (row :: rest.1, rest.2)

@[simp]
theorem stepRows_noFault {α : Type} (statement : Nat → Statement) (index : Nat)
    (rows : List α) : stepRows noFault statement index rows = (rows, true) := by
  induction rows generalizing index with
  | nil => rfl
  | cons row rows ih => simp [stepRows, ih, noFault]

/-- Rows that can all be read are read. -/
@[simp]
theorem stepRows_of_clear {α : Type} {fault : Fault} {statement : Nat → Statement} {index : Nat}
    {rows : List α} (clear : ∀ step < rows.length, fault (statement (index + step)) = false) :
    (stepRows fault statement index rows).1 = rows := by
  induction rows generalizing index with
  | nil => rfl
  | cons row rows ih =>
    have first : fault (statement index) = false := clear 0 (Nat.succ_pos _)
    rw [stepRows, if_neg (by simp [first])]
    refine congrArg (row :: ·) (ih fun step inside => ?_)
    rw [Nat.add_right_comm]
    exact clear (step + 1) (Nat.succ_lt_succ inside)

/-! ## Queries -/

namespace Database

variable (database : Database)

variable (keyid : Nat)

/-- `keyid NOT IN (SELECT keyid FROM relationTable)`. -/
def isRoot : Bool :=
  database.relationTable.all fun row => row.keyid ≠ keyid

variable (keyvalue : Buffer)

/-- `get_root_key.sql`. -/
def getRootKey : List Nat :=
  (database.keyTable.filter fun row =>
    database.isRoot row.keyid ∧ row.keyvalue = keyvalue).map KeyRow.keyid

/-- `get_key_with_parent.sql`. -/
def getKeyWithParent (parentid : Nat) : List Nat :=
  database.keyTable.flatMap fun key =>
    (database.relationTable.filter fun relation =>
      key.keyid = relation.keyid ∧ key.keyvalue = keyvalue ∧
        relation.parentid = parentid).map fun _ => key.keyid

/-- The recursive part of `find_element.sql` for one row of `path_cte`. -/
def findElementStep (currentKeyId : Nat) : List Nat :=
  (database.relationTable.filter fun relation => currentKeyId = relation.parentid).flatMap
    fun relation =>
      (database.keyTable.filter fun key =>
        relation.keyid = key.keyid ∧ key.keyvalue = keyvalue).map KeyRow.keyid

/-- The rows of `path_cte` from one depth on.  The recursion queue is first in,
first out, so the rows of a depth come before the rows they generate. -/
def findElementFrom : List Nat → List Buffer → List Nat
  | rows, [] => rows
  | rows, keyvalue :: rest =>
    rows ++ findElementFrom (rows.flatMap (database.findElementStep keyvalue)) rest

/-- `find_element.sql`.  It names fifteen keys, so the deeper keys of a longer
path are never compared with a row.  Without a first key its parameter is null
and no row qualifies. -/
def findElement : List Buffer → List Nat
  | [] => []
  | keyvalue :: rest =>
    database.findElementFrom (database.getRootKey keyvalue) (rest.take (maxObjectDepth - 1))

/-- `value_present.sql`. -/
def valuePresent : List Nat :=
  (database.valueTable.filter fun row => row.keyid = keyid).map ValueRow.keyid

/-- `has_child.sql`. -/
def hasChild : Bool :=
  database.relationTable.any fun row => row.parentid = keyid

/-- `get_timestamp.sql`. -/
def getTimestamp : List Int :=
  (database.valueTable.filter fun row => row.keyid = keyid).map ValueRow.timeStamp

/-- `read_value.sql`. -/
def readValue : List Buffer :=
  (database.valueTable.filter fun row => row.keyid = keyid).map ValueRow.value

/-- `get_children.sql`. -/
def getChildren (parentid : Nat) : List (Nat × Buffer) :=
  (database.relationTable.filter fun relation => relation.parentid = parentid).flatMap
    fun relation =>
      (database.keyTable.filter fun key => relation.keyid = key.keyid).map
        fun key => (key.keyid, key.keyvalue)

/-- `get_subscribers.sql`. -/
def getSubscribers : List UInt32 :=
  database.subscriberTable.flatMap fun subscriber =>
    (database.keyTable.filter fun key =>
      subscriber.keyid = key.keyid ∧ key.keyid = keyid).map fun _ => subscriber.handle

/-! ## Changes -/

/-- `key_insert.sql`, answering `sqlite3_last_insert_rowid`. -/
def keyInsert : Nat × Database :=
  (database.sequence + 1,
    { database with
      keyTable := database.keyTable ++ [⟨database.sequence + 1, keyvalue⟩]
      sequence := database.sequence + 1 })

/-- `insert_relation.sql`.  The key id of a relation is unique. -/
def insertRelation (keyid parentid : Nat) : Except GglError Database :=
  if database.isRoot keyid then
    .ok { database with relationTable := database.relationTable ++ [⟨keyid, parentid⟩] }
  else
    .error .failure

/-- `value_insert.sql`.  The key id of a value is unique. -/
def valueInsert (value : Buffer) (timeStamp : Int) : Except GglError Database :=
  if database.valuePresent keyid = [] then
    .ok { database with valueTable := database.valueTable ++ [⟨keyid, value, timeStamp⟩] }
  else
    .error .failure

/-- `value_update.sql`. -/
def valueUpdate (value : Buffer) (timeStamp : Int) : Database :=
  { database with
    valueTable := database.valueTable.map fun row =>
      if row.keyid = keyid then ⟨row.keyid, value, timeStamp⟩ else row }

/-- `add_subscription.sql`. -/
def addSubscription (handle : UInt32) : Database :=
  { database with
    subscriberTable := database.subscriberTable ++ [⟨keyid, handle⟩] }

end Database

end GreengrassLite.Config

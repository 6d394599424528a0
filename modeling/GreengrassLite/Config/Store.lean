import GreengrassLite.Config.Sql
import GreengrassLite.Core.Alloc

/-!
# The configuration store

The functions of `ggconfigd/src/db_interface.c`.  A transaction is modelled by
keeping the database from its beginning: `ROLLBACK` returns to it, and
`END TRANSACTION` commits the changed one.  Notifications are recorded in the
order `ggl_sub_respond` is called.
-/

namespace GreengrassLite.Config

/-- One call of `ggl_sub_respond` with the changed key path. -/
structure SubResponse where
  handle : UInt32
  keyPath : List Buffer
  deriving DecidableEq, Repr

/-- The state of the configuration daemon: `config_initialized`,
`config_database` and the responses sent to subscribers so far. -/
structure Ggconfigd where
  configInitialized : Bool
  configDatabase : Database
  responses : List SubResponse
  deriving DecidableEq, Repr

/-- The daemon after `ggconfig_open` has created a new database. -/
def Ggconfigd.opened : Ggconfigd :=
  ⟨true, Database.created, []⟩

/-! ## Single statements -/

variable (fault : Fault) (database : Database)

/-- `key_insert`. -/
def keyInsert (index : Nat) (database : Database) (key : Buffer) :
    Except GglError (Nat × Database) :=
  execute fault (.keyInsert index) (.ok (database.keyInsert key))

/-- `value_is_present_for_key`.  A row with key id zero counts as a failure. -/
def valueIsPresentForKey (statement : Statement) (database : Database) (keyId : Nat) :
    Except GglError Bool :=
  execute fault statement <|
    match database.valuePresent keyId with
    | [] => .ok false
    | pid :: _ => if pid ≠ 0 then .ok true else .error .failure

/-- `find_key_with_parent`. -/
def findKeyWithParent (index : Nat) (database : Database) (key : Buffer) (parentKeyId : Nat) :
    Except GglError Nat :=
  execute fault (.getKeyWithParent index) <|
    match database.getKeyWithParent key parentKeyId with
    | [] => .error .noentry
    | id :: _ => .ok id

/-- `get_or_create_key_at_root`. -/
def getOrCreateKeyAtRoot (key : Buffer) : Except GglError (Nat × Database) :=
  execute fault .getRootKey <|
    match database.getRootKey key with
    | [] => keyInsert fault 0 database key
    | id :: _ => .ok (id, database)

/-- `relation_insert`. -/
def relationInsert (index : Nat) (database : Database) (id parent : Nat) :
    Except GglError Database :=
  execute fault (.insertRelation index) (database.insertRelation id parent)

/-- `value_insert`. -/
def valueInsert (keyId : Nat) (value : Buffer) (timestamp : Int) : Except GglError Database :=
  execute fault .valueInsert (database.valueInsert keyId value timestamp)

/-- `value_update`. -/
def valueUpdate (keyId : Nat) (value : Buffer) (timestamp : Int) : Except GglError Database :=
  execute fault .valueUpdate (.ok (database.valueUpdate keyId value timestamp))

/-- `value_get_timestamp`. -/
def valueGetTimestamp (id : Nat) : Except GglError Int :=
  execute fault .getTimestamp <|
    match database.getTimestamp id with
    | [] => .error .noentry
    | timestamp :: _ => .ok timestamp

/-- `child_is_present_for_key`. -/
def childIsPresentForKey (keyId : Nat) : Except GglError Bool :=
  execute fault .hasChild (.ok (database.hasChild keyId))

/-! ## Logging a key path -/

/-- `PATH_STRING_MAX_SIZE`. -/
def pathStringMaxSize : Nat := 1024

/-- `strncat` to the string in `path_string`, which takes the bytes before a NUL.
There is no result when they do not fit: the check of the call ends the daemon. -/
def strncat (path src : Buffer) (n : Nat) : Option Buffer :=
  let longer := path ++ (src.take n).takeWhile (· ≠ 0)
  if longer.length < pathStringMaxSize then some longer else none

/-- The loop of `print_key_path`.  `string_length` stays zero, so a key is only
measured by itself. -/
def printKeysFrom : Nat → Buffer → List Buffer → Option Buffer
  | _, path, [] => some path
  | x, path, key :: keys =>
    if 5 + 0 + (1 + key.length) < pathStringMaxSize then do
      let path ← if x > 0 then strncat path (gglStr "/ ") 1 else some path
      let path ← strncat path key key.length
      printKeysFrom (x + 1) path keys
    else strncat path (gglStr "/... ") 4

/-- `print_key_path`. -/
def printKeyPath : List Buffer → Option Buffer :=
  printKeysFrom 0 []

/-- The key path can be printed, which every call on the store does when it starts. -/
def Printable (keyPath : List Buffer) : Prop :=
  (printKeyPath keyPath).isSome = true

instance (keyPath : List Buffer) : Decidable (Printable keyPath) :=
  inferInstanceAs (Decidable (_ = true))

/-- A call on the store with this outcome, if the daemon survives the log line at
its start. -/
def Ggconfigd.logged {α : Type} (daemon : Ggconfigd) (keyPath : List Buffer) (outcome : α) :
    Option α :=
  if daemon.configInitialized = true ∧ ¬Printable keyPath then none else some outcome

/-! ## Looking a key path up -/

/-- The loop of `get_key_ids`: one row for each key of the path. -/
def getKeyIdsLoop : Nat → List Buffer → List Nat → Vec Nat maxObjectDepth →
      Except GglError (Vec Nat maxObjectDepth)
  | _, [], _, keyIds => .ok keyIds
  | index, _ :: keys, rows, keyIds =>
    if fault (.findElement index) then
      .error .failure
    else
      match rows with
      | [] => .error .noentry
      | id :: rows =>
        getKeyIdsLoop (index + 1) keys rows (keyIds.keep (gglObjVecPush keyIds id))

variable (keyPath : List Buffer)

/-- `get_key_ids`. -/
def getKeyIds : Except GglError (Vec Nat maxObjectDepth) :=
  getKeyIdsLoop fault 0 keyPath (database.findElement keyPath) (Vec.empty Nat maxObjectDepth)

/-- `ids.list.items[ids.list.len - 1].i64` for the nonempty list that a key path
with a key yields. -/
def lastKeyId (ids : Vec Nat maxObjectDepth) : Nat :=
  ids.items.getLast?.getD 0

/-! ## Creating a key path -/

/-- The loop of `create_key_path` over the keys after the root key. -/
def createKeyPathLoop : Database → Nat → Nat → Vec Nat maxObjectDepth → List Buffer →
      Except GglError (Vec Nat maxObjectDepth × Database)
  | database, _, _, keyIds, [] => .ok (keyIds, database)
  | database, parentKeyId, index, keyIds, key :: keys =>
    match findKeyWithParent fault index database key parentKeyId with
    | .error .noentry =>
      match keyInsert fault index database key with
      | .error error => .error error
      | .ok (currentKeyId, database) =>
        match relationInsert fault index database currentKeyId parentKeyId with
        | .error error => .error error
        | .ok database =>
          createKeyPathLoop database currentKeyId (index + 1)
            (keyIds.keep (gglObjVecPush keyIds currentKeyId)) keys
    | .ok currentKeyId =>
      match valueIsPresentForKey fault (.valuePresent index) database currentKeyId with
      | .error error => .error error
      | .ok true => .error .failure
      | .ok false =>
        createKeyPathLoop database currentKeyId (index + 1)
          (keyIds.keep (gglObjVecPush keyIds currentKeyId)) keys
    | .error error => .error error

/-- `create_key_path`.  It reads the first key, so the path is never empty. -/
def createKeyPath : List Buffer → Except GglError (Vec Nat maxObjectDepth × Database)
  | [] => .error .failure
  | rootKey :: keys =>
    match getOrCreateKeyAtRoot fault database rootKey with
    | .error error => .error error
    | .ok (parentKeyId, database) =>
      let keyIds := Vec.empty Nat maxObjectDepth
      match valueIsPresentForKey fault (.valuePresent 0) database parentKeyId with
      | .error error => .error error
      | .ok true => .error .failure
      | .ok false =>
        createKeyPathLoop fault database parentKeyId 1
          (keyIds.keep (gglObjVecPush keyIds parentKeyId)) keys

/-! ## Notifications -/

/-- `notify_single_key`: the responses sent before the rows run out or a step
fails. -/
def notifySingleKey (index notifyKeyId : Nat) (changedKeyPath : List Buffer) : List SubResponse :=
  (stepRows fault (.getSubscribers index) 0 (database.getSubscribers notifyKeyId)).1.map
    fun handle => ⟨handle, changedKeyPath⟩

/-- The loop of `notify_nested_key`.  A failure for one key is only logged. -/
def notifyNestedKeyFrom : Nat → List Nat → List SubResponse
  | _, [] => []
  | index, keyId :: keyIds =>
    notifySingleKey fault database index keyId keyPath ++
      notifyNestedKeyFrom (index + 1) keyIds

/-- `notify_nested_key`. -/
def notifyNestedKey (keyIds : Vec Nat maxObjectDepth) : List SubResponse :=
  notifyNestedKeyFrom fault database keyPath 0 keyIds.items

/-! ## Writing -/

section

/- how the key id of the path is taken from the ids along it -/
variable (lastId : Vec Nat maxObjectDepth → Nat)

variable (daemon : Ggconfigd) (keyPath : List Buffer)

/-- The part of `ggconfig_write_value_at_key` for a path that does not fully
exist.  The result of `value_insert` is not checked. -/
def writeNewKey (value : Buffer) (timestamp : Int) : Except GglError Unit × Ggconfigd :=
  match createKeyPath fault daemon.configDatabase keyPath with
  | .error error => (.error error, daemon)
  | .ok (ids, created) =>
    let database :=
      match valueInsert fault created (lastId ids) value timestamp with
      | .ok database => database
      | .error _ => created
    (.ok (),
      { daemon with
        configDatabase := database
        responses := daemon.responses ++ notifyNestedKey fault database keyPath ids })

/-- The part of `ggconfig_write_value_at_key` for a path that fully exists. -/
def writeExistingKey (ids : Vec Nat maxObjectDepth) (value : Buffer) (timestamp : Int) :
    Except GglError Unit × Ggconfigd :=
  match childIsPresentForKey fault daemon.configDatabase (lastId ids) with
  | .error error => (.error error, daemon)
  | .ok true => (.error .failure, daemon)
  | .ok false =>
    match valueGetTimestamp fault daemon.configDatabase (lastId ids) with
    | .error error => (.error error, daemon)
    | .ok existingTimestamp =>
      if existingTimestamp > timestamp then
        (.ok (), daemon)
      else
        match valueUpdate fault daemon.configDatabase (lastId ids) value timestamp with
        | .error error => (.error error, daemon)
        | .ok database =>
          (.ok (),
            { daemon with
              configDatabase := database
              responses := daemon.responses ++ notifyNestedKey fault database keyPath ids })

/-- `ggconfig_write_value_at_key`. -/
def writeValueAtKeyBy (value : Buffer) (timestamp : Int) : Except GglError Unit × Ggconfigd :=
  if daemon.configInitialized = false then
    (.error .failure, daemon)
  else
    match getKeyIds fault daemon.configDatabase keyPath with
    | .error .noentry => writeNewKey fault lastId daemon keyPath value timestamp
    | .error error => (.error error, daemon)
    | .ok ids => writeExistingKey fault lastId daemon keyPath ids value timestamp

@[inherit_doc writeValueAtKeyBy]
def ggconfigWriteValueAtKey : List Buffer → Buffer → Int → Except GglError Unit × Ggconfigd :=
  writeValueAtKeyBy fault lastKeyId daemon

end

/-! ## Reading -/

/-- `sizeof(GglKV)` and `alignof(GglKV)` on a 64-bit host. -/
def kvSize : Nat := 40

@[inherit_doc kvSize]
def kvAlign : Nat := 8

/-- `read_value_at_key`. -/
def readValueAtKey (keyId : Nat) (alloc : BumpAlloc) : Except GglError GglObject × BumpAlloc :=
  match execute fault (.readValue keyId) (.ok (database.readValue keyId)) with
  | .error error => (.error error, alloc)
  | .ok [] => (.error .noentry, alloc)
  | .ok (value :: _) =>
    match gglAllocn 64 alloc 1 1 value.length with
    | none => (.error .nomem, alloc)
    | some alloc => (.ok (.buf value), alloc)

/-- The second loop of `read_key_recursive`.  The error of the recursive call
is ignored, and leaves the child with the null object it was initialised to. -/
def readChildren (read : Nat → BumpAlloc → Except GglError GglObject × BumpAlloc)
    {count : Nat} : Vec (Buffer × GglObject) count → List (Nat × Buffer) → BumpAlloc →
      Except GglError GglObject × BumpAlloc
  | kvs, [], alloc => (.ok (.map kvs.items), alloc)
  | kvs, (childKeyId, childKeyName) :: rows, alloc =>
    match gglAllocn 64 alloc 1 1 childKeyName.length with
    | none => (.error .nomem, alloc)
    | some alloc =>
      let child := read childKeyId alloc
      let value := match child.1 with
        | .ok value => value
        | .error _ => .null
      match gglKvVecPush kvs (childKeyName, value) with
      | .error error => (.error error, child.2)
      | .ok kvs => readChildren read kvs rows child.2

/-- `read_key_recursive`.  `fuel` bounds the depth of the recursion, which the
source leaves to the depth of the tree. -/
def readKeyRecursive : Nat → Nat → BumpAlloc → Except GglError GglObject × BumpAlloc
  | 0, _, alloc => (.error .fatal, alloc)
  | fuel + 1, keyId, alloc =>
    match valueIsPresentForKey fault (.readPresent keyId) database keyId with
    | .error error => (.error error, alloc)
    | .ok true => readValueAtKey fault database keyId alloc
    | .ok false =>
      let childrenCount :=
        (stepRows fault (.countChildren keyId) 0 (database.getChildren keyId)).1.length
      if childrenCount = 0 then
        (.error .failure, alloc)
      else
        match gglAllocn 64 alloc kvSize kvAlign childrenCount with
        | none => (.error .nomem, alloc)
        | some alloc =>
          readChildren (readKeyRecursive fuel)
            (Vec.empty (Buffer × GglObject) childrenCount)
            (stepRows fault (.getChildren keyId) 0 (database.getChildren keyId)).1 alloc

section

variable (lastId : Vec Nat maxObjectDepth → Nat) (daemon : Ggconfigd)

/-- `ggconfig_get_value_from_key` with `memory` bytes of read memory.  Reading
changes nothing, so only the answer is returned.  A chain of keys is no longer
than the key table. -/
def getValueFromKeyBy (memory : Nat) (keyPath : List Buffer) : Except GglError GglObject :=
  if daemon.configInitialized = false then
    .error .failure
  else
    match getKeyIds fault daemon.configDatabase keyPath with
    | .error error => .error error
    | .ok ids =>
      (readKeyRecursive fault daemon.configDatabase
        (daemon.configDatabase.sequence + 1) (lastId ids) (gglBumpAllocInit memory)).1

@[inherit_doc getValueFromKeyBy]
def ggconfigGetValueFromKey : Nat → List Buffer → Except GglError GglObject :=
  getValueFromKeyBy fault lastKeyId daemon

/-! ## Subscribing -/

/-- `ggconfig_get_key_notification`. -/
def getKeyNotificationBy (keyPath : List Buffer) (handle : UInt32) :
    Except GglError Unit × Ggconfigd :=
  if daemon.configInitialized = false then
    (.error .failure, daemon)
  else
    match getKeyIds fault daemon.configDatabase keyPath with
    | .error error => (.error error, daemon)
    | .ok ids =>
      match execute fault .addSubscription
          (.ok (daemon.configDatabase.addSubscription (lastId ids) handle)) with
      | .error _ => (.error .failure, daemon)
      | .ok database => (.ok (), { daemon with configDatabase := database })

@[inherit_doc getKeyNotificationBy]
def ggconfigGetKeyNotification : List Buffer → UInt32 → Except GglError Unit × Ggconfigd :=
  getKeyNotificationBy fault lastKeyId daemon

end

end GreengrassLite.Config

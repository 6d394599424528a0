import GreengrassLite.Config.Write

/-!
# Runs of the configuration daemon

Histories of the three calls other daemons make: write a value, read a key and
subscribe to a key.  Every statement succeeds here.  The structural invariant
of the tables holds after every history, and is restated in terms of the raw
tables.
-/

namespace GreengrassLite.Config

open List Ggconfigd

/-- A call of `ggconfig_write_value_at_key`, of `ggconfig_get_value_from_key`
with the bytes of its read memory, or of `ggconfig_get_key_notification`. -/
inductive Call where
  | write (keyPath : List Buffer) (value : Buffer) (timestamp : Int)
  | read (keyPath : List Buffer) (memory : Nat)
  | subscribe (keyPath : List Buffer) (handle : UInt32)
  deriving DecidableEq, Repr

namespace Call

/-- The key path a call is about. -/
def keyPath : Call → List Buffer
  | write keyPath _ _ => keyPath
  | read keyPath _ => keyPath
  | subscribe keyPath _ => keyPath

/-- The path has one to fifteen keys. -/
def Valid (call : Call) : Prop :=
  call.keyPath ≠ [] ∧ call.keyPath.length ≤ maxObjectDepth

instance (call : Call) : Decidable call.Valid :=
  inferInstanceAs (Decidable (_ ∧ _))

/-- A write or a read. -/
def isAccess : Call → Bool
  | subscribe _ _ => false
  | _ => true

end Call

/-- What a call returns. -/
inductive Reply where
  | done (result : Except GglError Unit)
  | value (result : Except GglError GglObject)
  deriving Repr

/-- Serve one call. -/
def serve (daemon : Ggconfigd) : Call → Reply × Ggconfigd
  | .write keyPath value timestamp =>
    let outcome := ggconfigWriteValueAtKey noFault daemon keyPath value timestamp
    (.done outcome.1, outcome.2)
  | .read keyPath memory =>
    (.value (ggconfigGetValueFromKey noFault daemon memory keyPath), daemon)
  | .subscribe keyPath handle =>
    let outcome := ggconfigGetKeyNotification noFault daemon keyPath handle
    (.done outcome.1, outcome.2)

/-- Serve a history of calls. -/
def serveAll : Ggconfigd → List Call → List Reply × Ggconfigd
  | daemon, [] => ([], daemon)
  | daemon, call :: calls =>
    let served := serve daemon call
    let rest := serveAll served.2 calls
    (served.1 :: rest.1, rest.2)

/-- Serve one call, if the daemon survives its log line.  A subscription is logged
once its path is found. -/
def serveLogged (daemon : Ggconfigd) (call : Call) : Option (Reply × Ggconfigd) :=
  match call, (serve daemon call).1 with
  | .subscribe _ _, .done (.error _) => some (serve daemon call)
  | _, _ => daemon.logged call.keyPath (serve daemon call)

/-- Serve a history of calls, with their log lines. -/
def serveAllLogged : Ggconfigd → List Call → Option (List Reply × Ggconfigd)
  | daemon, [] => some ([], daemon)
  | daemon, call :: calls => do
    let served ← serveLogged daemon call
    let rest ← serveAllLogged served.2 calls
    some (served.1 :: rest.1, rest.2)

/-! ## The outcomes of subscribing -/

/-- The outcomes of subscribing to one key path. -/
inductive Subscribed (daemon : Ggconfigd) (keyPath : List Buffer) (handle : UInt32) :
    Except GglError Unit × Ggconfigd → Prop
  | added {id} : daemon.configDatabase.forest.Path none keyPath (some id) →
      Subscribed daemon keyPath handle
        (.ok (),
          { daemon with configDatabase := daemon.configDatabase.addSubscription id handle })
  | missing : (∀ id, ¬daemon.configDatabase.forest.Path none keyPath (some id)) →
      Subscribed daemon keyPath handle (.error .noentry, daemon)

variable {daemon : Ggconfigd} {keyPath : List Buffer}

theorem ggconfigGetKeyNotification_subscribed (isOpen : daemon.configInitialized = true)
    (wf : daemon.configDatabase.Wf) (nonempty : keyPath ≠ [])
    (short : keyPath.length ≤ maxObjectDepth) (handle : UInt32) :
    Subscribed daemon keyPath handle
      (ggconfigGetKeyNotification noFault daemon keyPath handle) := by
  rw [ggconfigGetKeyNotification, getKeyNotificationBy, if_neg (by simp [isOpen])]
  by_cases exists_trail : ∃ ids, daemon.configDatabase.forest.Trail none keyPath ids
  · obtain ⟨idList, trail⟩ := exists_trail
    obtain ⟨ids, found, rfl⟩ := getKeyIds_of_trail wf short trail
    simp only [found, execute_noFault]
    exact Subscribed.added (lastKeyId_of_trail nonempty trail)
  · simp only [getKeyIds_of_no_trail wf short exists_trail]
    refine Subscribed.missing fun id reached => ?_
    exact exists_trail reached.exists_trail

theorem Database.Wf.addSubscription {database : Database} (wf : database.Wf) {id : Nat}
    (reached : database.forest.Path none keyPath (some id)) (handle : UInt32) :
    (database.addSubscription id handle).Wf where
  forest := wf.forest
  keys_nodup := wf.keys_nodup
  relations_nodup := wf.relations_nodup
  values_nodup := wf.values_nodup
  issued := wf.issued
  valued := wf.valued
  subscribed row member := by
    rcases mem_append.mp member with old | new
    · exact wf.subscribed row old
    · obtain rfl := mem_singleton.mp new
      exact Database.path_labelled reached
  exclusive := wf.exclusive

theorem Database.Inv.addSubscription {database : Database} (inv : database.Inv) {id : Nat}
    (reached : database.forest.Path none keyPath (some id)) (handle : UInt32) :
    (database.addSubscription id handle).Inv where
  toWf := inv.toWf.addSubscription reached handle
  complete := inv.complete

/-! ## The invariant over histories -/

/-- An open daemon whose tables satisfy the structural invariant. -/
structure Ggconfigd.Inv (daemon : Ggconfigd) : Prop where
  isOpen : daemon.configInitialized = true
  tables : daemon.configDatabase.Inv

theorem Ggconfigd.inv_opened : opened.Inv :=
  ⟨rfl, Database.inv_created⟩

variable {outcome : Except GglError Unit × Ggconfigd}

theorem Written.daemon_inv {value : Buffer} {timestamp : Int}
    (written : Written daemon keyPath value timestamp outcome) (inv : daemon.Inv)
    (nonempty : keyPath ≠ []) : outcome.2.Inv :=
  ⟨written.configInitialized.trans inv.isOpen, written.inv inv.tables nonempty⟩

theorem Subscribed.daemon_inv {handle : UInt32}
    (subscribed : Subscribed daemon keyPath handle outcome) (inv : daemon.Inv) : outcome.2.Inv := by
  cases subscribed with
  | added reached => exact ⟨inv.isOpen, inv.tables.addSubscription reached handle⟩
  | missing => exact inv

/-- Serving one call keeps the invariant. -/
theorem serve_inv (inv : daemon.Inv) {call : Call} (valid : call.Valid) :
    (serve daemon call).2.Inv := by
  obtain ⟨nonempty, short⟩ := valid
  cases call with
  | write keyPath value timestamp =>
    exact (ggconfigWriteValueAtKey_written inv.isOpen inv.tables.toWf nonempty short).daemon_inv
      inv nonempty
  | read keyPath memory => exact inv
  | subscribe keyPath handle =>
    exact (ggconfigGetKeyNotification_subscribed inv.isOpen inv.tables.toWf nonempty short
      handle).daemon_inv inv

/-- Serving a history keeps the invariant. -/
theorem serveAll_inv (inv : daemon.Inv) {calls : List Call}
    (valid : ∀ call ∈ calls, call.Valid) : (serveAll daemon calls).2.Inv := by
  induction calls generalizing daemon with
  | nil => exact inv
  | cons call calls ih =>
    have served := serve_inv inv (valid call mem_cons_self)
    exact ih served fun other member => valid other (mem_cons_of_mem call member)

theorem serveLogged_access (isOpen : daemon.configInitialized = true) {call : Call}
    (access : call.isAccess = true) :
    serveLogged daemon call =
      if Printable call.keyPath then some (serve daemon call) else none := by
  cases call with
  | subscribe => cases access
  | _ => simp [serveLogged, serve, Ggconfigd.logged, isOpen, ite_not]

/-- A history of reads and writes is served to its end exactly if every path can be printed. -/
theorem serveAllLogged_accesses (inv : daemon.Inv) {calls : List Call}
    (valid : ∀ call ∈ calls, call.Valid) (accesses : ∀ call ∈ calls, call.isAccess = true) :
    serveAllLogged daemon calls =
      if ∀ call ∈ calls, Printable call.keyPath then some (serveAll daemon calls) else none := by
  induction calls generalizing daemon with
  | nil => simp [serveAllLogged, serveAll]
  | cons call calls ih =>
    rw [forall_mem_cons] at valid accesses
    rw [serveAllLogged, serveLogged_access inv.isOpen accesses.1]
    by_cases printable : Printable call.keyPath
    · have rest := ih (serve_inv inv valid.1) valid.2 accesses.2
      simp only [printable, forall_mem_cons, true_and, if_true, Option.bind_eq_bind,
        Option.bind_some, rest]
      split <;> rfl
    · simp [printable]

/-! ## The invariant in terms of the tables -/

/-- The structure of the configuration tables, row by row. -/
structure Database.Structured (database : Database) : Prop where
  /-- No two root keys share a name. -/
  roots_distinct : ((database.keyTable.filter fun row =>
    database.isRoot row.keyid).map KeyRow.keyvalue).Nodup
  /-- No two children of one parent share a name. -/
  siblings_distinct : ∀ parentid, ((database.getChildren parentid).map Prod.snd).Nodup
  /-- Every key has at most one parent. -/
  parents_unique : (database.relationTable.map RelationRow.keyid).Nodup
  /-- No key is above itself. -/
  acyclic : ∀ keyid, ¬Relation.TransGen
    (fun below above => ⟨below, above⟩ ∈ database.relationTable) keyid keyid
  /-- No key has both a value and a child. -/
  exclusive : ∀ keyid, database.hasChild keyid = true → database.valuePresent keyid = []
  /-- Every childless key has exactly one value row. -/
  childless_valued : ∀ row ∈ database.keyTable, database.hasChild row.keyid = false →
    (database.valuePresent row.keyid).length = 1

namespace Database

variable {database : Database}

theorem Wf.roots_distinct (wf : database.Wf) :
    ((database.keyTable.filter fun row =>
      database.isRoot row.keyid).map KeyRow.keyvalue).Nodup := by
  have distinct : (database.keyTable.filter fun row =>
      database.isRoot row.keyid).Pairwise fun first second => first.keyid ≠ second.keyid :=
    (pairwise_map.mp wf.keys_nodup).sublist filter_sublist
  refine pairwise_map.mpr (distinct.imp_of_mem ?_)
  intro first second firstMember secondMember different sameName
  obtain ⟨firstRow, firstRoot⟩ := mem_filter.mp firstMember
  obtain ⟨secondRow, secondRoot⟩ := mem_filter.mp secondMember
  have firstChild : database.forest.Child none first.keyvalue first.keyid :=
    ⟨firstRow, isRoot_iff.mp firstRoot⟩
  have secondChild : database.forest.Child none first.keyvalue second.keyid :=
    ⟨sameName ▸ secondRow, isRoot_iff.mp secondRoot⟩
  exact different (wf.forest.sibling_unique firstChild secondChild)

theorem Wf.siblings_distinct (wf : database.Wf) (parentid : Nat) :
    ((database.getChildren parentid).map Prod.snd).Nodup := by
  have distinct := pairwise_map.mp (getChildren_keyids_nodup wf parentid)
  refine pairwise_map.mpr (distinct.imp_of_mem ?_)
  rintro ⟨firstId, firstName⟩ ⟨secondId, secondName⟩ firstMember secondMember different sameName
  obtain rfl : firstName = secondName := sameName
  exact different (wf.forest.sibling_unique (mem_getChildren_iff.mp firstMember)
    (mem_getChildren_iff.mp secondMember))

theorem Wf.valuePresent_length_le (wf : database.Wf) (keyid : Nat) :
    (database.valuePresent keyid).length ≤ 1 := by
  have nodup : (database.valuePresent keyid).Nodup :=
    wf.values_nodup.sublist (filter_sublist.map _)
  have equal : ∀ pid ∈ database.valuePresent keyid, pid = keyid :=
    fun pid member => (holds_of_mem_valuePresent member).1
  rw [eq_replicate_of_mem equal, nodup_replicate] at nodup
  exact nodup

/-- The structural invariant gives the structure of the tables. -/
theorem Inv.structured (inv : database.Inv) : database.Structured where
  roots_distinct := inv.roots_distinct
  siblings_distinct := inv.siblings_distinct
  parents_unique := inv.relations_nodup
  acyclic := inv.forest.acyclic
  exclusive keyid hasChild := by
    obtain ⟨child, edge⟩ := hasChild_iff.mp hasChild
    rw [valuePresent_eq_nil_iff]
    rintro ⟨row, member, rfl⟩
    exact inv.exclusive row member child edge
  childless_valued row member noChild := by
    have childless : ∀ child, ¬database.forest.edge child row.keyid := by
      intro child edge
      rw [hasChild_iff.mpr ⟨child, edge⟩] at noChild
      cases noChild
    have holds := inv.complete row.keyid row.keyvalue member childless
    have nonempty : database.valuePresent row.keyid ≠ [] :=
      fun none => valuePresent_eq_nil_iff.mp none holds
    have positive := length_pos_iff.mpr nonempty
    have bound := inv.valuePresent_length_le row.keyid
    omega

end Database

/-- After every history the tables are a forest of uniquely named siblings in
which exactly the childless keys hold a value. -/
theorem structured_serveAll (calls : List Call) (valid : ∀ call ∈ calls, call.Valid) :
    (serveAll opened calls).2.configDatabase.Structured :=
  (serveAll_inv inv_opened valid).tables.structured

/-- Two nested writes, a rejected write above them and three subscriptions. -/
def nestedCalls : List Call :=
  [.write [gglStr "a", gglStr "b"] (gglStr "1") 5,
    .write [gglStr "a", gglStr "c"] (gglStr "2") 5,
    .write [gglStr "a"] (gglStr "3") 9,
    .subscribe [gglStr "a"] 7,
    .subscribe [gglStr "a", gglStr "b"] 8,
    .subscribe [gglStr "a", gglStr "c"] 9]

theorem structured_serveAll_nested :
    (serveAll opened nestedCalls).2.configDatabase.Structured :=
  structured_serveAll nestedCalls (by decide)

end GreengrassLite.Config

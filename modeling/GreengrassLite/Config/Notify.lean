import GreengrassLite.Config.Invariant

/-!
# Notifications

`notify_nested_key` looks the subscribers of every key on the written path up
by key id.  Over a whole history the subscriber rows are the successful
subscriptions, addressed by key path, so an accepted write answers exactly the
subscriptions to a nonempty prefix of its path.
-/

namespace GreengrassLite.Config

open GreengrassLite.Library List Ggconfigd

/-- The subscription a call registers, if it is one that succeeds. -/
def subscription : Call → Reply → List (List Buffer × UInt32)
  | .subscribe keyPath handle, .done (.ok ()) => [(keyPath, handle)]
  | _, _ => []

/-- The subscriptions a history registers, in order. -/
def subscriptions : Ggconfigd → List Call → List (List Buffer × UInt32)
  | _, [] => []
  | daemon, call :: calls =>
    let served := serve daemon call
    subscription call served.1 ++ subscriptions served.2 calls

/-- The subscriber rows are these subscriptions, each on the key its path
leads to. -/
def Database.Registered (database : Database) (registered : List (List Buffer × UInt32)) :
    Prop :=
  List.Forall₂ (fun (row : SubscriberRow) subscription =>
    row.handle = subscription.2 ∧
      database.forest.Path none subscription.1 (some row.keyid))
    database.subscriberTable registered

/-- A write is stale if its path stores a newer value. -/
def Ggconfigd.Stale (daemon : Ggconfigd) (keyPath : List Buffer) (timestamp : Int) : Prop :=
  ∃ existing existingTimestamp,
    daemon.configDatabase.Stored keyPath existing existingTimestamp ∧
      timestamp < existingTimestamp

namespace Database

variable {database : Database} {registered : List (List Buffer × UInt32)}

/-- Subscriptions stay registered when the rows stay and paths keep their
keys. -/
theorem Registered.of_keep (rows : database.Registered registered) {changed : Database}
    (sameRows : changed.subscriberTable = database.subscriberTable)
    (keep : ∀ path keyid, database.forest.Path none path (some keyid) →
      changed.forest.Path none path (some keyid)) :
    changed.Registered registered := by
  rw [Registered, sameRows]
  refine List.Forall₂.imp ?_ rows
  rintro row subscription ⟨sameHandle, reached⟩
  exact ⟨sameHandle, keep _ _ reached⟩

theorem Registered.addSubscription (rows : database.Registered registered)
    {keyPath : List Buffer} {id : Nat} (handle : UInt32)
    (reached : database.forest.Path none keyPath (some id)) :
    (database.addSubscription id handle).Registered (registered ++ [(keyPath, handle)]) :=
  rel_append rows (List.Forall₂.cons ⟨rfl, reached⟩ List.Forall₂.nil)

/-- The rows on one key are the subscriptions to the path of that key. -/
theorem Registered.handles_eq (wf : database.Wf) (rows : database.Registered registered)
    {path : List Buffer} {id : Nat} (reached : database.forest.Path none path (some id)) :
    (database.subscriberTable.filter fun row => row.keyid = id).map SubscriberRow.handle =
      (registered.filter fun subscription => subscription.1 = path).map Prod.snd := by
  unfold Registered at rows
  generalize database.subscriberTable = table at rows ⊢
  induction rows with
  | nil => rfl
  | @cons row subscription _ _ related _ ih =>
    obtain ⟨sameHandle, rowPath⟩ := related
    by_cases onKey : row.keyid = id
    · have onPath : subscription.1 = path :=
        (onKey ▸ rowPath).labels_unique wf.forest reached
      rw [filter_cons_of_pos (by simpa using onKey),
        filter_cons_of_pos (by simpa using onPath), map_cons, map_cons, ih,
        sameHandle]
    · have offPath : subscription.1 ≠ path := by
        rintro rfl
        exact onKey (rowPath.node_unique wf.forest reached)
      rw [filter_cons_of_neg (by simpa using onKey),
        filter_cons_of_neg (by simpa using offPath), ih]

/-- `get_subscribers.sql` answers the handles of the rows on a key. -/
theorem getSubscribers_eq (wf : database.Wf) {id : Nat} {name : Buffer}
    (labelled : database.forest.label id name) :
    database.getSubscribers id =
      (database.subscriberTable.filter fun row => row.keyid = id).map SubscriberRow.handle := by
  have joined : ∀ row : SubscriberRow, (database.keyTable.filter fun key =>
      row.keyid = key.keyid ∧ key.keyid = id) = if row.keyid = id then [⟨id, name⟩] else [] := by
    intro row
    by_cases onKey : row.keyid = id
    · rw [if_pos onKey, ← filter_eq_singleton wf.keys_nodup labelled]
      refine filter_congr fun key _ => ?_
      by_cases sameKey : key.keyid = id <;> simp [sameKey, onKey]
    · rw [if_neg onKey]
      refine filter_eq_nil_iff.mpr fun key _ => ?_
      simp only [decide_eq_true_eq]
      rintro ⟨sameKey, keyEq⟩
      exact onKey (sameKey.trans keyEq)
  simp only [getSubscribers, joined]
  induction database.subscriberTable with
  | nil => rfl
  | cons row rows ih =>
    rw [flatMap_cons, ih]
    by_cases onKey : row.keyid = id <;> simp [onKey]

end Database

/-! ## The responses of one write -/

@[simp]
theorem notifyNestedKeyFrom_noFault (database : Database) (keyPath : List Buffer) (index : Nat)
    (ids : List Nat) :
    notifyNestedKeyFrom noFault database keyPath index ids =
      ids.flatMap fun id => (database.getSubscribers id).map fun handle => ⟨handle, keyPath⟩ := by
  induction ids generalizing index with
  | nil => rfl
  | cons id ids ih =>
    rw [notifyNestedKeyFrom, ih, flatMap_cons, notifySingleKey, stepRows_noFault]

/-- One response for each registered subscription to a nonempty prefix of the
path, the prefixes taken by length. -/
def pathResponses (registered : List (List Buffer × UInt32)) (keyPath : List Buffer) :
    List SubResponse :=
  keyPath.inits.tail.flatMap fun path =>
    (registered.filter fun subscription => subscription.1 = path).map
      fun subscription => ⟨subscription.2, keyPath⟩

theorem notifyNestedKey_eq {database : Database} (wf : database.Wf)
    {registered : List (List Buffer × UInt32)} (rows : database.Registered registered)
    {keyPath : List Buffer} {ids : Vec Nat maxObjectDepth}
    (trail : database.forest.Trail none keyPath ids.items) :
    notifyNestedKey noFault database keyPath ids = pathResponses registered keyPath := by
  rw [notifyNestedKey, notifyNestedKeyFrom_noFault]
  refine trail.flatMap_eq (Forest.Path.nil none) _
    (fun path => (registered.filter fun subscription => subscription.1 = path).map
      fun subscription => SubResponse.mk subscription.2 keyPath) ?_
  intro path id reached
  obtain ⟨name, labelled⟩ := Database.path_labelled reached
  rw [Database.getSubscribers_eq wf labelled, rows.handles_eq wf reached, map_map]
  rfl

variable {daemon : Ggconfigd} {keyPath : List Buffer} {value : Buffer} {timestamp : Int}
  {outcome : Except GglError Unit × Ggconfigd} {registered : List (List Buffer × UInt32)}

section

variable (written : Written daemon keyPath value timestamp outcome)

include written

/-- A write keeps every registered subscription. -/
theorem Written.keeps_registered (rows : daemon.configDatabase.Registered registered) :
    outcome.2.configDatabase.Registered registered := by
  cases written with
  | inserted _ _ grown _ => exact rows.of_keep grown.subscribers grown.keep
  | valueAbove | childBelow | valueless | stale => exact rows
  | updated => exact rows.of_keep rfl fun _ _ reached => reached

/-- A rejected or stale write leaves the daemon as it was. -/
theorem Written.unchanged (wf : daemon.configDatabase.Wf) (nonempty : keyPath ≠ [])
    (ignored : outcome.1 ≠ .ok () ∨ daemon.Stale keyPath timestamp) : outcome.2 = daemon := by
  cases written with
  | inserted absent =>
    rcases ignored with rejected | ⟨existing, existingTimestamp, ⟨id, reached, _⟩, _⟩
    · exact absurd rfl rejected
    · exact absurd reached (absent id)
  | valueAbove | childBelow | valueless | stale => rfl
  | @updated ids existing existingTimestamp trail member notNewer =>
    rcases ignored with rejected | ⟨other, otherTimestamp, stored, newer⟩
    · exact absurd rfl rejected
    · have here : daemon.configDatabase.Stored keyPath existing existingTimestamp :=
        ⟨_, lastKeyId_of_trail nonempty trail, member⟩
      have sameTime := (here.unique wf stored).2
      omega

/-- An accepted write sends the responses of its path. -/
theorem Written.responses (inv : daemon.configDatabase.Inv) (nonempty : keyPath ≠ [])
    (rows : daemon.configDatabase.Registered registered) (accepted : outcome.1 = .ok ())
    (fresh : ¬daemon.Stale keyPath timestamp) :
    outcome.2.responses = daemon.responses ++ pathResponses registered keyPath := by
  have kept := written.keeps_registered rows
  have keptInv := written.inv inv nonempty
  cases written with
  | inserted _ _ _ trail | updated trail =>
    exact congrArg _ (notifyNestedKey_eq keptInv.toWf kept trail)
  | valueAbove | childBelow | valueless => cases accepted
  | stale reached member newer => exact absurd ⟨_, _, ⟨_, reached, member⟩, newer⟩ fresh

end

/-! ## Whole histories -/

/-- Serving one call adds the subscription it registers. -/
theorem registered_serve (inv : daemon.Inv)
    (rows : daemon.configDatabase.Registered registered) {call : Call} (valid : call.Valid) :
    (serve daemon call).2.configDatabase.Registered
      (registered ++ subscription call (serve daemon call).1) := by
  obtain ⟨nonempty, short⟩ := valid
  cases call with
  | write keyPath value timestamp =>
    have written : Written daemon keyPath value timestamp _ :=
      ggconfigWriteValueAtKey_written inv.isOpen inv.tables.toWf nonempty short
    simpa [subscription, serve] using written.keeps_registered rows
  | read keyPath memory => simpa [subscription, serve] using rows
  | subscribe keyPath handle =>
    have subscribed : Subscribed daemon keyPath handle
        (ggconfigGetKeyNotification noFault daemon keyPath handle) :=
      ggconfigGetKeyNotification_subscribed inv.isOpen inv.tables.toWf nonempty short handle
    rw [serve]
    generalize ggconfigGetKeyNotification noFault daemon keyPath handle = outcome
      at subscribed
    cases subscribed with
    | added reached => exact rows.addSubscription handle reached
    | missing => simpa [subscription] using rows

/-- The subscriber rows after a history are the subscriptions it registered. -/
theorem registered_serveAll (inv : daemon.Inv)
    (rows : daemon.configDatabase.Registered registered) {calls : List Call}
    (valid : ∀ call ∈ calls, call.Valid) :
    (serveAll daemon calls).2.configDatabase.Registered
      (registered ++ subscriptions daemon calls) := by
  induction calls generalizing daemon registered with
  | nil => simpa [subscriptions, serveAll] using rows
  | cons call calls ih =>
    have callValid := valid call mem_cons_self
    have rest : ∀ other ∈ calls, other.Valid :=
      fun other member => valid other (mem_cons_of_mem call member)
    rw [subscriptions, ← append_assoc]
    exact ih (serve_inv inv callValid) (registered_serve inv rows callValid) rest

/-- After every history a rejected or stale write sends nothing and changes
nothing, and every other write sends, for each key on its path, exactly one
response with the full path to each subscription registered on that key. -/
theorem write_responses (calls : List Call) (valid : ∀ call ∈ calls, call.Valid)
    (keyPath : List Buffer) (value : Buffer) (timestamp : Int) (nonempty : keyPath ≠ [])
    (short : keyPath.length ≤ maxObjectDepth) :
    let daemon := (serveAll opened calls).2
    let outcome := ggconfigWriteValueAtKey noFault daemon keyPath value timestamp
    let ignored := outcome.1 ≠ .ok () ∨ daemon.Stale keyPath timestamp
    (ignored → outcome.2 = daemon) ∧
      (¬ignored → outcome.2.responses =
        daemon.responses ++ pathResponses (subscriptions opened calls) keyPath) := by
  intro daemon outcome ignored
  have inv : daemon.Inv := serveAll_inv inv_opened valid
  have rows : daemon.configDatabase.Registered (subscriptions opened calls) :=
    registered_serveAll inv_opened List.Forall₂.nil valid
  have written : Written daemon keyPath value timestamp outcome :=
    ggconfigWriteValueAtKey_written inv.isOpen inv.tables.toWf nonempty short
  constructor
  · exact written.unchanged inv.tables.toWf nonempty
  · intro accepted
    obtain ⟨notRejected, notStale⟩ := not_or.mp accepted
    exact written.responses inv.tables nonempty rows (not_not.mp notRejected) notStale

/-- A newer write below one subscribed key answers the two subscriptions on
its path. -/
theorem write_responses_nested :
    pathResponses (subscriptions opened nestedCalls) [gglStr "a", gglStr "b"] =
        [⟨7, [gglStr "a", gglStr "b"]⟩, ⟨8, [gglStr "a", gglStr "b"]⟩] ∧
      let daemon := (serveAll opened nestedCalls).2
      let outcome := ggconfigWriteValueAtKey noFault daemon [gglStr "a", gglStr "b"]
        (gglStr "4") 6
      let ignored := outcome.1 ≠ .ok () ∨ daemon.Stale [gglStr "a", gglStr "b"] 6
      (ignored → outcome.2 = daemon) ∧
        (¬ignored → outcome.2.responses = daemon.responses ++
          pathResponses (subscriptions opened nestedCalls)
            [gglStr "a", gglStr "b"]) :=
  ⟨by decide, write_responses nestedCalls (by decide) _ _ _ (by decide) (by decide)⟩

end GreengrassLite.Config

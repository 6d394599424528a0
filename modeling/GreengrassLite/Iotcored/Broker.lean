import GreengrassLite.Iotcored.Dispatch

/-!
# Subscriptions at the broker

Several clients may subscribe to one topic filter, and the broker knows it once.  When a
client goes away, `iotcored_unregister_subscriptions` sends an UNSUBSCRIBE for each of its
filters that no other entry of the table has; after a reconnect, which starts a clean
session, `iotcored_re_register_all_subs` subscribes to the filters of all entries again.

An entry is free when its filter is empty, but it keeps the handle of its last client.
Entries are found by their handle when a client goes away, so free ones are found as well,
and an UNSUBSCRIBE is sent for the empty filter.

Requests, closed connections and reconnects follow each other here; the threads they run
on are modeled in `Iotcored.Dispatch`.  The assertion of `iotcored_mqtt_subscribe`, which
refuses ten filters in one request, is left out.
-/

namespace GreengrassLite

open List Function

variable {maxSubscriptions : Nat}

/-! ## The table -/

namespace SubscriptionTable

variable (table : SubscriptionTable maxSubscriptions) (slot : Fin maxSubscriptions)

/-- The entry becomes free and keeps its handle. -/
def free : SubscriptionTable maxSubscriptions :=
  { table with topicFilters := update table.topicFilters slot [] }

/-- The inner loop of `iotcored_unregister_subscriptions`, which looks for another entry with
the same filter. -/
def hasDuplicate : Bool :=
  (finRange maxSubscriptions).any fun other =>
    other ≠ slot ∧ table.topicFilters other ≠ [] ∧
      table.topicFilters slot = table.topicFilters other

variable (handle : UInt32) (unsubscribe : Bool)

/-- The outer loop of `iotcored_unregister_subscriptions`, with the filters it sends an
UNSUBSCRIBE for. -/
def unregisterLoop : List (Fin maxSubscriptions) → SubscriptionTable maxSubscriptions →
      List Buffer × SubscriptionTable maxSubscriptions
  | [], table => ([], table)
  | slot :: slots, table =>
    if table.handles slot = handle then
      let rest := unregisterLoop slots (table.free slot)
      if unsubscribe ∧ ¬table.hasDuplicate slot then
        (table.topicFilters slot :: rest.1, rest.2)
      else rest
    else unregisterLoop slots table

/-- `iotcored_unregister_subscriptions`. -/
def unregisterSubscriptions : List Buffer × SubscriptionTable maxSubscriptions :=
  unregisterLoop handle unsubscribe (finRange maxSubscriptions) table

/-- `iotcored_register_subscriptions`. -/
def registerSubscriptions (topicFilters : List Buffer) (handle : UInt32) :
    Except GglError Unit × SubscriptionTable maxSubscriptions :=
  if topicFilters.any fun topicFilter => topicFilter.length = 0 then (.error .invalid, table)
  else if topicFilters.any fun topicFilter => topicFilter.length > awsIotMaxTopicSize then
    (.error .range, table)
  else
    match table.register topicFilters handle with
    | (true, filled) => (.ok (), filled)
    | (false, cleared) => (.error .nomem, cleared)

variable (answers : Fin maxSubscriptions → Bool)

/-- The loop of `iotcored_re_register_all_subs`, with the filters it subscribes to; the
answers are the results of `iotcored_mqtt_subscribe`. -/
def reRegisterLoop : List (Fin maxSubscriptions) → SubscriptionTable maxSubscriptions →
      List Buffer × SubscriptionTable maxSubscriptions
  | [], table => ([], table)
  | slot :: slots, table =>
    if table.topicFilters slot = [] then reRegisterLoop slots table
    else if answers slot then
      let rest := reRegisterLoop slots table
      (table.topicFilters slot :: rest.1, rest.2)
    else reRegisterLoop slots (table.free slot)

/-- `iotcored_re_register_all_subs`. -/
def reRegisterAllSubs : List Buffer × SubscriptionTable maxSubscriptions :=
  reRegisterLoop answers (finRange maxSubscriptions) table

end SubscriptionTable

/-! ## The daemon and the broker -/

/-- What the daemon and the broker know. -/
structure BrokerWorld (maxSubscriptions : Nat) where
  table : SubscriptionTable maxSubscriptions
  /-- The handles of the connections that have `sub_close_callback`. -/
  accepted : List UInt32
  connected : Bool
  /-- The filters that are subscribed at the broker. -/
  subscribed : List Buffer

inductive BrokerEvent (maxSubscriptions : Nat) where
  /-- A request, with the result of `iotcored_mqtt_subscribe` in case it is called. -/
  | subscribe (params : GglMap) (handle : UInt32) (answer : Bool)
  | close (handle : UInt32)
  | disconnect
  /-- A new session, with the results of `iotcored_mqtt_subscribe` for the entries. -/
  | reconnect (answers : Fin maxSubscriptions → Bool)

namespace BrokerWorld

def initial (maxSubscriptions : Nat) : BrokerWorld maxSubscriptions :=
  ⟨⟨fun _ => [], fun _ => 0⟩, [], false, []⟩

variable (world : BrokerWorld maxSubscriptions)

/-- `rpc_subscribe`; without a connection `iotcored_mqtt_subscribe` fails. -/
def rpcSubscribe (params : GglMap) (handle : UInt32) (answer : Bool) :
    Except GglError Unit × BrokerWorld maxSubscriptions :=
  match subscribeTopicFilters params with
  | .error error => (.error error, world)
  | .ok topicFilters =>
    match world.table.registerSubscriptions topicFilters handle with
    | (.error error, table) => (.error error, { world with table := table })
    | (.ok (), table) =>
      if world.connected ∧ answer then
        (.ok (), ⟨table, handle :: world.accepted, world.connected,
          topicFilters ++ world.subscribed⟩)
      else
        (.error .failure,
          { world with table := (table.unregisterSubscriptions handle false).2 })

/-- A connection is closed, and its `sub_close_callback` runs if it has one. -/
def closeConnection (handle : UInt32) : List Buffer × BrokerWorld maxSubscriptions :=
  if handle ∈ world.accepted then
    let unregistered := world.table.unregisterSubscriptions handle true
    (unregistered.1, ⟨unregistered.2, world.accepted.filter (· ≠ handle), world.connected,
      world.subscribed.filter (· ∉ unregistered.1)⟩)
  else ([], world)

/-- The connection that an event closes, and what is known then; a request that fails closes
its connection. -/
def closing : BrokerEvent maxSubscriptions → Option (UInt32 × BrokerWorld maxSubscriptions)
  | .subscribe params handle answer =>
    match world.rpcSubscribe params handle answer with
    | (.ok (), _) => none
    | (.error _, next) => some (handle, next)
  | .close handle => some (handle, world)
  | .disconnect => none
  | .reconnect _ => none

/-- The filters that an UNSUBSCRIBE is sent for, and what is known afterwards. -/
def apply : BrokerEvent maxSubscriptions → List Buffer × BrokerWorld maxSubscriptions
  | .subscribe params handle answer =>
    match world.rpcSubscribe params handle answer with
    | (.ok (), next) => ([], next)
    | (.error _, next) => next.closeConnection handle
  | .close handle => world.closeConnection handle
  | .disconnect => ([], { world with connected := false })
  | .reconnect answers =>
    let registered := world.table.reRegisterAllSubs answers
    ([], ⟨registered.2, world.accepted, true, registered.1⟩)

end BrokerWorld

def BrokerStep (world : BrokerWorld maxSubscriptions) (event : BrokerEvent maxSubscriptions)
    (next : BrokerWorld maxSubscriptions) : Prop :=
  next = (world.apply event).2

/-! ## Entries of the table -/

namespace SubscriptionTable

variable {table next : SubscriptionTable maxSubscriptions} {handle : UInt32}
  {slot first : Fin maxSubscriptions} {slots : List (Fin maxSubscriptions)}
  {topicFilters : List Buffer} {topicFilter : Buffer} {other : Fin maxSubscriptions}
  {unsubscribe : Bool}

@[simp]
theorem free_of_ne (isOther : slot ≠ other) :
    (table.free other).topicFilters slot = table.topicFilters slot :=
  update_of_ne isOther _ _

@[simp]
theorem free_self : (table.free slot).topicFilters slot = [] :=
  update_self _ _ _

@[simp]
theorem clear_of_eq (isHandle : table.handles slot = handle) :
    (table.clear handle).topicFilters slot = [] :=
  if_pos isHandle

@[simp]
theorem clear_of_ne (isOther : table.handles slot ≠ handle) :
    (table.clear handle).topicFilters slot = table.topicFilters slot :=
  if_neg isOther

/-- An entry after `fill` is an entry from before, or one of the new filters. -/
theorem fill_entry (handle : UInt32) (slots : List (Fin maxSubscriptions))
    (topicFilters : List Buffer) (table : SubscriptionTable maxSubscriptions)
    (slot : Fin maxSubscriptions) :
    (fill handle slots topicFilters table).2.topicFilters slot = table.topicFilters slot ∧
        (fill handle slots topicFilters table).2.handles slot = table.handles slot ∨
      table.topicFilters slot = [] ∧
        (fill handle slots topicFilters table).2.handles slot = handle ∧
        (fill handle slots topicFilters table).2.topicFilters slot ∈ topicFilters := by
  fun_induction fill handle slots topicFilters table with
  | case1 | case2 => exact .inl ⟨rfl, rfl⟩
  | case3 first slots topicFilter remaining table isFree ih =>
    by_cases isFirst : slot = first
    · subst isFirst
      simp only [set, update_self] at ih
      rcases ih with ⟨sameFilter, isHandle⟩ | ⟨_, isHandle, isNew⟩
      · exact .inr ⟨isFree, isHandle, mem_cons.mpr (.inl sameFilter)⟩
      · exact .inr ⟨isFree, isHandle, mem_cons_of_mem _ isNew⟩
    · simp only [set, update_of_ne isFirst] at ih
      rcases ih with same | ⟨wasFree, isHandle, isNew⟩
      · exact .inl same
      · exact .inr ⟨wasFree, isHandle, mem_cons_of_mem _ isNew⟩
  | case4 _ _ _ _ _ _ ih => exact ih

theorem clear_entry (taken : (table.clear handle).topicFilters slot ≠ []) :
    table.handles slot ≠ handle ∧
      (table.clear handle).topicFilters slot = table.topicFilters slot := by
  have isOther : table.handles slot ≠ handle :=
    fun isHandle => taken (clear_of_eq isHandle)
  exact ⟨isOther, clear_of_ne isOther⟩

/-- What a failing request leaves are entries of other handles from before. -/
theorem clear_fill_entry (taken : ((fill handle slots topicFilters table).2.clear
      handle).topicFilters slot ≠ []) :
    table.handles slot ≠ handle ∧
      ((fill handle slots topicFilters table).2.clear handle).topicFilters slot =
        table.topicFilters slot ∧
      ((fill handle slots topicFilters table).2.clear handle).handles slot =
        table.handles slot := by
  rcases clear_entry taken with ⟨isOther, same⟩
  rcases fill_entry handle slots topicFilters table slot with
    ⟨kept, keptHandle⟩ | ⟨_, isHandle, _⟩
  · exact ⟨keptHandle ▸ isOther, same.trans kept, keptHandle⟩
  · exact absurd isHandle isOther

theorem registerSubscriptions_cases (table : SubscriptionTable maxSubscriptions)
    (topicFilters : List Buffer) (handle : UInt32) :
    table.registerSubscriptions topicFilters handle =
        (.ok (), (fill handle (finRange maxSubscriptions) topicFilters table).2) ∨
      ∃ error next, table.registerSubscriptions topicFilters handle = (.error error, next) ∧
        (next = table ∨
          next = (fill handle (finRange maxSubscriptions) topicFilters table).2.clear handle) := by
  unfold registerSubscriptions register
  split
  · exact .inr ⟨_, _, rfl, .inl rfl⟩
  split
  · exact .inr ⟨_, _, rfl, .inl rfl⟩
  rcases fill handle (finRange maxSubscriptions) topicFilters table with ⟨_ | _, filled⟩
  · exact .inl rfl
  · exact .inr ⟨_, _, rfl, .inr rfl⟩

@[simp]
theorem hasDuplicate_iff : table.hasDuplicate slot = true ↔
    ∃ other, other ≠ slot ∧ table.topicFilters other ≠ [] ∧
      table.topicFilters slot = table.topicFilters other := by
  simp [hasDuplicate]

/-! ## Closing the entries of a client -/

/-- One round of the loop for an entry of the client. -/
theorem unregisterLoop_cons_of_eq (isHandle : table.handles slot = handle) :
    unregisterLoop handle unsubscribe (slot :: slots) table =
      ((if unsubscribe ∧ ¬table.hasDuplicate slot then [table.topicFilters slot] else []) ++
          (unregisterLoop handle unsubscribe slots (table.free slot)).1,
        (unregisterLoop handle unsubscribe slots (table.free slot)).2) := by
  rw [unregisterLoop, if_pos isHandle]
  by_cases sends : unsubscribe ∧ ¬table.hasDuplicate slot
  · rw [if_pos sends, if_pos sends]
    rfl
  · rw [if_neg sends, if_neg sends]
    rfl

@[simp]
theorem unregisterLoop_cons_of_ne (isOther : table.handles slot ≠ handle) :
    unregisterLoop handle unsubscribe (slot :: slots) table =
      unregisterLoop handle unsubscribe slots table := by
  rw [unregisterLoop, if_neg isOther]

@[simp]
theorem unregisterLoop_table (unsubscribe : Bool) (slots : List (Fin maxSubscriptions))
    (table : SubscriptionTable maxSubscriptions) :
    (unregisterLoop handle unsubscribe slots table).2 =
      { table with
        topicFilters := fun slot =>
          if slot ∈ slots ∧ table.handles slot = handle then [] else table.topicFilters slot } := by
  induction slots generalizing table with
  | nil => simp [unregisterLoop]
  | cons first slots ih =>
    by_cases isHandle : table.handles first = handle
    · rw [unregisterLoop_cons_of_eq isHandle, ih]
      simp only [free, mem_cons, mk.injEq, and_true]
      funext slot
      by_cases isFirst : slot = first <;> simp [isFirst, isHandle]
    · rw [unregisterLoop_cons_of_ne isHandle, ih]
      simp only [mem_cons, mk.injEq, and_true]
      funext slot
      by_cases isFirst : slot = first <;> simp [isFirst, isHandle]

/-- The entries of the client become free, as in the program of the server thread. -/
@[simp]
theorem unregisterSubscriptions_table (unsubscribe : Bool) :
    (table.unregisterSubscriptions handle unsubscribe).2 = table.clear handle := by
  rw [unregisterSubscriptions, unregisterLoop_table]
  simp only [mem_finRange, true_and]
  rfl

/-- An entry of the client among `slots` has the filter, and no other entry has it; the empty
filter counts whatever the other entries are. -/
structure LastHeld (table : SubscriptionTable maxSubscriptions) (handle : UInt32)
    (slots : List (Fin maxSubscriptions)) (topicFilter : Buffer) : Prop where
  held : ∃ slot ∈ slots, table.handles slot = handle ∧ table.topicFilters slot = topicFilter
  unshared : topicFilter ≠ [] → ∀ slot, table.topicFilters slot = topicFilter →
    slot ∈ slots ∧ table.handles slot = handle

@[simp]
theorem lastHeld_cons_of_ne (isOther : table.handles first ≠ handle) :
    LastHeld table handle (first :: slots) topicFilter ↔
      LastHeld table handle slots topicFilter := by
  have inTail : ∀ {slot}, slot ∈ first :: slots → table.handles slot = handle →
      slot ∈ slots := by
    intro slot member hasHandle
    refine mem_of_ne_of_mem ?_ member
    rintro rfl
    exact isOther hasHandle
  constructor
  · rintro ⟨⟨slot, member, hasHandle, hasFilter⟩, others⟩
    refine ⟨⟨slot, inTail member hasHandle, hasHandle, hasFilter⟩, ?_⟩
    intro nonempty slot same
    rcases others nonempty slot same with ⟨member, hasHandle⟩
    exact ⟨inTail member hasHandle, hasHandle⟩
  · rintro ⟨⟨slot, later, found⟩, others⟩
    refine ⟨⟨slot, mem_cons_of_mem _ later, found⟩, ?_⟩
    intro nonempty slot same
    rcases others nonempty slot same with ⟨later, hasHandle⟩
    exact ⟨mem_cons_of_mem _ later, hasHandle⟩

/-- An entry without a duplicate is the last one that has its filter. -/
theorem lastHeld_of_not_hasDuplicate (isHandle : table.handles first = handle)
    (unique : ¬table.hasDuplicate first) :
    LastHeld table handle (first :: slots) (table.topicFilters first) := by
  refine ⟨⟨first, mem_cons_self, isHandle, rfl⟩, ?_⟩
  intro nonempty slot same
  by_cases isFirst : slot = first
  · subst isFirst
    exact ⟨mem_cons_self, isHandle⟩
  · exact absurd (hasDuplicate_iff.mpr ⟨slot, isFirst, same ▸ nonempty, same.symm⟩) unique

theorem lastHeld_cons_of_free (isHandle : table.handles first = handle)
    (notLater : first ∉ slots) (later : LastHeld (table.free first) handle slots topicFilter) :
    LastHeld table handle (first :: slots) topicFilter := by
  rcases later with ⟨⟨slot, later, hasHandle, hasFilter⟩, others⟩
  have isOther : slot ≠ first := fun isFirst => notLater (isFirst ▸ later)
  rw [free_of_ne isOther] at hasFilter
  refine ⟨⟨slot, mem_cons_of_mem _ later, hasHandle, hasFilter⟩, ?_⟩
  intro nonempty slot same
  by_cases isFirst : slot = first
  · subst isFirst
    exact ⟨mem_cons_self, isHandle⟩
  · rcases others nonempty slot ((free_of_ne isFirst).trans same) with ⟨later, hasHandle⟩
    exact ⟨mem_cons_of_mem _ later, hasHandle⟩

/-- The last entry with a filter is the first of them, or comes later. -/
theorem LastHeld.cons_cases (last : LastHeld table handle (first :: slots) topicFilter)
    (notLater : first ∉ slots) :
    (table.topicFilters first = topicFilter ∧ ¬table.hasDuplicate first) ∨
      LastHeld (table.free first) handle slots topicFilter := by
  rcases last with ⟨⟨slot, member, hasHandle, hasFilter⟩, others⟩
  by_cases isLater : ∃ slot ∈ slots, table.handles slot = handle ∧
      table.topicFilters slot = topicFilter
  · right
    rcases isLater with ⟨slot, later, hasHandle, hasFilter⟩
    have isOther : slot ≠ first := fun isFirst => notLater (isFirst ▸ later)
    refine ⟨⟨slot, later, hasHandle, (free_of_ne isOther).trans hasFilter⟩, ?_⟩
    intro nonempty slot same
    have isOther : slot ≠ first := by
      rintro rfl
      exact nonempty (same.symm.trans free_self)
    rw [free_of_ne isOther] at same
    rcases others nonempty slot same with ⟨member, hasHandle⟩
    exact ⟨mem_of_ne_of_mem isOther member, hasHandle⟩
  · left
    have isFirst : slot = first := by
      rcases mem_cons.mp member with isFirst | later
      · exact isFirst
      · exact absurd ⟨slot, later, hasHandle, hasFilter⟩ isLater
    subst isFirst
    refine ⟨hasFilter, ?_⟩
    intro duplicate
    rcases hasDuplicate_iff.mp duplicate with ⟨other, different, nonempty, same⟩
    have sameFilter := same.symm.trans hasFilter
    rcases others (sameFilter ▸ nonempty) other sameFilter with ⟨member, hasHandle⟩
    exact isLater ⟨other, mem_of_ne_of_mem different member, hasHandle, sameFilter⟩

/-- An UNSUBSCRIBE is sent for a filter with the last entry that has it. -/
theorem mem_unregisterLoop (distinct : slots.Nodup) :
    topicFilter ∈ (unregisterLoop handle true slots table).1 ↔
      LastHeld table handle slots topicFilter := by
  induction slots generalizing table with
  | nil =>
    constructor
    · nofun
    · rintro ⟨⟨slot, absurdity, _⟩, _⟩
      cases absurdity
  | cons first slots ih =>
    rcases nodup_cons.mp distinct with ⟨notLater, distinct⟩
    by_cases isHandle : table.handles first = handle
    · rw [unregisterLoop_cons_of_eq isHandle, mem_append, ih distinct,
        mem_ite_nil_right, mem_singleton]
      constructor
      · rintro (⟨⟨_, unique⟩, rfl⟩ | later)
        · exact lastHeld_of_not_hasDuplicate isHandle unique
        · exact lastHeld_cons_of_free isHandle notLater later
      · intro last
        rcases last.cons_cases notLater with ⟨rfl, unique⟩ | later
        · exact .inl ⟨⟨rfl, unique⟩, rfl⟩
        · exact .inr later
    · rw [unregisterLoop_cons_of_ne isHandle, ih distinct, lastHeld_cons_of_ne isHandle]

/-- `iotcored_unregister_subscriptions` sends an UNSUBSCRIBE for a filter that an entry of the
client has and no entry of another client. -/
@[simp]
theorem mem_unregisterSubscriptions :
    topicFilter ∈ (table.unregisterSubscriptions handle true).1 ↔
      (∃ slot, table.handles slot = handle ∧ table.topicFilters slot = topicFilter) ∧
      (topicFilter ≠ [] → ∀ slot, table.topicFilters slot = topicFilter →
        table.handles slot = handle) := by
  rw [unregisterSubscriptions, mem_unregisterLoop (nodup_finRange _)]
  constructor
  · rintro ⟨⟨slot, _, found⟩, others⟩
    exact ⟨⟨slot, found⟩, fun nonempty slot same => (others nonempty slot same).2⟩
  · rintro ⟨⟨slot, found⟩, others⟩
    exact ⟨⟨slot, mem_finRange slot, found⟩, fun nonempty slot same =>
      ⟨mem_finRange slot, others nonempty slot same⟩⟩

/-! ## A new session -/

/-- An entry stays as it is or becomes free, and if it stays it has been subscribed again. -/
theorem reRegisterLoop_entry {answers : Fin maxSubscriptions → Bool}
    (slots : List (Fin maxSubscriptions)) (table : SubscriptionTable maxSubscriptions)
    (slot : Fin maxSubscriptions) :
    (reRegisterLoop answers slots table).2.handles slot = table.handles slot ∧
    ((reRegisterLoop answers slots table).2.topicFilters slot = [] ∨
      (reRegisterLoop answers slots table).2.topicFilters slot = table.topicFilters slot ∧
        (slot ∈ slots → table.topicFilters slot ≠ [] →
          table.topicFilters slot ∈ (reRegisterLoop answers slots table).1)) := by
  induction slots generalizing table with
  | nil => exact ⟨rfl, .inr ⟨rfl, nofun⟩⟩
  | cons first slots ih =>
    rw [reRegisterLoop]
    by_cases isFree : table.topicFilters first = []
    · rw [if_pos isFree]
      rcases ih table with ⟨handles, freed | ⟨kept, subscribed⟩⟩
      · exact ⟨handles, .inl freed⟩
      · refine ⟨handles, .inr ⟨kept, ?_⟩⟩
        intro member nonempty
        refine subscribed (mem_of_ne_of_mem ?_ member) nonempty
        rintro rfl
        exact nonempty isFree
    · rw [if_neg isFree]
      by_cases answer : answers first = true
      · rw [if_pos answer]
        rcases ih table with ⟨handles, freed | ⟨kept, subscribed⟩⟩
        · exact ⟨handles, .inl freed⟩
        · refine ⟨handles, .inr ⟨kept, ?_⟩⟩
          intro member nonempty
          rcases mem_cons.mp member with rfl | later
          · exact mem_cons_self
          · exact mem_cons_of_mem _ (subscribed later nonempty)
      · rw [if_neg answer]
        rcases ih (table.free first) with ⟨handles, freed | ⟨kept, subscribed⟩⟩
        · exact ⟨handles, .inl freed⟩
        · by_cases isFirst : slot = first
          · subst isFirst
            exact ⟨handles, .inl (kept.trans free_self)⟩
          · rw [free_of_ne isFirst] at kept subscribed
            refine ⟨handles, .inr ⟨kept, ?_⟩⟩
            intro member nonempty
            exact subscribed (mem_of_ne_of_mem isFirst member) nonempty

end SubscriptionTable

end GreengrassLite

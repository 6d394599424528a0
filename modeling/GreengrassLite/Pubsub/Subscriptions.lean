import GreengrassLite.Core.Map
import GreengrassLite.CoreBus.Closing

/-!
# Local subscriptions

`ggpubsubd/src/bus_server.c` keeps a table of the handles that wait for messages, and
frees a slot of the table from the close callback of its subscription.  As long as no
connection subscribes twice, every handle in the table is that of a connected client.
-/

namespace GreengrassLite

open Library List Function

variable {maxClients : UInt16} {maxSubscriptions : Nat}

/-- `sub_handle` and `sub_topic_filter`; a slot whose handle is zero is free. -/
structure PubsubTable (maxSubscriptions : Nat) where
  subHandle : Fin maxSubscriptions → UInt32
  subTopicFilter : Fin maxSubscriptions → Buffer

/-- `GGL_PUBSUB_MAX_TOPIC_LENGTH`. -/
def pubsubMaxTopicLength : Nat :=
  256

/-- The checks of `rpc_subscribe` on its parameters. -/
def subscribeTopicFilter (params : GglMap) : Except GglError Buffer :=
  match gglMapGet params (gglStr "topic_filter") with
  | some (.buf topicFilter) =>
    if topicFilter.length > pubsubMaxTopicLength then .error .range
    else if topicFilter.length = 0 then .error .range
    else .ok topicFilter
  | _ => .error .invalid

/-- `register_subscription`: the first free slot is taken. -/
def registerSubscription (table : PubsubTable maxSubscriptions) (topicFilter : Buffer)
    (handle : UInt32) :
    Except GglError (Fin maxSubscriptions × PubsubTable maxSubscriptions) :=
  match (finRange maxSubscriptions).find? fun slot => table.subHandle slot = 0 with
  | some slot =>
    .ok (slot,
      { subHandle := update table.subHandle slot handle
        subTopicFilter := update table.subTopicFilter slot topicFilter })
  | none => .error .nomem

/-- `release_subscription`. -/
def releaseSubscription (slot : Fin maxSubscriptions) (_handle : UInt32)
    (table : PubsubTable maxSubscriptions) : PubsubTable maxSubscriptions :=
  { table with subHandle := update table.subHandle slot 0 }

/-- `rpc_subscribe` and the close callback it passes. -/
def ggpubsubd : Daemon (Fin maxSubscriptions) (PubsubTable maxSubscriptions) where
  registers handle table onClose after :=
    ∃ params topicFilter slot, subscribeTopicFilter params = .ok topicFilter ∧
      registerSubscription table topicFilter handle = .ok (slot, after) ∧ onClose = some slot
  onClose := releaseSubscription

/-- Every handle in the table is that of a connected client, whose callback frees the
slot. -/
def SlotsHeld (books : BusBooks maxClients (Fin maxSubscriptions))
    (table : PubsubTable maxSubscriptions) : Prop :=
  ∀ slot, table.subHandle slot ≠ 0 →
    ∃ index, LiveAt books.pool (table.subHandle slot) index ∧ books.cleanup index = some slot

section Slots

variable {books : BusBooks maxClients (Fin maxSubscriptions)}
  {table next : PubsubTable maxSubscriptions} {topicFilter : Buffer} {handle : UInt32}
  {slot : Fin maxSubscriptions} {index : Fin maxClients.toNat}

theorem registerSubscription_eq_ok
    (registered : registerSubscription table topicFilter handle = .ok (slot, next)) :
    table.subHandle slot = 0 ∧ next.subHandle = update table.subHandle slot handle := by
  rw [registerSubscription] at registered
  split at registered
  next found =>
    cases registered
    have free := find?_some found
    exact ⟨of_decide_eq_true free, rfl⟩
  · cases registered

/-- The table after the callback of a connection, if it has one. -/
def releasedTable (callback : Option (Fin maxSubscriptions)) (handle : UInt32)
    (table : PubsubTable maxSubscriptions) : PubsubTable maxSubscriptions :=
  match callback with
  | none => table
  | some slot => releaseSubscription slot handle table

theorem releasedTable_subHandle {callback : Option (Fin maxSubscriptions)}
    (taken : (releasedTable callback handle table).subHandle slot ≠ 0) :
    callback ≠ some slot ∧
      (releasedTable callback handle table).subHandle slot = table.subHandle slot := by
  cases callback with
  | none => exact ⟨nofun, rfl⟩
  | some freed =>
    change update table.subHandle freed 0 slot ≠ 0 at taken
    by_cases same : slot = freed
    · rw [same, update_self] at taken
      exact absurd rfl taken
    · exact ⟨fun agree => same (Option.some.inj agree).symm, update_of_ne same _ _⟩

/-- Releasing a connection frees the slot of its callback. -/
theorem SlotsHeld.release (held : SlotsHeld books table) (index : Fin maxClients.toNat) :
    SlotsHeld { books with pool := books.pool.freed index }
      (releasedTable (books.cleanup index) handle table) := by
  intro slot taken
  rcases releasedTable_subHandle taken with ⟨otherwise, sameHandle⟩
  rw [sameHandle] at taken ⊢
  rcases held slot taken with ⟨holder, live, callback⟩
  have different : holder ≠ index := by
    rintro rfl
    exact otherwise callback
  exact ⟨holder, live.freed_of_ne different, callback⟩

/-- A subscription on a connection without one. -/
theorem SlotsHeld.accept (held : SlotsHeld books table)
    (live : LiveAt books.pool handle index) (single : books.cleanup index = none)
    (registered : registerSubscription table topicFilter handle = .ok (slot, next)) :
    SlotsHeld { books with cleanup := update books.cleanup index (some slot) } next := by
  intro other taken
  rcases registerSubscription_eq_ok registered with ⟨free, changed⟩
  rw [changed] at taken ⊢
  by_cases same : other = slot
  · rw [same, update_self]
    exact ⟨index, live, update_self _ _ _⟩
  · rw [update_of_ne same] at taken ⊢
    rcases held other taken with ⟨holder, holding, callback⟩
    have different : holder ≠ index := by
      rintro rfl
      rw [single] at callback
      cases callback
    refine ⟨holder, holding, ?_⟩
    dsimp only
    rw [update_of_ne different]
    exact callback

/-- A subscription whose connection is gone is taken back at once. -/
theorem SlotsHeld.acceptGone (held : SlotsHeld books table)
    (registered : registerSubscription table topicFilter handle = .ok (slot, next)) :
    SlotsHeld books (releaseSubscription slot handle next) := by
  rcases registerSubscription_eq_ok registered with ⟨free, changed⟩
  have same : (releaseSubscription slot handle next).subHandle = table.subHandle := by
    rw [releaseSubscription]
    rw [changed, update_idem, ← free, update_eq_self]
  intro other taken
  rw [same] at taken ⊢
  exact held other taken

/-- A new client takes a slot of the pool that no subscription refers to. -/
theorem SlotsHeld.connect {fd : Int32} {number : Fin maxClients.toNat → Nat} {count : Nat}
    (held : SlotsHeld books table) (free : books.pool.fds index = fdFree) :
    SlotsHeld ⟨books.pool.setFd index fd, update books.cleanup index none, number, count⟩
      table := by
  intro slot taken
  rcases held slot taken with ⟨holder, live, callback⟩
  have different : holder ≠ index := by
    rintro rfl
    exact live.2 free
  refine ⟨holder, live.setFd_of_ne different fd, ?_⟩
  dsimp only
  rw [update_of_ne different]
  exact callback

end Slots

section Steps

variable {server next : BusServer maxClients (Fin maxSubscriptions) (PubsubTable maxSubscriptions)}
  {event : BusEvent (Fin maxSubscriptions)} {history : List (BusEvent (Fin maxSubscriptions))}
  {request : BusRequest maxClients} {index : Fin maxClients.toNat}

section

variable (held : SlotsHeld server.books server.clients.daemonState)

include held

theorem SlotsHeld.close_live :
    SlotsHeld (server.close ggpubsubd (server.pool.handleOf index)).books
      (server.close ggpubsubd (server.pool.handleOf index)).clients.daemonState := by
  have state : server.clients.closedState ggpubsubd (server.pool.handleOf index) index
      = releasedTable (server.books.cleanup index) (server.pool.handleOf index)
        server.clients.daemonState := by
    have cell : server.books.cleanup index = server.clients.cleanup index := rfl
    rw [BusClients.closedState, cell]
    cases server.clients.cleanup index with
    | none | some => rfl
  rcases BusServer.close_valid ggpubsubd server index with ⟨closed, _⟩
  rw [closed, state]
  exact held.release index

theorem SlotsHeld.close_request (handle : UInt32) :
    SlotsHeld (server.close ggpubsubd handle).books
      (server.close ggpubsubd handle).clients.daemonState := by
  cases valid : validateHandle server.pool handle with
  | ok index =>
    rw [validateHandle_eq_ok_iff.mp valid]
    exact held.close_live
  | error error =>
    rw [(BusServer.close_gone ggpubsubd valid).1]
    exact held

theorem SlotsHeld.step (ordered : server.InOrder) (accounted : Accounted history server.books)
    (step : BusStep ggpubsubd server event next) (single : SingleSubscription (event :: history)) :
    SlotsHeld next.books next.clients.daemonState := by
  cases step with
  | connect fd isIdle registered isPhase =>
    rcases busRegister_eq_ok registered with ⟨_, free, rfl, rfl⟩
    exact held.connect free
  | refuse | request | reject | dispatch | returnOk | returnError | respondGone | respondAborts
  | acceptAborts | acceptSent | publishAborts | publishWaits | publishElsewhereAborts => exact held
  | failed | closed | respond | acceptNotSent => exact held.close_request _
  | accept isHandling _ registers valid =>
    rcases registers with ⟨params, topicFilter, slot, _, registered, isSlot⟩
    cases isSlot
    have named := validateHandle_eq_ok_iff.mp valid
    rcases (ordered.serves (by rw [isHandling]; rfl)).live named with ⟨_, taken, numbered⟩
    rw [← numbered] at single
    exact held.accept ⟨named, taken⟩ ((accounted.live taken).cell_eq_none single) registered
  | acceptSilently isHandling _ registers =>
    rcases registers with ⟨params, topicFilter, slot, _, registered, isSlot⟩
    cases isSlot
  | acceptGone isHandling _ registers invalid =>
    rcases registers with ⟨params, topicFilter, slot, _, registered, isSlot⟩
    cases isSlot
    exact held.acceptGone registered
  | publishFails | closeElsewhere => exact held.close_live

end

theorem Run.slotsHeld
    {start : BusServer maxClients (Fin maxSubscriptions) (PubsubTable maxSubscriptions)}
    (run : Run (BusStep ggpubsubd) start history server) (fresh : start.Fresh)
    (empty : ∀ slot, start.clients.daemonState.subHandle slot = 0)
    (single : SingleSubscription history) :
    SlotsHeld server.books server.clients.daemonState := by
  induction run with
  | refl => exact fun slot taken => absurd (empty slot) taken
  | tail earlier step ih =>
    exact (ih single.tail).step (Run.inOrder earlier fresh)
      (Run.accounted earlier fresh single.tail) step single

end Steps

/-- While no connection has a second subscription with a callback, each accepted
callback is called once when its connection is released and not before, and the table
of `ggpubsubd` holds the handles of connected clients only. -/
theorem subscriptions_closed_once :
    (∀ {κ σ : Type} [DecidableEq κ] {daemon : Daemon κ σ}
      {start server : BusServer maxClients κ σ} {history : List (BusEvent κ)},
      Run (BusStep daemon) start history server → start.Fresh → SingleSubscription history →
        ClosedOnce history) ∧
    ∀ {start server : BusServer maxClients (Fin maxSubscriptions) (PubsubTable maxSubscriptions)}
      {history : List (BusEvent (Fin maxSubscriptions))},
      Run (BusStep ggpubsubd) start history server → start.Fresh →
        (∀ slot, start.clients.daemonState.subHandle slot = 0) → SingleSubscription history →
        ∀ slot, server.clients.daemonState.subHandle slot ≠ 0 →
          ∃ index, LiveAt server.pool (server.clients.daemonState.subHandle slot) index := by
  constructor
  · intro κ σ decide daemon start server history run fresh single
    exact (Run.accounted run fresh single).closedOnce
  · intro start server history run fresh empty single slot taken
    rcases Run.slotsHeld run fresh empty single slot taken with ⟨index, live, _⟩
    exact ⟨index, live⟩

/-! ## Runs with one and with two subscriptions -/

section Examples

/-- A pool of three clients and a table of two subscriptions, before the first client. -/
def exampleBus : BusServer 3 (Fin 2) (PubsubTable 2) where
  pool := ⟨fun _ => fdFree, fun _ => 0⟩
  clients := ⟨fun _ => .call, fun _ => none, ⟨fun _ => 0, fun _ => []⟩⟩
  currentHandle := 0
  phase := .idle
  connection := fun _ => 0
  subscribed := fun _ => false
  connections := 0

theorem exampleBus_fresh : exampleBus.Fresh :=
  ⟨fun _ => rfl, rfl, rfl, rfl⟩

def exampleIndex : Fin (3 : UInt16).toNat :=
  ⟨0, by decide⟩

/-- The server after the first client has connected. -/
def connectedBus : BusServer 3 (Fin 2) (PubsubTable 2) :=
  { exampleBus with
    pool := exampleBus.pool.setFd exampleIndex 5
    clients := { exampleBus.clients with
      requestTypes := update exampleBus.clients.requestTypes exampleIndex .call
      cleanup := update exampleBus.clients.cleanup exampleIndex none }
    connection := update exampleBus.connection exampleIndex 0
    subscribed := update exampleBus.subscribed exampleIndex false
    connections := 1 }

theorem connectedBus_run :
    Run (BusStep ggpubsubd) exampleBus [.connected 0] connectedBus := by
  apply Run.refl.tail
  exact .connect 5 rfl rfl (.inl rfl)

/-- The server after the client has subscribed to `a`. -/
def subscribedBus (server : BusServer 3 (Fin 2) (PubsubTable 2)) (slot : Fin 2) :
    BusServer 3 (Fin 2) (PubsubTable 2) :=
  { server with
    clients :=
      { requestTypes := update server.clients.requestTypes exampleIndex .subscribe
        cleanup := update server.clients.cleanup exampleIndex (some slot)
        daemonState :=
          { subHandle := update server.clients.daemonState.subHandle slot
              (server.pool.handleOf exampleIndex)
            subTopicFilter := update server.clients.daemonState.subTopicFilter slot
              (gglStr "a") } }
    currentHandle := 0
    phase := .idle
    subscribed := update server.subscribed exampleIndex true }

section

variable {start server : BusServer 3 (Fin 2) (PubsubTable 2)} {history : List (BusEvent (Fin 2))}

theorem subscribedBus_run {slot : Fin 2} (run : Run (BusStep ggpubsubd) start history server)
    (isIdle : server.phase = .idle) (taken : server.pool.fds exampleIndex ≠ fdFree)
    (found : (finRange 2).find? (fun slot => server.clients.daemonState.subHandle slot = 0)
      = some slot) :
    Run (BusStep ggpubsubd) start
      (.internal :: .internal :: .accepted (server.connection exampleIndex) (some slot) ::
        .internal :: .requested (server.connection exampleIndex) .subscribe :: history)
      (subscribedBus server slot) := by
  have requested := run.tail (.request .subscribe isIdle taken)
  have dispatched := requested.tail (.dispatch rfl)
  have registers : ggpubsubd.registers (server.pool.handleOf exampleIndex)
      server.clients.daemonState (some slot) (subscribedBus server slot).clients.daemonState := by
    refine ⟨[(gglStr "topic_filter", .buf (gglStr "a"))], gglStr "a", slot, rfl, ?_, rfl⟩
    rw [registerSubscription, found]
    rfl
  have valid : validateHandle server.pool (server.pool.handleOf exampleIndex) = .ok exampleIndex :=
    validateHandle_handleOf
  have accepted := dispatched.tail (.accept rfl rfl registers valid)
  have sent := accepted.tail (.acceptSent rfl valid)
  exact sent.tail (.returnOk rfl)

/-- The client goes away. -/
theorem disconnected_run (run : Run (BusStep ggpubsubd) start history server)
    (isIdle : server.phase = .idle) (taken : server.pool.fds exampleIndex ≠ fdFree) :
    Run (BusStep ggpubsubd) start
      (.released (server.connection exampleIndex) (server.clients.cleanup exampleIndex) ::
        .internal :: history)
      { server with
        pool := server.pool.freed exampleIndex
        clients := { server.clients with
          daemonState := server.clients.closedState ggpubsubd
            (server.pool.handleOf exampleIndex) exampleIndex }
        phase := .idle } := by
  have refused := run.tail (.refuse isIdle taken)
  have closed := refused.tail (.closed rfl)
  rcases BusServer.close_valid ggpubsubd
    { server with phase := .closing (server.requestAt exampleIndex) } exampleIndex with
    ⟨released, event⟩
  dsimp only [BusServer.requestAt] at closed released event
  rw [event, released] at closed
  exact closed

end

/-- What happens when the client subscribes once and goes away. -/
def subscribedOnce : List (BusEvent (Fin 2)) :=
  [.released 0 (some 0), .internal, .internal, .internal, .accepted 0 (some 0), .internal,
    .requested 0 .subscribe, .connected 0]

theorem subscribedOnce_run : ∃ server,
    Run (BusStep ggpubsubd) exampleBus subscribedOnce server :=
  ⟨_, disconnected_run (subscribedBus_run connectedBus_run rfl (by decide) rfl) rfl (by decide)⟩

theorem subscribedOnce_single : SingleSubscription subscribedOnce := by
  intro connection
  by_cases same : connection = 0
  · subst same
    decide
  · simp [subscribedOnce, BusEvent.acceptsOn, Ne.symm same]

/-- A subscription that is closed once. -/
theorem subscriptions_closed_once_example :
    SingleSubscription subscribedOnce ∧ ClosedOnce subscribedOnce := by
  rcases subscribedOnce_run with ⟨server, run⟩
  exact ⟨subscribedOnce_single,
    (@subscriptions_closed_once 3 2).1 run exampleBus_fresh subscribedOnce_single⟩

/-- What happens when the client subscribes twice and goes away. -/
def subscribedTwice : List (BusEvent (Fin 2)) :=
  [.released 0 (some 1), .internal, .internal, .internal, .accepted 0 (some 1), .internal,
    .requested 0 .subscribe, .internal, .internal, .accepted 0 (some 0), .internal,
    .requested 0 .subscribe, .connected 0]

/-- The first of two subscriptions on a connection is never closed, and the table
keeps its handle. -/
theorem second_subscription_keeps_first : exampleBus.Fresh ∧ ∃ server,
    Run (BusStep ggpubsubd) exampleBus subscribedTwice server ∧ ¬ClosedOnce subscribedTwice ∧
      server.clients.daemonState.subHandle 0 ≠ 0 ∧
      ∀ index, ¬LiveAt server.pool (server.clients.daemonState.subHandle 0) index := by
  have found : (finRange 2).find?
      (fun slot => (subscribedBus connectedBus 0).clients.daemonState.subHandle slot = 0)
      = some 1 := by decide
  have first := subscribedBus_run connectedBus_run rfl (by decide) rfl
  have second := subscribedBus_run first rfl (by decide) found
  refine ⟨exampleBus_fresh, _, disconnected_run second rfl (by decide), ?_, ?_, ?_⟩
  · intro closed
    have settled := (closed 0 0).1 ⟨some 1, mem_cons_self⟩
    exact absurd settled (by decide)
  · decide
  · decide

end Examples

end GreengrassLite

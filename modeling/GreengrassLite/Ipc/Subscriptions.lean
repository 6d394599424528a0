import GreengrassLite.Library.Run
import GreengrassLite.Socket.Pool

/-!
# Subscriptions of IPC clients

`ggipcd/src/ipc_subscriptions.c` forwards the responses of core bus subscriptions to the
streams of IPC connections.  A slot of its table has the handle of the connection, the
stream, and the handle of the core bus subscription, which
`core-bus/src/client_subscribe.c` keeps in a socket pool with the callbacks.

`ggl_ipc_bind_subscription` runs on the IPC thread and takes three steps: it claims a
slot, subscribes, and records the handle of the subscription.  As soon as the
subscription is made, the callbacks may run on the thread of the core bus client.  The
mutex of its pool is held while they run: a response callback looks up its stream, then
takes the mutex of the pool of IPC connections and sends.  One that fails is followed by
the close of its subscription, with the first mutex still held.

The IPC thread also closes the connections, one slot of the table after the other.  It
holds the mutex of the pool of connections all the while, and takes that of the client
for every subscription it closes.  What the two daemons and the file descriptors do is
left to the environment.
-/

namespace GreengrassLite

open List Function

variable {maxSubs : UInt16}

/-! ## The table -/

/-- `subs_resp_handle`, `subs_stream_id` and `subs_recv_handle`; a slot whose connection is
zero is free. -/
structure SubsSlot where
  respHandle : UInt32
  streamId : Int32
  recvHandle : UInt32
  deriving DecidableEq

def SubsSlot.free : SubsSlot :=
  ⟨0, 0, 0⟩

/-- The table; `GGL_IPC_MAX_SUBSCRIPTIONS` is `GGL_COREBUS_CLIENT_MAX_SUBSCRIPTIONS`. -/
abbrev SubsTable (maxSubs : UInt16) :=
  Fin maxSubs.toNat → SubsSlot

namespace SubsTable

variable (table : SubsTable maxSubs) (recvHandle : UInt32)

/-- The first slot with a receive handle. -/
def findRecv : Option (Fin maxSubs.toNat) :=
  (finRange maxSubs.toNat).find? fun slot => recvHandle = (table slot).recvHandle

/-- `init_subs_index`. -/
def initSubsIndex (respHandle : UInt32) (streamId : Int32) :
    Option (Fin maxSubs.toNat × SubsTable maxSubs) :=
  match (finRange maxSubs.toNat).find? fun slot => (table slot).respHandle = 0 with
  | none => none
  | some slot =>
    some (slot, update table slot
      { table slot with respHandle := respHandle, streamId := streamId })

/-- `release_subs_index`. -/
def releaseSubsIndex (slot : Fin maxSubs.toNat) (respHandle : UInt32) : SubsTable maxSubs :=
  if (table slot).respHandle = respHandle then update table slot .free else table

/-- `subs_set_recv_handle`. -/
def subsSetRecvHandle (slot : Fin maxSubs.toNat) (respHandle recvHandle : UInt32) :
    SubsTable maxSubs :=
  if (table slot).respHandle = respHandle then
    update table slot { table slot with recvHandle := recvHandle }
  else table

/-- `subscription_on_response`: the stream that the response is forwarded to. -/
def subscriptionOnResponse : Option (UInt32 × Int32) :=
  match table.findRecv recvHandle with
  | none => none
  | some slot => some ((table slot).respHandle, (table slot).streamId)

/-- `subscription_on_close`. -/
def subscriptionOnClose : SubsTable maxSubs :=
  match table.findRecv recvHandle with
  | none => table
  | some slot => update table slot .free

end SubsTable

/-! ## The core bus client -/

/-- The table, and the slots of the pool whose `sub_callbacks` are set. -/
structure SubsClient (maxSubs : UInt16) where
  table : SubsTable maxSubs
  callbacks : Fin maxSubs.toNat → Bool

/-- `reset_sub_state` and `call_close_callback`. -/
def clientHooks : PoolHooks maxSubs (SubsClient maxSubs) where
  onRegister := some fun _ index client =>
    (.ok (), { client with callbacks := update client.callbacks index false })
  onRelease := some fun handle index client =>
    (.ok (), if client.callbacks index then
      { client with table := client.table.subscriptionOnClose handle } else client)

/-- `set_sub_callbacks`. -/
def setSubCallbacks (isSet : Bool) (index : Fin maxSubs.toNat) (client : SubsClient maxSubs) :
    SubsClient maxSubs :=
  { client with callbacks := update client.callbacks index isSet }

/-- `ggl_subscribe` after `make_subscribe_request` has succeeded. -/
def gglSubscribe (pool : GglSocketPool maxSubs) (client : SubsClient maxSubs) (conn : Int32)
    (epollAdded : Bool) :
    Except GglError UInt32 × GglSocketPool maxSubs × SubsClient maxSubs :=
  match gglSocketPoolRegister clientHooks pool client conn with
  | (.error error, pool, client) => (.error error, pool, client)
  | (.ok handle, pool, client) =>
    let client := (gglSocketHandleProtected (setSubCallbacks true) pool handle client).2
    if epollAdded then (.ok handle, pool, client)
    else
      let client := (gglSocketHandleProtected (setSubCallbacks false) pool handle client).2
      (.error .failure, (gglSocketPoolRelease clientHooks pool client handle).2)

/-! ## The threads -/

/-- Where the IPC thread is. -/
inductive IpcThread (maxSubs : UInt16) where
  | idle
  /-- `ggl_ipc_bind_subscription` before `ggl_subscribe`. -/
  | claimed (slot : Fin maxSubs.toNat) (respHandle : UInt32) (streamId : Int32)
  /-- `ggl_ipc_bind_subscription` before `release_subs_index`. -/
  | failed (slot : Fin maxSubs.toNat) (respHandle : UInt32)
  /-- `ggl_ipc_bind_subscription` before `subs_set_recv_handle`. -/
  | subscribed (slot : Fin maxSubs.toNat) (respHandle : UInt32) (streamId : Int32)
      (recvHandle : UInt32)
  /-- `ggl_ipc_release_subscriptions_for_conn`, with the slots that remain. -/
  | releasing (respHandle : UInt32) (slots : List (Fin maxSubs.toNat))
  /-- the same before `ggl_client_sub_close`. -/
  | closing (respHandle recvHandle : UInt32) (slot : Fin maxSubs.toNat)
      (slots : List (Fin maxSubs.toNat))

/-- The mutex of the pool of connections is held. -/
def IpcThread.holdsPool : IpcThread maxSubs → Bool
  | .releasing _ _ | .closing _ _ _ _ => true
  | _ => false

/-- Where the thread of the core bus client is; it holds the mutex of its pool unless it is
idle. -/
inductive ClientThread where
  | idle
  /-- `subscription_on_response` has found the stream and is to send. -/
  | forwarding (recvHandle respHandle : UInt32) (streamId : Int32)
  /-- The response callback has failed, and the subscription is to be closed. -/
  | failed (recvHandle : UInt32)

/-- `ggipcd` with its core bus client. -/
structure IpcSubs (maxSubs : UInt16) where
  pool : GglSocketPool maxSubs
  client : SubsClient maxSubs
  ipcThread : IpcThread maxSubs
  clientThread : ClientThread

inductive SubsEvent where
  /-- `ggl_ipc_bind_subscription` claims a slot. -/
  | claimed (respHandle : UInt32) (streamId : Int32)
  /-- It finds none. -/
  | refused (respHandle : UInt32)
  | subscribed (recvHandle : UInt32)
  /-- It returns `GGL_ERR_OK`. -/
  | bound (recvHandle respHandle : UInt32) (streamId : Int32)
  /-- A response of a subscription, with the stream that it is to be sent to. -/
  | response (recvHandle respHandle : UInt32) (streamId : Int32)
  | forwarded (recvHandle respHandle : UInt32) (streamId : Int32)
  /-- A response whose stream is not found, or whose callback fails. -/
  | dropped (recvHandle : UInt32)
  /-- The IPC thread is about to close a subscription of a connection. -/
  | closing (recvHandle : UInt32)
  /-- A subscription is closed. -/
  | closed (recvHandle : UInt32)
  /-- An IPC connection is closed and its subscriptions are released. -/
  | disconnected (respHandle : UInt32)
  | internal
  deriving DecidableEq

namespace IpcSubs

/-- Before any subscription is made. -/
def initial (pool : GglSocketPool maxSubs) : IpcSubs maxSubs :=
  ⟨gglSocketPoolInit pool, ⟨fun _ => .free, fun _ => false⟩, .idle, .idle⟩

/-- `ggl_socket_handle_close`. -/
def close (state : IpcSubs maxSubs) (handle : UInt32) : IpcSubs maxSubs :=
  { state with
    pool := (gglSocketPoolRelease clientHooks state.pool state.client handle).2.1
    client := (gglSocketPoolRelease clientHooks state.pool state.client handle).2.2 }

end IpcSubs

/-- The steps of the two threads. -/
inductive SubsStep : IpcSubs maxSubs → SubsEvent → IpcSubs maxSubs → Prop
  /- `ggl_ipc_bind_subscription` -/
  | claim {state : IpcSubs maxSubs} {respHandle streamId slot table} :
      state.ipcThread = .idle → respHandle ≠ 0 →
      state.client.table.initSubsIndex respHandle streamId = some (slot, table) →
      SubsStep state (.claimed respHandle streamId)
        { state with
          client := { state.client with table := table }
          ipcThread := .claimed slot respHandle streamId }
  | refuse {state : IpcSubs maxSubs} {respHandle streamId} :
      state.ipcThread = .idle → respHandle ≠ 0 →
      state.client.table.initSubsIndex respHandle streamId = none →
      SubsStep state (.refused respHandle) state
  | requestFails {state : IpcSubs maxSubs} {slot respHandle streamId} :
      state.ipcThread = .claimed slot respHandle streamId →
      SubsStep state .internal { state with ipcThread := .failed slot respHandle }
  | subscribeFails {state : IpcSubs maxSubs}
      {slot respHandle streamId conn epollAdded error pool client} :
      state.ipcThread = .claimed slot respHandle streamId → state.clientThread = .idle →
      gglSubscribe state.pool state.client conn epollAdded = (.error error, pool, client) →
      SubsStep state .internal ⟨pool, client, .failed slot respHandle, state.clientThread⟩
  | subscribe {state : IpcSubs maxSubs}
      {slot respHandle recvHandle streamId conn epollAdded pool client} :
      state.ipcThread = .claimed slot respHandle streamId → state.clientThread = .idle →
      gglSubscribe state.pool state.client conn epollAdded = (.ok recvHandle, pool, client) →
      SubsStep state (.subscribed recvHandle)
        ⟨pool, client, .subscribed slot respHandle streamId recvHandle, state.clientThread⟩
  | release {state : IpcSubs maxSubs} {slot respHandle} :
      state.ipcThread = .failed slot respHandle →
      SubsStep state .internal
        { state with
          client := { state.client with
            table := state.client.table.releaseSubsIndex slot respHandle }
          ipcThread := .idle }
  | record {state : IpcSubs maxSubs} {slot respHandle recvHandle streamId} :
      state.ipcThread = .subscribed slot respHandle streamId recvHandle →
      SubsStep state (.bound recvHandle respHandle streamId)
        { state with
          client := { state.client with
            table := state.client.table.subsSetRecvHandle slot respHandle recvHandle }
          ipcThread := .idle }
  /- `get_subscription_response` on the client thread; `ggl_ipc_response_send` waits for the mutex
  of the pool of connections -/
  | respond {state : IpcSubs maxSubs} {recvHandle index respHandle streamId} :
      state.clientThread = .idle → LiveAt state.pool recvHandle index →
      state.client.callbacks index = true →
      state.client.table.subscriptionOnResponse recvHandle = some (respHandle, streamId) →
      SubsStep state (.response recvHandle respHandle streamId)
        { state with clientThread := .forwarding recvHandle respHandle streamId }
  | respondFails {state : IpcSubs maxSubs} {recvHandle index} :
      state.clientThread = .idle → LiveAt state.pool recvHandle index →
      state.client.callbacks index = true →
      SubsStep state (.dropped recvHandle) { state with clientThread := .failed recvHandle }
  | forward {state : IpcSubs maxSubs} {recvHandle respHandle streamId} :
      state.clientThread = .forwarding recvHandle respHandle streamId →
      state.ipcThread.holdsPool = false →
      SubsStep state (.forwarded recvHandle respHandle streamId)
        { state with clientThread := .idle }
  | forwardFails {state : IpcSubs maxSubs} {recvHandle respHandle streamId} :
      state.clientThread = .forwarding recvHandle respHandle streamId →
      state.ipcThread.holdsPool = false →
      SubsStep state (.dropped recvHandle) { state with clientThread := .failed recvHandle }
  /- a subscription is closed after that, or as nothing can be read from it -/
  | closeAfter {state : IpcSubs maxSubs} {recvHandle} :
      state.clientThread = .failed recvHandle →
      SubsStep state (.closed recvHandle)
        { state.close recvHandle with clientThread := .idle }
  | close {state : IpcSubs maxSubs} {recvHandle index} :
      state.clientThread = .idle → LiveAt state.pool recvHandle index →
      SubsStep state (.closed recvHandle) (state.close recvHandle)
  /- `ggl_ipc_release_subscriptions_for_conn` -/
  | disconnect {state : IpcSubs maxSubs} {respHandle} :
      state.ipcThread = .idle → respHandle ≠ 0 →
      SubsStep state .internal
        { state with ipcThread := .releasing respHandle (finRange maxSubs.toNat) }
  | find {state : IpcSubs maxSubs} {respHandle slot slots} :
      state.ipcThread = .releasing respHandle (slot :: slots) →
      (state.client.table slot).respHandle = respHandle →
      (state.client.table slot).recvHandle ≠ 0 →
      SubsStep state (.closing (state.client.table slot).recvHandle)
        { state with
          ipcThread := .closing respHandle (state.client.table slot).recvHandle slot slots }
  | skip {state : IpcSubs maxSubs} {respHandle slot slots} :
      state.ipcThread = .releasing respHandle (slot :: slots) →
      ¬((state.client.table slot).respHandle = respHandle ∧
        (state.client.table slot).recvHandle ≠ 0) →
      SubsStep state .internal { state with ipcThread := .releasing respHandle slots }
  | closeRecv {state : IpcSubs maxSubs} {respHandle recvHandle slot index slots} :
      state.ipcThread = .closing respHandle recvHandle slot slots → state.clientThread = .idle →
      validateHandle state.pool recvHandle = .ok index →
      SubsStep state (.closed recvHandle)
        { state.close recvHandle with ipcThread := .releasing respHandle slots }
  | closeStale {state : IpcSubs maxSubs} {respHandle recvHandle slot slots error} :
      state.ipcThread = .closing respHandle recvHandle slot slots → state.clientThread = .idle →
      validateHandle state.pool recvHandle = .error error →
      SubsStep state .internal { state with ipcThread := .releasing respHandle slots }
  | disconnected {state : IpcSubs maxSubs} {respHandle} :
      state.ipcThread = .releasing respHandle [] →
      SubsStep state (.disconnected respHandle) { state with ipcThread := .idle }

/-! ## What the calls do -/

namespace SubsTable

variable {table : SubsTable maxSubs} {recvHandle : UInt32} {slot : Fin maxSubs.toNat}

theorem findRecv_eq_some (found : table.findRecv recvHandle = some slot) :
    (table slot).recvHandle = recvHandle := by
  have isFirst := find?_some found
  exact (of_decide_eq_true isFirst).symm

theorem findRecv_ne_none (recorded : (table slot).recvHandle = recvHandle) :
    table.findRecv recvHandle ≠ none := by
  intro missing
  exact find?_eq_none.mp missing slot (mem_finRange slot)
    (decide_eq_true recorded.symm)

/-- No two slots have recorded one subscription. -/
def Distinct (table : SubsTable maxSubs) : Prop :=
  ∀ slot other, (table slot).recvHandle ≠ 0 →
    (table slot).recvHandle = (table other).recvHandle → slot = other

theorem Distinct.findRecv (distinct : table.Distinct) (isHandle : recvHandle ≠ 0)
    (recorded : (table slot).recvHandle = recvHandle) :
    table.findRecv recvHandle = some slot := by
  cases found : table.findRecv recvHandle with
  | none => exact absurd found (findRecv_ne_none recorded)
  | some other =>
    have same : (table slot).recvHandle = (table other).recvHandle :=
      recorded.trans (findRecv_eq_some found).symm
    rw [distinct slot other (recorded ▸ isHandle) same]

/-- A closed subscription frees its slot and leaves the others alone. -/
theorem subscriptionOnClose_apply (table : SubsTable maxSubs) (recvHandle : UInt32)
    (slot : Fin maxSubs.toNat) :
    table.subscriptionOnClose recvHandle slot = table slot ∨
      (table slot).recvHandle = recvHandle ∧
        table.subscriptionOnClose recvHandle slot = .free := by
  rw [subscriptionOnClose]
  cases found : table.findRecv recvHandle with
  | none => exact .inl rfl
  | some other =>
    dsimp only
    by_cases isOther : slot = other
    · rw [isOther, update_self]
      exact .inr ⟨findRecv_eq_some found, rfl⟩
    · exact .inl (update_of_ne isOther _ _)

theorem Distinct.subscriptionOnClose (distinct : table.Distinct) (isHandle : recvHandle ≠ 0)
    (recorded : (table slot).recvHandle = recvHandle) :
    table.subscriptionOnClose recvHandle slot = .free := by
  rw [SubsTable.subscriptionOnClose, distinct.findRecv isHandle recorded]
  exact update_self _ _ _

theorem initSubsIndex_eq_some {respHandle : UInt32} {streamId : Int32}
    {next : SubsTable maxSubs}
    (claimed : table.initSubsIndex respHandle streamId = some (slot, next)) :
    (table slot).respHandle = 0 ∧ next = update table slot
      { table slot with respHandle := respHandle, streamId := streamId } := by
  rw [initSubsIndex] at claimed
  split at claimed
  case h_1 => cases claimed
  case h_2 found =>
    cases claimed
    have isFree := find?_some found
    exact ⟨of_decide_eq_true isFree, rfl⟩

end SubsTable

section Pool

variable {pool next : GglSocketPool maxSubs} {client after : SubsClient maxSubs} {conn : Int32}
  {epollAdded : Bool} {handle : UInt32}

/-- The callbacks of a slot that was just registered are set. -/
@[simp]
theorem protected_setSubCallbacks {index : Fin maxSubs.toNat} (isSet : Bool) :
    (gglSocketHandleProtected (setSubCallbacks isSet) (pool.setFd index conn)
      (pool.handleOf index) client).2 = setSubCallbacks isSet index client := by
  have valid : validateHandle (pool.setFd index conn) (pool.handleOf index) = .ok index :=
    validateHandle_eq_ok_iff.mpr rfl
  rw [gglSocketHandleProtected, valid]

@[simp]
theorem setSubCallbacks_again {index : Fin maxSubs.toNat} (isSet wasSet : Bool) :
    setSubCallbacks isSet index (setSubCallbacks wasSet index client) =
      setSubCallbacks isSet index client := by
  rw [setSubCallbacks, setSubCallbacks, setSubCallbacks, update_idem]

/-- The client after the callback of a slot of the pool. -/
def SubsClient.closed (client : SubsClient maxSubs) (index : Fin maxSubs.toNat)
    (handle : UInt32) : SubsClient maxSubs :=
  if client.callbacks index then
    { client with table := client.table.subscriptionOnClose handle } else client

@[simp]
theorem clientRelease_valid (pool : GglSocketPool maxSubs) (client : SubsClient maxSubs)
    (index : Fin maxSubs.toNat) :
    gglSocketPoolRelease clientHooks pool client (pool.handleOf index) =
      (.ok (pool.fds index), pool.freed index, client.closed index (pool.handleOf index)) := by
  rw [gglSocketPoolRelease, validateHandle_handleOf]
  rfl

/-- A subscription that fails leaves the table alone, and the pool up to one free slot. -/
theorem gglSubscribe_cases {result : Except GglError UInt32}
    (subscribed : gglSubscribe pool client conn epollAdded = (result, next, after)) :
    match result with
    | .ok handle => ∃ index, pool.fds index = fdFree ∧ handle = pool.handleOf index ∧
        next = pool.setFd index conn ∧ after = setSubCallbacks true index client
    | .error _ => next = pool ∧ after = client ∨
        ∃ index, pool.fds index = fdFree ∧ next = (pool.setFd index conn).freed index ∧
          after = setSubCallbacks false index client := by
  rw [gglSubscribe] at subscribed
  split at subscribed
  case h_1 refused =>
    cases subscribed
    rcases gglSocketPoolRegister_cases refused with ⟨rfl, rfl | ⟨_, _, _, ⟨⟩⟩⟩
    exact .inl ⟨rfl, rfl⟩
  case h_2 registered =>
    rcases gglSocketPoolRegister_cases registered with ⟨index, _, isFree, rfl, rfl, hooked⟩
    obtain rfl : setSubCallbacks false index client = _ := congrArg Prod.snd hooked
    dsimp only at subscribed
    rw [protected_setSubCallbacks, protected_setSubCallbacks, setSubCallbacks_again,
      setSubCallbacks_again] at subscribed
    split at subscribed
    · cases subscribed
      exact ⟨index, isFree, rfl, rfl, rfl⟩
    · have released := clientRelease_valid (pool.setFd index conn)
        (setSubCallbacks false index client) index
      rw [SubsClient.closed, if_neg (by simp [setSubCallbacks])] at released
      rw [show pool.handleOf index = (pool.setFd index conn).handleOf index from rfl,
        released] at subscribed
      cases subscribed
      exact .inr ⟨index, isFree, rfl, rfl⟩

@[simp]
theorem SubsClient.closed_callbacks {index : Fin maxSubs.toNat} :
    (client.closed index handle).callbacks = client.callbacks := by
  rw [closed]
  split <;> rfl

/-- A closed subscription frees its slot and leaves the others alone. -/
theorem SubsClient.closed_apply (client : SubsClient maxSubs) (index slot : Fin maxSubs.toNat)
    (handle : UInt32) :
    (client.closed index handle).table slot = client.table slot ∨
      (client.table slot).recvHandle = handle ∧
        (client.closed index handle).table slot = .free := by
  rw [closed]
  split
  · exact SubsTable.subscriptionOnClose_apply client.table handle slot
  · exact .inl rfl

@[simp]
theorem SubsClient.closed_of_recorded {index slot : Fin maxSubs.toNat}
    (recorded : ((client.closed index handle).table slot).recvHandle ≠ 0) :
    (client.closed index handle).table slot = client.table slot := by
  rcases client.closed_apply index slot handle with same | ⟨_, freed⟩
  · exact same
  · rw [freed] at recorded
    exact absurd rfl recorded

end Pool

end GreengrassLite

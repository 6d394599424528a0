import GreengrassLite.Ipc.Subscriptions

/-!
# Responses are forwarded and slots become free

A slot whose receive handle is recorded belongs to an open subscription, and no two slots
have the same one.  So responses reach the stream that was bound, and the slot becomes free
with the subscription or the connection.  This is kept by every step, unless
`subs_set_recv_handle` records a subscription that was closed in the meantime: its slot
never becomes free.

The two threads take the mutexes of the two pools in opposite orders.  When the one closes
a subscription while the other forwards a response, each waits for the other for ever.
-/

namespace GreengrassLite

open Library List GglSocketPool

variable {maxSubs : UInt16}
  {history : List SubsEvent}

/-! ## The invariant -/

/-- Every recorded subscription is open, with its callbacks, and belongs to a connection. -/
structure SubsClient.Linked (client : SubsClient maxSubs) (pool : GglSocketPool maxSubs) :
    Prop where
  live : ∀ slot, (client.table slot).recvHandle ≠ 0 → (client.table slot).respHandle ≠ 0 ∧
    ∃ index, LiveAt pool (client.table slot).recvHandle index ∧ client.callbacks index = true
  distinct : client.table.Distinct

section Linked

variable {pool : GglSocketPool maxSubs} {client : SubsClient maxSubs} {conn : Int32}

namespace SubsClient.Linked

variable {index : Fin maxSubs.toNat}

section

variable (linked : client.Linked pool)

include linked

/-- A free slot has no subscription. -/
theorem unrecorded_of_unclaimed {slot : Fin maxSubs.toNat}
    (isFree : (client.table slot).respHandle = 0) : (client.table slot).recvHandle = 0 := by
  by_contra recorded
  exact (linked.live slot recorded).1 isFree

/-- A slot of the pool that was free is taken. -/
theorem setFd (isFree : pool.fds index = fdFree) (isSet : Bool) :
    (setSubCallbacks isSet index client).Linked (pool.setFd index conn) := by
  refine ⟨?_, linked.distinct⟩
  intro slot recorded
  rcases linked.live slot recorded with ⟨belongs, other, live, callbacks⟩
  have different : other ≠ index := by
    rintro rfl
    exact live.2 isFree
  exact ⟨belongs, other, live.setFd_of_ne different conn,
    (Function.update_of_ne different _ _).trans callbacks⟩

theorem freed (unrecorded : ∀ slot, (client.table slot).recvHandle ≠ pool.handleOf index) :
    client.Linked (pool.freed index) := by
  refine ⟨?_, linked.distinct⟩
  intro slot recorded
  rcases linked.live slot recorded with ⟨belongs, other, live, callbacks⟩
  have different : other ≠ index := by
    rintro rfl
    exact unrecorded slot live.1
  exact ⟨belongs, other, live.freed_of_ne different, callbacks⟩

/-- A slot of the pool that is free has no subscription in the table. -/
theorem unrecorded (isFree : pool.fds index = fdFree) (slot : Fin maxSubs.toNat) :
    (client.table slot).recvHandle ≠ pool.handleOf index := by
  intro recorded
  have isHandle : (client.table slot).recvHandle ≠ 0 :=
    recorded ▸ handleOf_ne_zero
  rcases linked.live slot isHandle with ⟨_, other, live, _⟩
  rw [handleOf_injective (recorded.symm.trans live.1)] at isFree
  exact live.2 isFree

end

/-- A released handle is in no slot. -/
theorem unrecorded_of_freed (linked : client.Linked (pool.freed index))
    (slot : Fin maxSubs.toNat) : (client.table slot).recvHandle ≠ pool.handleOf index := by
  intro recorded
  have isHandle : (client.table slot).recvHandle ≠ 0 :=
    recorded ▸ handleOf_ne_zero
  rcases linked.live slot isHandle with ⟨_, other, live, _⟩
  rcases live.of_freed with ⟨different, live⟩
  exact different (handleOf_injective (live.1.symm.trans recorded))

/-- A slot gets another entry, without a subscription or with an open one that no slot has. -/
theorem update (linked : client.Linked pool) {slot : Fin maxSubs.toNat} {entry : SubsSlot}
    (opened : entry.recvHandle ≠ 0 → entry.respHandle ≠ 0 ∧
      (∃ index, LiveAt pool entry.recvHandle index ∧ client.callbacks index = true) ∧
      ∀ other, (client.table other).recvHandle ≠ entry.recvHandle) :
    ({ client with table := Function.update client.table slot entry } :
      SubsClient maxSubs).Linked pool := by
  constructor
  · intro other recorded
    dsimp only at recorded ⊢
    by_cases isSlot : other = slot
    · rw [isSlot, Function.update_self] at recorded ⊢
      exact ⟨(opened recorded).1, (opened recorded).2.1⟩
    · rw [Function.update_of_ne isSlot] at recorded ⊢
      exact linked.live other recorded
  · intro first second recorded same
    dsimp only at recorded same
    by_cases isFirst : first = slot
    · by_cases isSecond : second = slot
      · rw [isFirst, isSecond]
      · rw [isFirst, Function.update_self] at recorded same
        rw [Function.update_of_ne isSecond] at same
        exact absurd same.symm ((opened recorded).2.2 second)
    · rw [Function.update_of_ne isFirst] at recorded same
      by_cases isSecond : second = slot
      · rw [isSecond, Function.update_self] at same
        exact absurd same ((opened (same ▸ recorded)).2.2 first)
      · rw [Function.update_of_ne isSecond] at same
        exact linked.distinct first second recorded same

theorem closed (linked : client.Linked pool) (index : Fin maxSubs.toNat) :
    (client.closed index (pool.handleOf index)).Linked (pool.freed index) := by
  constructor
  · intro slot recorded
    have kept := closed_of_recorded recorded
    rw [kept] at recorded ⊢
    rcases linked.live slot recorded with ⟨belongs, other, live, callbacks⟩
    have different : other ≠ index := by
      rintro rfl
      have freed := linked.distinct.subscriptionOnClose handleOf_ne_zero live.1
      rw [SubsClient.closed, if_pos callbacks] at kept
      exact recorded (congrArg SubsSlot.recvHandle (kept.symm.trans freed))
    refine ⟨belongs, other, live.freed_of_ne different, ?_⟩
    rw [closed_callbacks]
    exact callbacks
  · intro slot other recorded same
    have kept := closed_of_recorded recorded
    have otherKept := closed_of_recorded (same ▸ recorded)
    rw [kept] at recorded same
    rw [otherKept] at same
    exact linked.distinct slot other recorded same

end SubsClient.Linked

end Linked

namespace IpcThread

/-- The slot that `ggl_ipc_bind_subscription` is working on. -/
def binding : IpcThread maxSubs → Option (Fin maxSubs.toNat)
  | .claimed slot _ _ => some slot
  | .failed slot _ => some slot
  | .subscribed slot _ _ _ => some slot
  | _ => none

/-- What the IPC thread knows. -/
def InOrder (pool : GglSocketPool maxSubs) (client : SubsClient maxSubs) :
    IpcThread maxSubs → Prop
  | .idle => True
  | .claimed slot respHandle streamId =>
    respHandle ≠ 0 ∧ client.table slot = ⟨respHandle, streamId, 0⟩
  | .failed slot respHandle =>
    (client.table slot).respHandle = respHandle ∧ (client.table slot).recvHandle = 0
  | .subscribed slot respHandle streamId recvHandle =>
    respHandle ≠ 0 ∧ client.table slot = ⟨respHandle, streamId, 0⟩ ∧ recvHandle ≠ 0 ∧
      (∀ other, (client.table other).recvHandle ≠ recvHandle) ∧
      ∀ index, LiveAt pool recvHandle index → client.callbacks index = true
  | .releasing respHandle slots =>
    respHandle ≠ 0 ∧ ∀ slot ∉ slots, (client.table slot).respHandle ≠ respHandle
  | .closing respHandle recvHandle slot slots =>
    respHandle ≠ 0 ∧
      (∀ other ∉ slots, other ≠ slot → (client.table other).respHandle ≠ respHandle) ∧
      ((client.table slot).respHandle = respHandle →
        (client.table slot).recvHandle = recvHandle)

/-- A subscription that is closed does not concern the IPC thread, except that its slot may
be the one that is released. -/
theorem InOrder.closed {pool : GglSocketPool maxSubs} {client : SubsClient maxSubs}
    {thread : IpcThread maxSubs} (ordered : thread.InOrder pool client)
    (index : Fin maxSubs.toNat) :
    thread.InOrder (pool.freed index) (client.closed index (pool.handleOf index)) := by
  have isHandle : pool.handleOf index ≠ 0 := handleOf_ne_zero
  have kept : ∀ slot, (client.table slot).recvHandle = 0 →
      (client.closed index (pool.handleOf index)).table slot = client.table slot := by
    intro slot unrecorded
    rcases client.closed_apply index slot (pool.handleOf index) with same | ⟨recorded, _⟩
    · exact same
    · exact absurd (recorded.symm.trans unrecorded) isHandle
  have released : ∀ {slot respHandle}, respHandle ≠ 0 →
      (client.table slot).respHandle ≠ respHandle →
      ((client.closed index (pool.handleOf index)).table slot).respHandle ≠ respHandle := by
    intro slot respHandle isConnection different
    rcases client.closed_apply index slot (pool.handleOf index) with same | ⟨_, freed⟩
    · rw [same]
      exact different
    · rw [freed]
      exact isConnection.symm
  cases thread with
  | idle => trivial
  | claimed slot respHandle streamId =>
    rcases ordered with ⟨isConnection, entry⟩
    exact ⟨isConnection, (kept slot (by rw [entry])).trans entry⟩
  | failed slot respHandle =>
    rcases ordered with ⟨belongs, unrecorded⟩
    rw [InOrder, kept slot unrecorded]
    exact ⟨belongs, unrecorded⟩
  | subscribed slot respHandle streamId recvHandle =>
    rcases ordered with ⟨isConnection, entry, isRecv, unrecorded, callbacks⟩
    refine ⟨isConnection, (kept slot (by rw [entry])).trans entry, isRecv, ?_, ?_⟩
    · intro other recorded
      have same := SubsClient.closed_of_recorded (recorded ▸ isRecv)
      exact unrecorded other (same ▸ recorded)
    · intro other live
      rw [SubsClient.closed_callbacks]
      exact callbacks other live.of_freed.2
  | releasing respHandle slots =>
    exact ⟨ordered.1, fun slot visited => released ordered.1 (ordered.2 slot visited)⟩
  | closing respHandle recvHandle slot slots =>
    rcases ordered with ⟨isConnection, visited, belongs⟩
    refine ⟨isConnection, fun other notLeft different =>
      released isConnection (visited other notLeft different), ?_⟩
    intro stays
    rcases client.closed_apply index slot (pool.handleOf index) with same | ⟨_, freed⟩
    · rw [same] at stays ⊢
      exact belongs stays
    · rw [freed] at stays
      exact absurd stays.symm isConnection

/-- A slot has been visited when it no longer belongs to the connection that is closed. -/
theorem InOrder.visited {pool : GglSocketPool maxSubs} {client : SubsClient maxSubs}
    {respHandle : UInt32} {slot : Fin maxSubs.toNat} {slots : List (Fin maxSubs.toNat)}
    (isConnection : respHandle ≠ 0)
    (others : ∀ other ∉ slots, other ≠ slot → (client.table other).respHandle ≠ respHandle)
    (passed : (client.table slot).respHandle ≠ respHandle) :
    (releasing respHandle slots).InOrder pool client := by
  refine ⟨isConnection, fun other notLeft => ?_⟩
  by_cases isSlot : other = slot
  · exact isSlot ▸ passed
  · exact others other notLeft isSlot

end IpcThread

/-- The table, the pool and the IPC thread agree. -/
structure IpcSubs.InOrder (state : IpcSubs maxSubs) : Prop where
  linked : state.client.Linked state.pool
  occupied : ∀ slot, (state.client.table slot).respHandle ≠ 0 →
    (state.client.table slot).recvHandle ≠ 0 ∨ state.ipcThread.binding = some slot
  thread : state.ipcThread.InOrder state.pool state.client

/-- The subscription is open when its handle is recorded. -/
def IpcSubs.RecordsOpen (state : IpcSubs maxSubs) (event : SubsEvent) : Prop :=
  ∀ recvHandle respHandle streamId, event = .bound recvHandle respHandle streamId →
    ∃ index, LiveAt state.pool recvHandle index

namespace IpcSubs

variable {state next : IpcSubs maxSubs} {event : SubsEvent}

@[simp]
theorem close_valid (state : IpcSubs maxSubs) (index : Fin maxSubs.toNat) :
    state.close (state.pool.handleOf index) = { state with
      pool := state.pool.freed index
      client := state.client.closed index (state.pool.handleOf index) } := by
  rw [close, clientRelease_valid]

/-- Closing a handle that is not valid does nothing. -/
theorem close_eq (state : IpcSubs maxSubs) (handle : UInt32) :
    state.close handle = state ∨ ∃ index, handle = state.pool.handleOf index ∧
      state.close handle = { state with
        pool := state.pool.freed index
        client := state.client.closed index handle } := by
  cases valid : validateHandle state.pool handle with
  | error error =>
    left
    rw [close, gglSocketPoolRelease, valid]
  | ok index =>
    right
    rcases validateHandle_eq_ok_iff.mp valid with rfl
    exact ⟨index, rfl, state.close_valid index⟩

section

variable (ordered : state.InOrder)

include ordered

theorem InOrder.close (handle : UInt32) : (state.close handle).InOrder := by
  rcases state.close_eq handle with unchanged | ⟨index, rfl, changed⟩
  · rw [unchanged]
    exact ordered
  · rw [changed]
    refine ⟨ordered.linked.closed index, ?_, ordered.thread.closed index⟩
    intro slot taken
    rcases state.client.closed_apply index slot (state.pool.handleOf index) with
      same | ⟨_, freed⟩
    · rw [same] at taken ⊢
      exact ordered.occupied slot taken
    · exact absurd (congrArg SubsSlot.respHandle freed) taken

/-- What the IPC thread knows at a point. -/
theorem InOrder.at {thread : IpcThread maxSubs} (isAt : state.ipcThread = thread) :
    thread.InOrder state.pool state.client :=
  isAt ▸ ordered.thread

/-- While no slot is being bound, every slot that is taken has a subscription. -/
theorem InOrder.recorded (notBinding : state.ipcThread.binding = none) {slot : Fin maxSubs.toNat}
    (taken : (state.client.table slot).respHandle ≠ 0) :
    (state.client.table slot).recvHandle ≠ 0 := by
  rcases ordered.occupied slot taken with recorded | binds
  · exact recorded
  · rw [notBinding] at binds
    cases binds

/-- A slot that is being bound gets another entry. -/
theorem InOrder.occupied_update {slot : Fin maxSubs.toNat} {entry : SubsSlot}
    (binds : state.ipcThread.binding = some slot)
    (complete : entry.respHandle ≠ 0 → entry.recvHandle ≠ 0) (other : Fin maxSubs.toNat)
    (taken : (Function.update state.client.table slot entry other).respHandle ≠ 0) :
    (Function.update state.client.table slot entry other).recvHandle ≠ 0 := by
  by_cases isSlot : other = slot
  · rw [isSlot, Function.update_self] at taken ⊢
    exact complete taken
  · rw [Function.update_of_ne isSlot] at taken ⊢
    rcases ordered.occupied other taken with recorded | bindsOther
    · exact recorded
    · exact absurd (Option.some.inj (bindsOther.symm.trans binds)) isSlot

theorem InOrder.step (step : SubsStep state event next) (recordsOpen : state.RecordsOpen event) :
    next.InOrder := by
  have occupied := ordered.occupied
  cases step with
  | @claim respHandle streamId slot table isIdle isConnection claimed =>
    rcases SubsTable.initSubsIndex_eq_some claimed with ⟨isFree, rfl⟩
    have unrecorded := ordered.linked.unrecorded_of_unclaimed isFree
    refine ⟨ordered.linked.update (absurd unrecorded), ?_, isConnection, ?_⟩
    · intro other taken
      by_cases isSlot : other = slot
      · exact .inr (congrArg some isSlot.symm)
      · dsimp only at taken ⊢
        rw [Function.update_of_ne isSlot] at taken ⊢
        exact .inl (ordered.recorded (by rw [isIdle]; rfl) taken)
    · dsimp only
      rw [Function.update_self, unrecorded]
  | refuse => exact ordered
  | requestFails isClaimed =>
    rcases ordered.at isClaimed with ⟨isConnection, entry⟩
    rw [isClaimed] at occupied
    exact ⟨ordered.linked, occupied, by rw [entry], by rw [entry]⟩
  | subscribeFails isClaimed _ failed =>
    rcases ordered.at isClaimed with ⟨isConnection, entry⟩
    rw [isClaimed] at occupied
    rcases gglSubscribe_cases failed with ⟨rfl, rfl⟩ | ⟨index, isFree, rfl, rfl⟩
    · exact ⟨ordered.linked, occupied, by rw [entry], by rw [entry]⟩
    · refine ⟨?_, occupied, congrArg SubsSlot.respHandle entry,
        congrArg SubsSlot.recvHandle entry⟩
      exact (ordered.linked.setFd isFree false).freed (ordered.linked.unrecorded isFree)
  | subscribe isClaimed _ subscribed =>
    rcases ordered.at isClaimed with ⟨isConnection, entry⟩
    rw [isClaimed] at occupied
    rcases gglSubscribe_cases subscribed with ⟨index, isFree, rfl, rfl, rfl⟩
    refine ⟨ordered.linked.setFd isFree true, occupied, isConnection, entry,
      handleOf_ne_zero, ordered.linked.unrecorded isFree, ?_⟩
    intro other live
    rw [← handleOf_injective live.1]
    exact Function.update_self _ _ _
  | release isFailed =>
    rcases ordered.at isFailed with ⟨belongs, unrecorded⟩
    rw [SubsTable.releaseSubsIndex, if_pos belongs]
    refine ⟨ordered.linked.update (absurd rfl), ?_, trivial⟩
    intro other taken
    exact .inl (ordered.occupied_update (by rw [isFailed]; rfl) (absurd rfl) other taken)
  | record isSubscribed =>
    rcases ordered.at isSubscribed with ⟨isConnection, entry, isRecv, unrecorded, callbacks⟩
    rcases recordsOpen _ _ _ rfl with ⟨index, live⟩
    rw [SubsTable.subsSetRecvHandle, if_pos (congrArg SubsSlot.respHandle entry), entry]
    refine ⟨ordered.linked.update fun _ => ⟨isConnection, ⟨index, live, callbacks index live⟩,
      unrecorded⟩, ?_, trivial⟩
    intro other taken
    exact .inl (ordered.occupied_update (by rw [isSubscribed]; rfl) (fun _ => isRecv) other taken)
  | respond | respondFails | forward | forwardFails =>
    exact ⟨ordered.linked, ordered.occupied, ordered.thread⟩
  | @closeAfter recvHandle hasFailed =>
    have closed := ordered.close recvHandle
    exact ⟨closed.linked, closed.occupied, closed.thread⟩
  | close _ live => exact ordered.close _
  | disconnect isIdle isConnection =>
    rw [isIdle] at occupied
    refine ⟨ordered.linked, occupied, isConnection, ?_⟩
    intro slot notLeft
    exact absurd (mem_finRange slot) notLeft
  | find isReleasing belongs recorded =>
    rcases ordered.at isReleasing with ⟨isConnection, visited⟩
    rw [isReleasing] at occupied
    refine ⟨ordered.linked, occupied, isConnection, ?_, fun _ => rfl⟩
    intro other notLeft different
    exact visited other (not_mem_cons_of_ne_of_not_mem different notLeft)
  | @skip respHandle slot slots isReleasing passed =>
    rcases ordered.at isReleasing with ⟨isConnection, visited⟩
    rw [isReleasing] at occupied
    have others : ∀ other ∉ slots, other ≠ slot →
        (state.client.table other).respHandle ≠ respHandle := fun other notLeft different =>
      visited other (not_mem_cons_of_ne_of_not_mem different notLeft)
    refine ⟨ordered.linked, occupied, .visited isConnection others ?_⟩
    intro belongs
    have taken : (state.client.table slot).respHandle ≠ 0 := belongs ▸ isConnection
    exact passed ⟨belongs, ordered.recorded (by rw [isReleasing]; rfl) taken⟩
  | @closeRecv respHandle recvHandle slot index slots isClosing _ valid =>
    rcases validateHandle_eq_ok_iff.mp valid with rfl
    have closed := ordered.close (state.pool.handleOf index)
    rw [state.close_valid] at closed ⊢
    rcases closed.at isClosing with ⟨isConnection, visited, isRecv⟩
    have closedOccupied := closed.occupied
    rw [isClosing] at closedOccupied
    refine ⟨closed.linked, closedOccupied, .visited isConnection visited ?_⟩
    -- the subscription of the slot is the one that was closed
    exact fun belongs => closed.linked.unrecorded_of_freed slot (isRecv belongs)
  | @closeStale respHandle recvHandle slot slots error isClosing _ stale =>
    rcases ordered.at isClosing with ⟨isConnection, visited, isRecv⟩
    rw [isClosing] at occupied
    refine ⟨ordered.linked, occupied, .visited isConnection visited ?_⟩
    intro belongs
    -- a slot of the connection would have an open subscription
    have recorded := ordered.recorded (by rw [isClosing]; rfl) (belongs ▸ isConnection)
    rcases (ordered.linked.live slot recorded).2 with ⟨index, live, _⟩
    rw [isRecv belongs] at live
    rw [validateHandle_eq_ok_iff.mpr live.1] at stale
    cases stale
  | disconnected isReleasing =>
    rw [isReleasing] at occupied
    exact ⟨ordered.linked, occupied, trivial⟩

end

end IpcSubs

/-! ## Histories -/

/-- What a step does to the table. -/
inductive TableChange (table : SubsTable maxSubs) : SubsEvent → SubsTable maxSubs → Prop
  | same {event}
      (unbound : ∀ recvHandle respHandle streamId,
        event ≠ .bound recvHandle respHandle streamId) : TableChange table event table
  | claim {slot respHandle streamId}
      (unrecorded : (table slot).recvHandle = 0) :
      TableChange table (.claimed respHandle streamId)
        (Function.update table slot ⟨respHandle, streamId, 0⟩)
  | release {slot} (unrecorded : (table slot).recvHandle = 0) :
      TableChange table .internal (Function.update table slot .free)
  | record {slot respHandle recvHandle streamId}
      (entry : table slot = ⟨respHandle, streamId, 0⟩) (isRecv : recvHandle ≠ 0) :
      TableChange table (.bound recvHandle respHandle streamId)
        (Function.update table slot ⟨respHandle, streamId, recvHandle⟩)
  | close {recvHandle next}
      (freed : ∀ slot, next slot = table slot ∨
        (table slot).recvHandle = recvHandle ∧ next slot = .free) :
      TableChange table (.closed recvHandle) next

theorem IpcSubs.close_change (state : IpcSubs maxSubs) (recvHandle : UInt32) :
    TableChange state.client.table (.closed recvHandle) (state.close recvHandle).client.table := by
  apply TableChange.close
  intro slot
  rcases state.close_eq recvHandle with unchanged | ⟨index, isHandle, changed⟩
  · rw [unchanged]
    exact .inl rfl
  · rw [changed]
    exact state.client.closed_apply index slot recvHandle

theorem SubsStep.change {state next : IpcSubs maxSubs} {event : SubsEvent}
    (step : SubsStep state event next) (ordered : state.InOrder) :
    TableChange state.client.table event next.client.table := by
  cases step with
  | @claim respHandle streamId slot table isIdle isConnection claimed =>
    rcases SubsTable.initSubsIndex_eq_some claimed with ⟨isFree, rfl⟩
    have unrecorded := ordered.linked.unrecorded_of_unclaimed isFree
    dsimp only
    rw [unrecorded]
    exact .claim unrecorded
  | refuse | requestFails | respond | respondFails | forward | forwardFails | disconnect | find
  | skip | closeStale | disconnected => exact .same nofun
  | subscribeFails _ _ failed =>
    rcases gglSubscribe_cases failed with ⟨_, rfl⟩ | ⟨index, _, _, rfl⟩
    · exact .same nofun
    · exact .same nofun
  | subscribe _ _ subscribed =>
    rcases gglSubscribe_cases subscribed with ⟨index, _, _, _, rfl⟩
    exact .same nofun
  | release isFailed =>
    rcases ordered.at isFailed with ⟨belongs, unrecorded⟩
    rw [SubsTable.releaseSubsIndex, if_pos belongs]
    exact .release unrecorded
  | record isSubscribed =>
    rcases ordered.at isSubscribed with ⟨_, entry, isRecv, _⟩
    rw [SubsTable.subsSetRecvHandle, if_pos (congrArg SubsSlot.respHandle entry), entry]
    exact .record entry isRecv
  | closeAfter | close | closeRecv => exact state.close_change _

namespace TableChange

variable {table next : SubsTable maxSubs} {event : SubsEvent}

/-- The slot of a subscription that is not closed stays as it is. -/
theorem kept (change : TableChange table event next) {slot : Fin maxSubs.toNat}
    (recorded : (table slot).recvHandle ≠ 0) (isOpen : event ≠ .closed (table slot).recvHandle) :
    next slot = table slot := by
  have different : ∀ {other}, (table other).recvHandle = 0 → slot ≠ other := by
    rintro other unrecorded rfl
    exact recorded unrecorded
  cases change with
  | same => rfl
  | claim unrecorded | release unrecorded => exact Function.update_of_ne (different unrecorded) _ _
  | record entry =>
    exact Function.update_of_ne (different (congrArg SubsSlot.recvHandle entry)) _ _
  | close freed =>
    rcases freed slot with same | ⟨isClosed, _⟩
    · exact same
    · exact absurd (congrArg SubsEvent.closed isClosed.symm) isOpen

/-- A connection gets a slot only if it claims one. -/
theorem unclaimed (change : TableChange table event next) {respHandle : UInt32}
    (isConnection : respHandle ≠ 0)
    (notClaimed : ∀ streamId, event ≠ .claimed respHandle streamId)
    (others : ∀ slot, (table slot).respHandle ≠ respHandle) (slot : Fin maxSubs.toNat) :
    (next slot).respHandle ≠ respHandle := by
  have updated : ∀ {changed entry}, entry.respHandle ≠ respHandle →
      (Function.update table changed entry slot).respHandle ≠ respHandle := by
    intro changed entry different
    by_cases isChanged : slot = changed
    · rw [isChanged, Function.update_self]
      exact different
    · rw [Function.update_of_ne isChanged]
      exact others slot
  cases change with
  | same => exact others slot
  | claim =>
    apply updated
    rintro rfl
    exact notClaimed _ rfl
  | release => exact updated isConnection.symm
  | @record recorded _ _ _ entry =>
    apply updated
    have different := others recorded
    rw [entry] at different
    exact different
  | close freed =>
    rcases freed slot with same | ⟨_, isFree⟩
    · rw [same]
      exact others slot
    · rw [isFree]
      exact isConnection.symm

end TableChange

/-- Every subscription that was bound and is open has its slot, and a connection that was
closed has none. -/
structure BoundSlots (history : List SubsEvent) (table : SubsTable maxSubs) : Prop where
  bound : ∀ {recvHandle respHandle streamId since},
    Since history (.bound recvHandle respHandle streamId) since → .closed recvHandle ∉ since →
    recvHandle ≠ 0 ∧ ∃ slot, table slot = ⟨respHandle, streamId, recvHandle⟩
  released : ∀ {respHandle since}, Since history (.disconnected respHandle) since →
    respHandle ≠ 0 → (∀ streamId, .claimed respHandle streamId ∉ since) →
    ∀ slot, (table slot).respHandle ≠ respHandle

theorem BoundSlots.change {table next : SubsTable maxSubs} {event : SubsEvent}
    (slots : BoundSlots history table) (change : TableChange table event next)
    (disconnects : ∀ respHandle, event = .disconnected respHandle →
      ∀ slot, (next slot).respHandle ≠ respHandle) :
    BoundSlots (event :: history) next := by
  constructor
  · intro recvHandle respHandle streamId since occurred isOpen
    rcases since_cons_iff.mp occurred with ⟨rfl, rfl⟩ | ⟨older, rfl, earlier⟩
    · cases change with
      | same unbound => exact absurd rfl (unbound _ _ _)
      | @record slot _ _ _ entry isRecv =>
        exact ⟨isRecv, slot, Function.update_self _ _ _⟩
    · rw [mem_cons, not_or] at isOpen
      rcases slots.bound earlier isOpen.2 with ⟨isRecv, slot, entry⟩
      refine ⟨isRecv, slot, ?_⟩
      rw [change.kept (by rw [entry]; exact isRecv) (by rw [entry]; exact Ne.symm isOpen.1), entry]
  · intro respHandle since occurred isConnection unclaimed
    rcases since_cons_iff.mp occurred with ⟨rfl, rfl⟩ | ⟨older, rfl, earlier⟩
    · exact disconnects respHandle rfl
    · apply change.unclaimed isConnection
      · intro streamId isClaim
        exact unclaimed streamId (isClaim ▸ mem_cons_self)
      · exact slots.released earlier isConnection fun streamId found =>
          unclaimed streamId (mem_cons_of_mem _ found)

/-! ## The mutexes -/

namespace IpcSubs

/-- The client thread holds the mutex of its pool and waits for that of the connections, and the
IPC thread the other way round. -/
def Deadlocked (state : IpcSubs maxSubs) : Prop :=
  (∃ recvHandle respHandle streamId,
    state.clientThread = .forwarding recvHandle respHandle streamId) ∧
  ∃ respHandle recvHandle slot slots, state.ipcThread = .closing respHandle recvHandle slot slots

/-- No subscription is closed for a connection while a response is forwarded, and no response is
to be forwarded while a subscription is closed for a connection. -/
def Apart (state : IpcSubs maxSubs) (event : SubsEvent) : Prop :=
  (∀ recvHandle, event = .closing recvHandle → ∀ handle respHandle streamId,
    state.clientThread ≠ .forwarding handle respHandle streamId) ∧
  ∀ recvHandle respHandle streamId, event = .response recvHandle respHandle streamId →
    ∀ connection handle slot slots, state.ipcThread ≠ .closing connection handle slot slots

variable {state next : IpcSubs maxSubs} {event : SubsEvent}

theorem Deadlocked.not_step (stuck : state.Deadlocked) : ¬SubsStep state event next := by
  obtain ⟨⟨recvHandle, respHandle, streamId, forwarding⟩, connection, handle, slot, slots,
    closing⟩ := stuck
  intro step
  cases step <;> simp_all [IpcThread.holdsPool]

/-- The IPC thread goes through the slots. -/
theorem exists_step_of_releasing {respHandle : UInt32} {slots : List (Fin maxSubs.toNat)}
    (isReleasing : state.ipcThread = .releasing respHandle slots) :
    ∃ event next, SubsStep state event next := by
  cases slots with
  | nil => exact ⟨_, _, .disconnected isReleasing⟩
  | cons slot slots =>
    by_cases found : (state.client.table slot).respHandle = respHandle ∧
        (state.client.table slot).recvHandle ≠ 0
    · exact ⟨_, _, .find isReleasing found.1 found.2⟩
    · exact ⟨_, _, .skip isReleasing found⟩

/-- Some thread can go on, unless the two wait for each other. -/
theorem exists_step_iff : (∃ event next, SubsStep state event next) ↔ ¬state.Deadlocked := by
  constructor
  · rintro ⟨event, next, step⟩ stuck
    exact stuck.not_step step
  · intro notStuck
    cases client : state.clientThread with
    | failed recvHandle => exact ⟨_, _, .closeAfter client⟩
    | forwarding recvHandle respHandle streamId =>
      cases ipc : state.ipcThread with
      | closing =>
        exact absurd ⟨⟨_, _, _, client⟩, _, _, _, _, ipc⟩ notStuck
      | releasing respHandle slots => exact exists_step_of_releasing ipc
      | _ => exact ⟨_, _, .forward client (by rw [ipc]; rfl)⟩
    | idle =>
      cases ipc : state.ipcThread with
      | idle => exact ⟨_, _, @SubsStep.disconnect _ _ 1 ipc (by decide)⟩
      | claimed slot respHandle streamId => exact ⟨_, _, .requestFails ipc⟩
      | failed slot respHandle => exact ⟨_, _, .release ipc⟩
      | subscribed slot respHandle streamId recvHandle => exact ⟨_, _, .record ipc⟩
      | releasing respHandle slots => exact exists_step_of_releasing ipc
      | closing respHandle recvHandle slot slots =>
        cases valid : validateHandle state.pool recvHandle with
        | ok index => exact ⟨_, _, .closeRecv ipc client valid⟩
        | error error => exact ⟨_, _, .closeStale ipc client valid⟩

/-- The two threads come to wait for each other exactly if a step does not keep them apart. -/
theorem deadlocked_iff (step : SubsStep state event next) (notStuck : ¬state.Deadlocked) :
    ¬next.Deadlocked ↔ state.Apart event := by
  rw [Deadlocked] at notStuck ⊢
  rw [Apart]
  cases step <;> simp_all [close]

end IpcSubs

/-! ## Runs -/

/-- A step that records only open subscriptions and keeps the threads apart. -/
def SoundStep (state : IpcSubs maxSubs) (event : SubsEvent) (next : IpcSubs maxSubs) : Prop :=
  SubsStep state event next ∧ state.RecordsOpen event ∧ state.Apart event

/-- A response of an open subscription, for which `ggl_ipc_bind_subscription` has returned
`GGL_ERR_OK`, is forwarded to the stream that was bound.  A slot that is taken is being bound,
or has an open subscription; none is left to a connection that was closed.  The threads do not
come to a standstill. -/
structure IpcSubs.Forwards (history : List SubsEvent) (state : IpcSubs maxSubs) : Prop where
  forwarded : ∀ recvHandle respHandle streamId since,
    Since history (.bound recvHandle respHandle streamId) since → .closed recvHandle ∉ since →
    state.client.table.subscriptionOnResponse recvHandle = some (respHandle, streamId)
  unleaked : ∀ slot, (state.client.table slot).respHandle ≠ 0 →
    state.ipcThread.binding = some slot ∨
      ∃ index, LiveAt state.pool (state.client.table slot).recvHandle index
  released : ∀ respHandle since, Since history (.disconnected respHandle) since →
    respHandle ≠ 0 → (∀ streamId, .claimed respHandle streamId ∉ since) →
    ∀ slot, (state.client.table slot).respHandle ≠ respHandle
  unblocked : ∃ event next, SubsStep state event next

theorem SubsStep.disconnects {state next : IpcSubs maxSubs} {event : SubsEvent}
    (step : SubsStep state event next) (ordered : state.InOrder) (respHandle : UInt32)
    (isLast : event = .disconnected respHandle) (slot : Fin maxSubs.toNat) :
    (next.client.table slot).respHandle ≠ respHandle := by
  subst isLast
  cases step with
  | disconnected isReleasing => exact (ordered.at isReleasing).2 slot not_mem_nil

theorem IpcSubs.InOrder.forwards {state : IpcSubs maxSubs} (ordered : state.InOrder)
    (slots : BoundSlots history state.client.table) (notStuck : ¬state.Deadlocked) :
    state.Forwards history := by
  refine ⟨?_, ?_, fun respHandle since => slots.released, IpcSubs.exists_step_iff.mpr notStuck⟩
  · intro recvHandle respHandle streamId since occurred isOpen
    rcases slots.bound occurred isOpen with ⟨isRecv, slot, entry⟩
    have found := ordered.linked.distinct.findRecv isRecv (congrArg SubsSlot.recvHandle entry)
    rw [SubsTable.subscriptionOnResponse, found]
    dsimp only
    rw [entry]
  · intro slot taken
    rcases ordered.occupied slot taken with recorded | binds
    · rcases (ordered.linked.live slot recorded).2 with ⟨index, live, _⟩
      exact .inr ⟨index, live⟩
    · exact .inl binds

theorem Run.ipcSubs {pool : GglSocketPool maxSubs} {state : IpcSubs maxSubs}
    (run : Run SoundStep (.initial pool) history state) :
    state.InOrder ∧ BoundSlots history state.client.table ∧ ¬state.Deadlocked := by
  apply run.invariant fun history state =>
    state.InOrder ∧ BoundSlots history state.client.table ∧ ¬state.Deadlocked
  · refine ⟨⟨⟨?_, ?_⟩, ?_, trivial⟩, ⟨?_, ?_⟩, ?_⟩
    · exact fun slot recorded => absurd rfl recorded
    · exact fun slot other recorded => absurd rfl recorded
    · exact fun slot taken => absurd rfl taken
    · exact fun occurred => absurd occurred not_since_nil
    · exact fun occurred => absurd occurred not_since_nil
    · rintro ⟨⟨_, _, _, forwarding⟩, _⟩
      cases forwarding
  · rintro history state event next ⟨ordered, slots, notStuck⟩ ⟨step, recordsOpen, apart⟩
    exact ⟨ordered.step step recordsOpen,
      slots.change (step.change ordered) (step.disconnects ordered),
      (IpcSubs.deadlocked_iff step notStuck).mpr apart⟩

section Examples

/-- A pool with room for one subscription, whose handle is 1. -/
def singlePool : GglSocketPool 1 :=
  ⟨fun _ => fdFree, fun _ => 0⟩

def singleSlotIndex : Fin (UInt16.toNat 1) :=
  ⟨0, Nat.one_pos⟩

/-- The connection is closed while a response is forwarded to it, and nothing goes on. -/
example : ∃ state : IpcSubs 1,
    Run SubsStep (.initial singlePool)
      [.closing 1, .internal, .response 1 7 3, .bound 1 7 3, .subscribed 1, .claimed 7 3] state ∧
      ∀ event next, ¬SubsStep state event next := by
  have start : Run SubsStep (.initial singlePool) [] (.initial singlePool) := .refl
  have claimed := start.tail (@SubsStep.claim _ _ 7 3 _ _ rfl (by decide) rfl)
  have subscribed := claimed.tail (@SubsStep.subscribe _ _ _ _ 1 _ 5 true _ _ rfl rfl rfl)
  have bound := subscribed.tail (.record rfl)
  have responded := bound.tail
    (@SubsStep.respond _ _ 1 singleSlotIndex _ _ rfl (by decide +kernel) rfl rfl)
  have disconnecting := responded.tail (@SubsStep.disconnect _ _ 7 rfl (by decide))
  have closing := disconnecting.tail (.find rfl rfl (by decide +kernel))
  exact ⟨_, closing, fun event next =>
    IpcSubs.Deadlocked.not_step ⟨⟨_, _, _, rfl⟩, _, _, _, _, rfl⟩⟩

end Examples

end GreengrassLite

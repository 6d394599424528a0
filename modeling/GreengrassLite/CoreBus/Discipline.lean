import GreengrassLite.CoreBus.Connections

/-!
# Requests and subscriptions on one connection

The type of a request is kept in the slot of its connection, and `ggl_sub_respond`
asserts that it is that of a subscription.  The next request on the same connection
overwrites it.  As long as no request comes in on a connection whose subscription was
accepted, no assertion of the server fails and the server thread does not wait for the
request it handles.
-/

namespace GreengrassLite

open Library List Function GglSocketPool

variable {maxClients : UInt16} {κ σ : Type}

/-- No request comes in on a connection whose subscription was accepted before. -/
def Undisturbed : List (BusEvent κ) → Prop
  | [] => True
  | .requested connection _ :: earlier =>
    (∀ onClose, .accepted connection onClose ∉ earlier) ∧ Undisturbed earlier
  | _ :: earlier => Undisturbed earlier

/-- The slot of the request has its type, and no subscription that was accepted. -/
def BusServer.Typed (server : BusServer maxClients κ σ) (request : BusRequest maxClients)
    (type : RequestType) : Prop :=
  ∀ index, request.handle = server.pool.handleOf index →
    server.clients.requestTypes index = type ∧ server.subscribed index = false

variable (server : BusServer maxClients κ σ) (history : List (BusEvent κ))

/-- What the server thread may rely on in each phase. -/
def BusServer.PhaseKept : Prop :=
  match server.phase with
  | .idle => server.currentHandle = 0
  | .requested request type => server.currentHandle = 0 ∧ server.Typed request type
  | .handling request type =>
    server.currentHandle = request.handle ∧ server.Typed request type
  | .accepting request =>
    server.currentHandle = request.handle ∧ server.Typed request .subscribe ∧
      ∃ onClose, .accepted request.connection onClose ∈ history
  | .concluded => server.currentHandle = 0
  | .failing request => server.currentHandle = request.handle
  | .closing _ => server.currentHandle = 0
  | .aborted => False
  | .waiting => False

/-- Subscriptions keep their type, and none of them is handled. -/
def BusServer.SubscriptionsKept : Prop :=
  ∀ index, server.LiveSubscription index →
    server.clients.requestTypes index = .subscribe ∧
      (∃ onClose, .accepted (server.connection index) onClose ∈ history) ∧
      server.currentHandle ≠ server.pool.handleOf index

structure BusServer.Disciplined : Prop where
  phaseKept : server.PhaseKept history
  subscriptionsKept : server.SubscriptionsKept history

section Closing

variable {daemon : Daemon κ σ} {server : BusServer maxClients κ σ} {history : List (BusEvent κ)}
  {event : BusEvent κ} {request : BusRequest maxClients} {type : RequestType}
  {handle : UInt32} {index : Fin maxClients.toNat}

/-- What closing a handle leaves as it is. -/
theorem BusServer.close_keeps (daemon : Daemon κ σ) (server : BusServer maxClients κ σ)
    (handle : UInt32) :
    (server.close daemon handle).clients.requestTypes = server.clients.requestTypes ∧
      (server.close daemon handle).subscribed = server.subscribed ∧
      (server.close daemon handle).connection = server.connection ∧
      (server.close daemon handle).currentHandle = server.currentHandle ∧
      (server.close daemon handle).phase = server.phase := by
  cases valid : validateHandle server.pool handle with
  | ok index =>
    rw [validateHandle_eq_ok_iff.mp valid, (close_valid daemon server index).1]
    exact ⟨rfl, rfl, rfl, rfl, rfl⟩
  | error error =>
    rw [(close_gone daemon valid).1]
    exact ⟨rfl, rfl, rfl, rfl, rfl⟩

/-- A client that is still connected keeps its handle. -/
theorem BusServer.close_taken (taken : (server.close daemon handle).pool.fds index ≠ fdFree) :
    server.pool.fds index ≠ fdFree ∧
      (server.close daemon handle).pool.handleOf index = server.pool.handleOf index := by
  cases valid : validateHandle server.pool handle with
  | ok freed =>
    rw [validateHandle_eq_ok_iff.mp valid, (close_valid daemon server freed).1] at taken ⊢
    rcases freed_taken taken with ⟨different, wasTaken⟩
    exact ⟨wasTaken, freed_handleOf_of_ne different⟩
  | error error =>
    rw [(close_gone daemon valid).1] at taken ⊢
    exact ⟨taken, rfl⟩

theorem BusServer.LiveSubscription.of_close
    (live : (server.close daemon handle).LiveSubscription index) :
    server.LiveSubscription index := by
  refine ⟨(close_taken live.1).1, ?_⟩
  rw [← (close_keeps daemon server handle).2.1]
  exact live.2

/-- A request that is served after a close keeps its type. -/
theorem BusServer.Typed.close (typed : server.Typed request type)
    (serves : (server.close daemon handle).books.Serves request) :
    (server.close daemon handle).Typed request type := by
  intro index valid
  rcases serves.live valid with ⟨_, taken, _⟩
  have valid : request.handle = server.pool.handleOf index := valid.trans (close_taken taken).2
  rw [(close_keeps daemon server handle).1, (close_keeps daemon server handle).2.1]
  exact typed index valid

theorem BusServer.SubscriptionsKept.close (kept : server.SubscriptionsKept history)
    {current : UInt32} {phase : BusPhase maxClients}
    (isCurrent : current = 0 ∨ current = server.currentHandle) :
    { server.close daemon handle with
      currentHandle := current, phase := phase }.SubscriptionsKept (event :: history) := by
  intro index live
  have liveClosed : (server.close daemon handle).LiveSubscription index := live
  rcases kept index liveClosed.of_close with ⟨isSubscription, ⟨onClose, accepted⟩, otherHandle⟩
  rcases close_keeps daemon server handle with ⟨types, _, numbers, _, _⟩
  refine ⟨?_, ⟨onClose, ?_⟩, ?_⟩
  · exact (congrFun types index).trans isSubscription
  · apply mem_cons_of_mem
    dsimp only
    rw [numbers]
    exact accepted
  · rcases isCurrent with rfl | rfl
    · exact handleOf_ne_zero.symm
    · exact fun same => otherHandle (same.trans (close_taken liveClosed.1).2)

/-- Another thread closes a handle. -/
theorem BusServer.PhaseKept.close (kept : server.PhaseKept history)
    (serves : ∀ {request}, server.phase.request? = some request →
      (server.close daemon handle).books.Serves request) :
    (server.close daemon handle).PhaseKept (event :: history) := by
  rcases close_keeps daemon server handle with ⟨_, _, _, current, phase⟩
  rw [PhaseKept] at kept ⊢
  rw [phase]
  cases isPhase : server.phase with
  | idle | concluded | failing | closing | aborted | waiting =>
    rw [isPhase] at kept
    exact kept
  | requested | handling =>
    rw [isPhase] at kept
    exact ⟨kept.1, kept.2.close (serves (by rw [isPhase]; rfl))⟩
  | accepting request =>
    rw [isPhase] at kept
    rcases kept with ⟨isCurrent, typed, onClose, accepted⟩
    exact ⟨isCurrent, typed.close (serves (by rw [isPhase]; rfl)), onClose,
      mem_cons_of_mem _ accepted⟩

end Closing

section Steps

variable {daemon : Daemon κ σ} {server next : BusServer maxClients κ σ}
  {history : List (BusEvent κ)} {event : BusEvent κ}

namespace BusServer.SubscriptionsKept

section

variable (kept : server.SubscriptionsKept history)

include kept

theorem later (event : BusEvent κ) : server.SubscriptionsKept (event :: history) := by
  intro index live
  rcases kept index live with ⟨isSubscription, ⟨onClose, accepted⟩, otherHandle⟩
  exact ⟨isSubscription, ⟨onClose, mem_cons_of_mem _ accepted⟩, otherHandle⟩

/-- No client has the handle 0. -/
theorem clear (phase : BusPhase maxClients) :
    { server with currentHandle := 0, phase := phase }.SubscriptionsKept history :=
  fun index live => ⟨(kept index live).1, (kept index live).2.1,
    handleOf_ne_zero.symm⟩

/-- The slot of a new client has no subscription yet. -/
theorem connect {added : Fin maxClients.toNat} {fd : Int32} {pool : GglSocketPool maxClients}
    {clients : BusClients maxClients κ σ}
    (registered : gglSocketPoolRegister (busHooks daemon) server.pool server.clients fd
      = (.ok (server.pool.handleOf added), pool, clients)) (phase : BusPhase maxClients) :
    { server with
      pool := pool
      clients := clients
      phase := phase
      connection := update server.connection added server.connections
      subscribed := update server.subscribed added false
      connections := server.connections + 1 }.SubscriptionsKept history := by
  rcases busRegister_eq_ok registered with ⟨_, _, rfl, rfl⟩
  rintro index ⟨taken, subscribed⟩
  have different : index ≠ added := by
    rintro rfl
    dsimp only at subscribed
    rw [update_self] at subscribed
    cases subscribed
  dsimp only at taken subscribed ⊢
  rw [update_of_ne different] at subscribed
  rw [setFd_fds, update_of_ne different] at taken
  rw [update_of_ne different, update_of_ne different]
  exact kept index ⟨taken, subscribed⟩

/-- A request changes the type of a slot that has no subscription. -/
theorem request {requesting : Fin maxClients.toNat}
    (unsubscribed : server.subscribed requesting = false) (type : RequestType)
    (phase : BusPhase maxClients) :
    { server with
      clients := { server.clients with
        requestTypes := update server.clients.requestTypes requesting type }
      phase := phase }.SubscriptionsKept history := by
  intro index live
  have liveBefore : server.LiveSubscription index := live
  have different : index ≠ requesting := by
    rintro rfl
    cases liveBefore.2.symm.trans unsubscribed
  rcases kept index liveBefore with ⟨isSubscription, accepted, otherHandle⟩
  exact ⟨(update_of_ne different _ _).trans isSubscription, accepted, otherHandle⟩

/-- A request that is handled is on a slot without a subscription. -/
theorem handle {request : BusRequest maxClients} {type : RequestType}
    (typed : server.Typed request type) (phase : BusPhase maxClients) :
    { server with currentHandle := request.handle, phase := phase }.SubscriptionsKept
      history := by
  intro index live
  refine ⟨(kept index live).1, (kept index live).2.1, ?_⟩
  intro isCurrent
  cases (typed index isCurrent).2.symm.trans live.2

/-- The slot of an accepted request has a subscription. -/
theorem accept {accepting : Fin maxClients.toNat}
    (isSubscription : server.clients.requestTypes accepting = .subscribe)
    (accepted : ∃ onClose, .accepted (server.connection accepting) onClose ∈ history)
    (phase : BusPhase maxClients) :
    { server with
      currentHandle := 0
      phase := phase
      subscribed := update server.subscribed accepting true }.SubscriptionsKept
      history := by
  intro index live
  by_cases isAccepted : index = accepting
  · rw [isAccepted]
    exact ⟨isSubscription, accepted, handleOf_ne_zero.symm⟩
  · exact kept.clear phase index ⟨live.1, (update_of_ne isAccepted _ _).symm.trans live.2⟩

end

end BusServer.SubscriptionsKept

theorem BusServer.Disciplined.step (disciplined : server.Disciplined history)
    (ordered : server.InOrder) (step : BusStep daemon server event next)
    (undisturbed : Undisturbed (event :: history)) : next.Disciplined (event :: history) := by
  have nextOrdered := step.inOrder ordered
  rcases disciplined with ⟨phaseKept, kept⟩
  have closes : ∀ handle, (server.close daemon handle).InOrder →
      (server.close daemon handle).Disciplined (event :: history) := by
    intro handle closedOrdered
    rcases BusServer.close_keeps daemon server handle with ⟨_, _, _, current, phase⟩
    refine ⟨phaseKept.close fun served => closedOrdered.serves (phase ▸ served), ?_⟩
    exact kept.close (.inr current)
  rw [BusServer.PhaseKept] at phaseKept
  have same := kept.later event
  cases step with
  | connect fd isIdle registered isPhase =>
    rw [isIdle] at phaseKept
    refine ⟨?_, same.connect registered _⟩
    rcases isPhase with rfl | rfl
    · exact phaseKept
    · exact phaseKept
  | refuse isIdle taken =>
    rw [isIdle] at phaseKept
    exact ⟨phaseKept, same⟩
  | @request requesting type isIdle taken =>
    rw [isIdle] at phaseKept
    have unsubscribed : server.subscribed requesting = false := by
      cases subscribed : server.subscribed requesting with
      | false => rfl
      | true =>
        rcases kept requesting ⟨taken, subscribed⟩ with ⟨_, ⟨onClose, accepted⟩, _⟩
        exact absurd accepted (undisturbed.1 onClose)
    refine ⟨⟨phaseKept, fun index valid => ?_⟩, same.request unsubscribed type _⟩
    cases handleOf_injective valid
    exact ⟨update_self _ _ _, unsubscribed⟩
  | reject isRequested =>
    rw [isRequested] at phaseKept
    exact ⟨phaseKept.1, same⟩
  | dispatch isRequested =>
    rw [isRequested] at phaseKept
    exact ⟨⟨rfl, phaseKept.2⟩, same.handle phaseKept.2 _⟩
  | returnOk isConcluded =>
    rw [isConcluded] at phaseKept
    rw [if_pos phaseKept]
    exact ⟨phaseKept, same⟩
  | returnError isHandling =>
    rw [isHandling] at phaseKept
    rw [if_pos phaseKept.1]
    exact ⟨phaseKept.1, same⟩
  | failed | respond | acceptNotSent => exact ⟨rfl, kept.close (.inl rfl)⟩
  | closed isClosing =>
    rw [isClosing] at phaseKept
    rcases BusServer.close_keeps daemon server _ with ⟨_, _, _, current, _⟩
    exact ⟨current.trans phaseKept, kept.close (.inr current)⟩
  | respondGone isHandling _ _ _ => exact ⟨rfl, same.clear _⟩
  | respondAborts isHandling notSubscribe aborts =>
    rw [isHandling] at phaseKept
    rcases aborts with otherHandle | ⟨index, valid, isSubscription⟩
    · exact absurd phaseKept.1 otherHandle
    · have typed := phaseKept.2 index (validateHandle_eq_ok_iff.mp valid)
      exact absurd (typed.1.symm.trans isSubscription) notSubscribe
  | accept isHandling | acceptSilently isHandling =>
    rw [isHandling] at phaseKept
    exact ⟨⟨phaseKept.1, phaseKept.2, _, mem_cons_self⟩, same⟩
  | acceptGone isHandling _ _ invalid => exact ⟨rfl, same.clear .concluded⟩
  | acceptAborts isHandling otherHandle =>
    rw [isHandling] at phaseKept
    exact absurd phaseKept.1 otherHandle
  | @acceptSent request accepting isAccepting valid =>
    rw [isAccepting] at phaseKept
    rcases phaseKept with ⟨_, typed, onClose, accepted⟩
    have named := validateHandle_eq_ok_iff.mp valid
    rcases (ordered.serves (by rw [isAccepting]; rfl)).live named with ⟨_, taken, numbered⟩
    rw [← numbered] at accepted
    exact ⟨rfl, same.accept (typed accepting named).1
      ⟨onClose, mem_cons_of_mem _ accepted⟩ _⟩
  | publishAborts _ live otherType | publishElsewhereAborts live otherType =>
    exact absurd (kept _ live).1 otherType
  | publishWaits _ live _ isCurrent => exact absurd isCurrent (kept _ live).2.2
  | publishFails | closeElsewhere => exact closes _ nextOrdered

theorem Undisturbed.tail (undisturbed : Undisturbed (event :: history)) : Undisturbed history := by
  cases event with
  | requested connection type => exact undisturbed.2
  | connected | accepted | acceptedLate | released | internal => exact undisturbed

theorem BusServer.Fresh.disciplined (fresh : server.Fresh) : server.Disciplined [] := by
  constructor
  · rw [PhaseKept, fresh.isIdle]
    exact fresh.noCurrent
  · intro index live
    exact absurd (fresh.free index) live.1

/-- While no request comes in on a connection whose subscription was accepted, no
assertion of the server fails, in a handler or in another thread, and the server thread
never waits for the request it handles. -/
theorem server_disciplined {start : BusServer maxClients κ σ}
    (run : Run (BusStep daemon) start history server) (fresh : start.Fresh)
    (undisturbed : Undisturbed history) : server.phase ≠ .aborted ∧ server.phase ≠ .waiting := by
  have disciplined : server.Disciplined history := by
    induction run with
    | refl => exact fresh.disciplined
    | tail earlier step ih =>
      exact (ih undisturbed.tail).step (Run.inOrder earlier fresh) step undisturbed
  have phaseKept := disciplined.phaseKept
  rw [BusServer.PhaseKept] at phaseKept
  constructor
  · intro aborted
    rw [aborted] at phaseKept
    exact phaseKept
  · intro waiting
    rw [waiting] at phaseKept
    exact phaseKept

/-- Whatever other threads close, the handle of the request that is handled is that of the client
that sent it, or the client is gone: no response goes to a later client of the slot. -/
theorem request_keeps_client {start : BusServer maxClients κ σ} {request : BusRequest maxClients}
    (run : Run (BusStep daemon) start history server) (fresh : start.Fresh)
    (handled : server.phase.request? = some request) :
    (∀ index, validateHandle server.pool request.handle = .ok index →
      index = request.index ∧ server.connection index = request.connection) ∧
    ∀ error, validateHandle server.pool request.handle = .error error →
      server.books.Gone request.connection := by
  have serves := (Run.inOrder run fresh).serves handled
  constructor
  · intro index valid
    obtain ⟨same, -, numbered⟩ := serves.live (validateHandle_eq_ok_iff.mp valid)
    exact ⟨same, numbered⟩
  · exact fun error => serves.gone

end Steps

/-! ## A request on the connection of a subscription -/

section Examples

/-- A daemon whose subscriptions have no callback, as those of `ggconfigd`. -/
def silentDaemon : Daemon Unit Unit where
  registers _ _ onClose _ := onClose = none
  onClose _ _ state := state

/-- A server with room for one client. -/
def smallBus : BusServer 1 Unit Unit where
  pool := ⟨fun _ => fdFree, fun _ => 0⟩
  clients := ⟨fun _ => .call, fun _ => none, ()⟩
  currentHandle := 0
  phase := .idle
  connection := fun _ => 0
  subscribed := fun _ => false
  connections := 0

theorem smallBus_fresh : smallBus.Fresh :=
  ⟨fun _ => rfl, rfl, rfl, rfl⟩

def smallIndex : Fin (1 : UInt16).toNat :=
  ⟨0, by decide⟩

/-- The server after its client has connected. -/
def smallBusConnected : BusServer 1 Unit Unit :=
  { smallBus with
    pool := smallBus.pool.setFd smallIndex 5
    clients := { smallBus.clients with
      requestTypes := update smallBus.clients.requestTypes smallIndex .call
      cleanup := update smallBus.clients.cleanup smallIndex none }
    connection := update smallBus.connection smallIndex 0
    subscribed := update smallBus.subscribed smallIndex false
    connections := 1 }

/-- The server after the client has subscribed. -/
def smallBusSubscribed : BusServer 1 Unit Unit :=
  { smallBusConnected with
    clients := { smallBusConnected.clients with
      requestTypes := update smallBusConnected.clients.requestTypes smallIndex .subscribe }
    subscribed := update smallBusConnected.subscribed smallIndex true }

/-- What happens until then. -/
def subscribedSilently : List (BusEvent Unit) :=
  [.internal, .internal, .accepted 0 none, .internal, .requested 0 .subscribe, .connected 0]

theorem subscribedSilently_run :
    Run (BusStep silentDaemon) smallBus subscribedSilently smallBusSubscribed := by
  have connected : Run (BusStep silentDaemon) smallBus [.connected 0] smallBusConnected := by
    apply Run.refl.tail
    exact .connect 5 rfl rfl (.inl rfl)
  have taken : smallBusConnected.pool.fds smallIndex ≠ fdFree := by decide
  have requested := connected.tail (.request .subscribe rfl taken)
  have dispatched := requested.tail (.dispatch rfl)
  have registers : silentDaemon.registers (smallBusConnected.pool.handleOf smallIndex) () none () :=
    rfl
  have accepted := dispatched.tail (.acceptSilently rfl rfl registers)
  have valid : validateHandle smallBusConnected.pool
      (smallBusConnected.pool.handleOf smallIndex) = .ok smallIndex :=
    validateHandle_handleOf
  have sent := accepted.tail (.acceptSent rfl valid)
  exact sent.tail (.returnOk rfl)

theorem smallBusSubscribed_live : smallBusSubscribed.LiveSubscription smallIndex :=
  ⟨by decide, rfl⟩

/-- A call of the client that has subscribed. -/
theorem request_keeps_client_call : ∃ server : BusServer 1 Unit Unit,
    validateHandle server.pool 1 = .ok smallIndex ∧ server.connection smallIndex = 0 := by
  have requested := subscribedSilently_run.tail (.request .call rfl smallBusSubscribed_live.1)
  exact ⟨_, rfl, ((request_keeps_client requested smallBus_fresh rfl).1 _ rfl).2⟩

theorem subscribedSilently_undisturbed : Undisturbed subscribedSilently := by
  simp [subscribedSilently, Undisturbed]

/-- A client that subscribes and sends nothing more. -/
theorem server_disciplined_example : Undisturbed subscribedSilently ∧
    smallBusSubscribed.phase ≠ .aborted ∧ smallBusSubscribed.phase ≠ .waiting :=
  ⟨subscribedSilently_undisturbed,
    server_disciplined subscribedSilently_run smallBus_fresh subscribedSilently_undisturbed⟩

/-- After a call on the connection of a subscription, publishing to the subscription
aborts the server; after a second subscribe request, it waits for itself. -/
theorem request_on_subscription_disturbs : smallBus.Fresh ∧
    (∃ history server, Run (BusStep silentDaemon) smallBus history server ∧
      server.phase = .aborted) ∧
    ∃ history server, Run (BusStep silentDaemon) smallBus history server ∧
      server.phase = .waiting := by
  have taken : smallBusSubscribed.pool.fds smallIndex ≠ fdFree := by decide
  refine ⟨smallBus_fresh, ?_, ?_⟩
  · have requested := subscribedSilently_run.tail (.request .call rfl taken)
    have dispatched := requested.tail (.dispatch rfl)
    have aborted := dispatched.tail
      (.publishAborts (.inr ⟨_, _, rfl⟩) smallBusSubscribed_live (by decide))
    exact ⟨_, _, aborted, rfl⟩
  · have requested := subscribedSilently_run.tail (.request .subscribe rfl taken)
    have dispatched := requested.tail (.dispatch rfl)
    have waiting := dispatched.tail
      (.publishWaits (.inr ⟨_, _, rfl⟩) smallBusSubscribed_live (by decide) rfl)
    exact ⟨_, _, waiting, rfl⟩

end Examples

end GreengrassLite

import GreengrassLite.Library.Run
import GreengrassLite.Socket.Pool

/-!
# The core bus server

`core-bus/src/server.c` serves the clients of one socket pool.  A slot of the pool
keeps the type of the last request and one callback, which is called when the
connection is released.  One thread accepts clients and handles their requests one
after the other; while a handler runs, `current_handle` is the handle of its request.

The server thread is a program with one step for each access to the pool, so that
other threads may come in between: they send responses to subscriptions and close
them.  A handle is closed only while its connection is there; closing it later does
nothing, as long as no thread keeps a handle for 65536 generations of its slot.
A response that is sent, or that is not sent because its handle is gone, changes
nothing and has no step.

A failing assertion and a thread that waits for itself are phases that the thread
does not leave.  Connections are numbered, which the code does not do; the numbers
tell apart the clients that used the same slot.
-/

namespace GreengrassLite

open Function

/-- `GglCoreBusRequestType`. -/
inductive RequestType
  | notify
  | call
  | subscribe
  deriving DecidableEq, Repr

/-- What a daemon does about its subscriptions.  `κ` is the context of its close
callback and `σ` its own state. -/
structure Daemon (κ σ : Type) where
  /-- The handler of a subscription has changed the state and passes the callback, or
  `NULL`, to `ggl_sub_accept`. -/
  registers : UInt32 → σ → Option κ → σ → Prop
  /-- The close callback. -/
  onClose : κ → UInt32 → σ → σ

variable (maxClients : UInt16) (κ σ : Type)

/-- The arrays `client_request_types` and `subscription_cleanup`, and the state that
the callbacks change. -/
structure BusClients where
  requestTypes : Fin maxClients.toNat → RequestType
  cleanup : Fin maxClients.toNat → Option κ
  daemonState : σ

/-- A request with the slot and the number of its connection. -/
structure BusRequest where
  handle : UInt32
  index : Fin maxClients.toNat
  connection : Nat

/-- Where the server thread stands. -/
inductive BusPhase (maxClients : UInt16)
  | idle
  /-- the request type is set. -/
  | requested (request : BusRequest maxClients) (type : RequestType)
  /-- in the handler, which has neither responded nor accepted. -/
  | handling (request : BusRequest maxClients) (type : RequestType)
  /-- in `ggl_sub_accept`, before the client is told. -/
  | accepting (request : BusRequest maxClients)
  /-- in the handler, which has responded or accepted. -/
  | concluded
  /-- the handler has failed. -/
  | failing (request : BusRequest maxClients)
  /-- the connection is to be closed. -/
  | closing (request : BusRequest maxClients)
  /-- an assertion has failed. -/
  | aborted
  /-- in `wait_while_current_handle` for the request being handled. -/
  | waiting

/-- The server. -/
structure BusServer where
  pool : GglSocketPool maxClients
  clients : BusClients maxClients κ σ
  currentHandle : UInt32
  phase : BusPhase maxClients
  /-- the number of the connection in each slot. -/
  connection : Fin maxClients.toNat → Nat
  /-- whether the client in a slot was told that its subscription is accepted. -/
  subscribed : Fin maxClients.toNat → Bool
  /-- how many connections there were. -/
  connections : Nat

/-- What happens on a connection. -/
inductive BusEvent (κ : Type)
  | connected (connection : Nat)
  | requested (connection : Nat) (type : RequestType)
  | accepted (connection : Nat) (onClose : Option κ)
  /-- the connection was gone, and the callback is called at once. -/
  | acceptedLate (connection : Nat) (onClose : κ)
  /-- the connection is released, and the callback of its slot is called. -/
  | released (connection : Nat) (called : Option κ)
  | internal

variable {maxClients : UInt16} {κ σ : Type}

/-- `reset_client_state` and `close_subscription`. -/
def busHooks (daemon : Daemon κ σ) : PoolHooks maxClients (BusClients maxClients κ σ) where
  onRegister := some fun _ index clients =>
    (.ok (), { clients with
      requestTypes := update clients.requestTypes index .call
      cleanup := update clients.cleanup index none })
  onRelease := some fun handle index clients =>
    match clients.cleanup index with
    | none => (.ok (), clients)
    | some onClose =>
      (.ok (), { clients with
        daemonState := daemon.onClose onClose handle clients.daemonState })

namespace BusServer

/-- `ggl_socket_handle_close`. -/
def close (daemon : Daemon κ σ) (server : BusServer maxClients κ σ) (handle : UInt32) :
    BusServer maxClients κ σ :=
  let (_, pool, clients) :=
    gglSocketPoolRelease (busHooks daemon) server.pool server.clients handle
  { server with pool := pool, clients := clients }

variable (server : BusServer maxClients κ σ)

/-- What closing a handle does to its connection. -/
def closeEvent (handle : UInt32) : BusEvent κ :=
  match validateHandle server.pool handle with
  | .ok index => .released (server.connection index) (server.clients.cleanup index)
  | .error _ => .internal

/-- The request of a client that is connected. -/
def requestAt (index : Fin maxClients.toNat) : BusRequest maxClients :=
  ⟨server.pool.handleOf index, index, server.connection index⟩

/-- A subscription that was accepted and is not released. -/
def LiveSubscription (index : Fin maxClients.toNat) : Prop :=
  server.pool.fds index ≠ fdFree ∧ server.subscribed index = true

/-- A handler is running. -/
def InHandler : Prop :=
  server.phase = .concluded ∨ ∃ request type, server.phase = .handling request type

end BusServer

/-- One step of the server thread, or of another thread.  The handlers keep to what
`server.h` asks of them: they respond or accept once and return no error, or they
return an error. -/
inductive BusStep (daemon : Daemon κ σ) :
    BusServer maxClients κ σ → BusEvent κ → BusServer maxClients κ σ → Prop
  /- `new_client_available`, which closes the client if it cannot be watched -/
  | connect {server : BusServer maxClients κ σ} (fd : Int32) {index pool clients phase} :
      server.phase = .idle →
      gglSocketPoolRegister (busHooks daemon) server.pool server.clients fd
        = (.ok (server.pool.handleOf index), pool, clients) →
      (phase = .idle ∨
        phase = .closing ⟨server.pool.handleOf index, index, server.connections⟩) →
      BusStep daemon server (.connected server.connections)
        { server with
          pool := pool
          clients := clients
          phase := phase
          connection := update server.connection index server.connections
          subscribed := update server.subscribed index false
          connections := server.connections + 1 }
  /- `client_ready`: what cannot be read or decoded, or has bad headers -/
  | refuse {server : BusServer maxClients κ σ} {index} :
      server.phase = .idle → server.pool.fds index ≠ fdFree →
      BusStep daemon server .internal { server with phase := .closing (server.requestAt index) }
  | request {server : BusServer maxClients κ σ} {index}
      (type : RequestType) :
      server.phase = .idle → server.pool.fds index ≠ fdFree →
      BusStep daemon server (.requested (server.connection index) type)
        { server with
          clients := { server.clients with
            requestTypes := update server.clients.requestTypes index type }
          phase := .requested (server.requestAt index) type }
  /- the method is unknown, or is a subscription where none is asked for -/
  | reject {server : BusServer maxClients κ σ} {request type} :
      server.phase = .requested request type →
      BusStep daemon server .internal { server with phase := .closing request }
  | dispatch {server : BusServer maxClients κ σ} {request : BusRequest maxClients}
      {type} :
      server.phase = .requested request type →
      BusStep daemon server .internal
        { server with currentHandle := request.handle, phase := .handling request type }
  | returnOk {server : BusServer maxClients κ σ} :
      server.phase = .concluded →
      BusStep daemon server .internal
        { server with phase := if server.currentHandle = 0 then .idle else .aborted }
  | returnError {server : BusServer maxClients κ σ} {request : BusRequest maxClients}
      {type} :
      server.phase = .handling request type →
      BusStep daemon server .internal
        { server with
          phase := if server.currentHandle = request.handle then .failing request else .aborted }
  /- `send_err_response` and `clear_current_handle` -/
  | failed {server : BusServer maxClients κ σ} {request : BusRequest maxClients} :
      server.phase = .failing request →
      BusStep daemon server (server.closeEvent request.handle)
        { server.close daemon request.handle with currentHandle := 0, phase := .idle }
  | closed {server : BusServer maxClients κ σ} {request : BusRequest maxClients} :
      server.phase = .closing request →
      BusStep daemon server (server.closeEvent request.handle)
        { server.close daemon request.handle with phase := .idle }
  /- `ggl_respond`, which closes the connection -/
  | respond {server : BusServer maxClients κ σ} {request : BusRequest maxClients}
      {type index} :
      server.phase = .handling request type → type ≠ .subscribe →
      server.currentHandle = request.handle →
      validateHandle server.pool request.handle = .ok index →
      server.clients.requestTypes index ≠ .subscribe →
      BusStep daemon server (server.closeEvent request.handle)
        { server.close daemon request.handle with currentHandle := 0, phase := .concluded }
  | respondGone {server : BusServer maxClients κ σ} {request : BusRequest maxClients}
      {type error} :
      server.phase = .handling request type → type ≠ .subscribe →
      server.currentHandle = request.handle →
      validateHandle server.pool request.handle = .error error →
      BusStep daemon server .internal { server with currentHandle := 0, phase := .concluded }
  | respondAborts {server : BusServer maxClients κ σ} {request : BusRequest maxClients}
      {type} :
      server.phase = .handling request type → type ≠ .subscribe →
      (server.currentHandle ≠ request.handle ∨
        ∃ index, validateHandle server.pool request.handle = .ok index ∧
          server.clients.requestTypes index = .subscribe) →
      BusStep daemon server .internal { server with phase := .aborted }
  /- `ggl_sub_accept` -/
  | accept {server : BusServer maxClients κ σ} {request : BusRequest maxClients}
      {index onClose state} :
      server.phase = .handling request .subscribe → server.currentHandle = request.handle →
      daemon.registers request.handle server.clients.daemonState (some onClose) state →
      validateHandle server.pool request.handle = .ok index →
      BusStep daemon server (.accepted request.connection (some onClose))
        { server with
          clients := { server.clients with
            cleanup := update server.clients.cleanup index (some onClose)
            daemonState := state }
          phase := .accepting request }
  | acceptSilently {server : BusServer maxClients κ σ} {request : BusRequest maxClients}
      {state} :
      server.phase = .handling request .subscribe → server.currentHandle = request.handle →
      daemon.registers request.handle server.clients.daemonState none state →
      BusStep daemon server (.accepted request.connection none)
        { server with
          clients := { server.clients with daemonState := state }
          phase := .accepting request }
  | acceptGone {server : BusServer maxClients κ σ} {request : BusRequest maxClients}
      {onClose state error} :
      server.phase = .handling request .subscribe → server.currentHandle = request.handle →
      daemon.registers request.handle server.clients.daemonState (some onClose) state →
      validateHandle server.pool request.handle = .error error →
      BusStep daemon server (.acceptedLate request.connection onClose)
        { server with
          clients := { server.clients with
            daemonState := daemon.onClose onClose request.handle state }
          currentHandle := 0
          phase := .concluded }
  | acceptAborts {server : BusServer maxClients κ σ} {request : BusRequest maxClients} :
      server.phase = .handling request .subscribe → server.currentHandle ≠ request.handle →
      BusStep daemon server .internal { server with phase := .aborted }
  | acceptSent {server : BusServer maxClients κ σ} {request : BusRequest maxClients}
      {index} :
      server.phase = .accepting request →
      validateHandle server.pool request.handle = .ok index →
      BusStep daemon server .internal
        { server with
          currentHandle := 0
          phase := .concluded
          subscribed := update server.subscribed index true }
  | acceptNotSent {server : BusServer maxClients κ σ} {request : BusRequest maxClients} :
      server.phase = .accepting request →
      BusStep daemon server (server.closeEvent request.handle)
        { server.close daemon request.handle with currentHandle := 0, phase := .concluded }
  /- `ggl_sub_respond` to a live subscription, from a handler -/
  | publishAborts {server : BusServer maxClients κ σ} {index} :
      server.InHandler → server.LiveSubscription index →
      server.clients.requestTypes index ≠ .subscribe →
      BusStep daemon server .internal { server with phase := .aborted }
  | publishWaits {server : BusServer maxClients κ σ} {index} :
      server.InHandler → server.LiveSubscription index →
      server.clients.requestTypes index = .subscribe →
      server.currentHandle = server.pool.handleOf index →
      BusStep daemon server .internal { server with phase := .waiting }
  | publishFails {server : BusServer maxClients κ σ} {index} :
      server.InHandler → server.LiveSubscription index →
      server.clients.requestTypes index = .subscribe →
      server.currentHandle ≠ server.pool.handleOf index →
      BusStep daemon server (server.closeEvent (server.pool.handleOf index))
        (server.close daemon (server.pool.handleOf index))
  /- the same from another thread, and `ggl_server_sub_close` -/
  | publishElsewhereAborts {server : BusServer maxClients κ σ} {index} :
      server.LiveSubscription index → server.clients.requestTypes index ≠ .subscribe →
      BusStep daemon server .internal { server with phase := .aborted }
  | closeElsewhere {server : BusServer maxClients κ σ} {index} :
      server.pool.fds index ≠ fdFree →
      BusStep daemon server (server.closeEvent (server.pool.handleOf index))
        (server.close daemon (server.pool.handleOf index))

/-! ## What the pool calls do -/

section PoolCalls

variable {daemon : Daemon κ σ} {pool next : GglSocketPool maxClients}
  {clients after : BusClients maxClients κ σ} {server : BusServer maxClients κ σ} {fd : Int32}
  {handle : UInt32} {index : Fin maxClients.toNat}

theorem busRegister_eq_ok
    (registered : gglSocketPoolRegister (busHooks daemon) pool clients fd
      = (.ok (pool.handleOf index), next, after)) :
    fd ≠ fdFree ∧ pool.fds index = fdFree ∧ next = pool.setFd index fd ∧
      after = { clients with
        requestTypes := update clients.requestTypes index .call
        cleanup := update clients.cleanup index none } := by
  rcases gglSocketPoolRegister_cases registered with ⟨slot, taken, free, named, changed, hooked⟩
  cases GglSocketPool.handleOf_injective named
  cases hooked
  exact ⟨taken, free, changed, rfl⟩

/-- The state of the daemon after the callback of a slot. -/
def BusClients.closedState (daemon : Daemon κ σ) (clients : BusClients maxClients κ σ)
    (handle : UInt32) (index : Fin maxClients.toNat) : σ :=
  match clients.cleanup index with
  | none => clients.daemonState
  | some onClose => daemon.onClose onClose handle clients.daemonState

variable (daemon) in
/-- Closing a handle that is not valid does nothing. -/
theorem BusServer.close_gone (gone : validateHandle server.pool handle = .error error) :
    server.close daemon handle = server ∧ server.closeEvent handle = .internal := by
  rw [close, closeEvent, gglSocketPoolRelease, gone]
  exact ⟨rfl, rfl⟩

variable (daemon server index) in
/-- Closing a valid handle releases its slot. -/
theorem BusServer.close_valid :
    server.close daemon (server.pool.handleOf index) = { server with
        pool := server.pool.freed index
        clients := { server.clients with
          daemonState :=
            server.clients.closedState daemon (server.pool.handleOf index) index } } ∧
      server.closeEvent (server.pool.handleOf index)
        = .released (server.connection index) (server.clients.cleanup index) := by
  rw [close, closeEvent, gglSocketPoolRelease, BusClients.closedState]
  cases cell : server.clients.cleanup index with
  | none | some => simp [runHook, busHooks, cell, GglSocketPool.freed]

end PoolCalls

end GreengrassLite

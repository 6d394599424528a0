import GreengrassLite.CoreBus.Server
import GreengrassLite.Library.Threads

/-!
# The locks of the core bus server

The functions of `core-bus/src/server.c` and `ggl-socket/src/socket_handle.c` as
programs of threads, with every lock they take.  The mutex of the socket pool may be
taken again by its holder, and it is held while the callback of a connection runs.

The handle of the request in a handler is a lock of its own, which the server thread
holds from `set_current_handle` to `clear_current_handle`; a response to a
subscription waits until nobody holds it.

The programs answer whether a function returns `GGL_ERR_OK`.  What is sent or received
is left to the environment, which may let every encoding and every transfer fail.  A
failing assertion ends the process and is left out.
-/

namespace GreengrassLite

open Library

variable {maxClients : UInt16} {κ σ : Type}

inductive BusLock
  /-- the mutex of the state of the daemon. -/
  | daemon
  /-- `encode_array_mtx`. -/
  | encodeArray
  /-- the mutex of the socket pool. -/
  | pool
  /-- `client_handler_mtx`. -/
  | clientHandler
  /-- `current_handle` is this handle. -/
  | currentHandle (handle : UInt32)
  deriving DecidableEq

/-- `ggl_socket_pool_init` makes the mutex of the pool a recursive one. -/
def BusLock.Reentrant (lock : BusLock) : Prop :=
  lock = .pool

instance : DecidablePred BusLock.Reentrant :=
  fun lock => inferInstanceAs (Decidable (lock = .pool))

/-- The calls that are noted. -/
inductive BusCall
  /-- `ggl_sub_respond`. -/
  | subRespond (handle : UInt32)
  /-- `ggl_sub_respond` after the response could not be encoded or written. -/
  | respondFailed (handle : UInt32)
  /-- `ggl_socket_handle_close`. -/
  | handleClose (handle : UInt32)
  /-- the handler of a request. -/
  | handler (type : RequestType) (handle : UInt32)
  deriving DecidableEq

/-- What the threads of a daemon share. -/
structure BusState (maxClients : UInt16) (κ σ : Type) where
  pool : GglSocketPool maxClients
  clients : BusClients maxClients κ σ

abbrev BusProgram (maxClients : UInt16) (κ σ α : Type) :=
  Program BusLock BusCall (BusState maxClients κ σ) α

/-- The close callback of a daemon as a program. -/
abbrev CloseCallback (maxClients : UInt16) (κ σ : Type) :=
  κ → UInt32 → BusProgram maxClients κ σ Unit

/-- An entry of the method table of a daemon. -/
structure RpcMethodDesc (maxClients : UInt16) (κ σ : Type) where
  name : Buffer
  isSubscription : Bool
  handler : GglMap → UInt32 → BusProgram maxClients κ σ Bool

namespace Locked

open Program hiding pure bind

/-- Whether an operation of the environment succeeds. -/
def succeeds : BusProgram maxClients κ σ Bool := do
  let answer ← ask
  return answer = 0

/-! ## Socket handles -/

/-- `ggl_socket_handle_protected`. -/
def gglSocketHandleProtected
    (action : Fin maxClients.toNat → BusClients maxClients κ σ → BusClients maxClients κ σ)
    (handle : UInt32) : BusProgram maxClients κ σ Bool :=
  holding .pool do
    let state ← .update (fun state =>
      { state with
        clients :=
          (GreengrassLite.gglSocketHandleProtected action state.pool handle state.clients).2 })
      .pure
    return (validateHandle state.pool handle).isOk

/-- The loop of `ggl_socket_handle_read` and `ggl_socket_handle_write`, which takes the
mutex once for every part. -/
def transferLoop (handle : UInt32) : Nat → BusProgram maxClients κ σ Bool
  | 0 => return true
  | parts + 1 => do
    let moved ← holding .pool do
      let state ← read
      if (validateHandle state.pool handle).isOk then succeeds else return false
    if moved then transferLoop handle parts else return false

/-- `ggl_socket_handle_read` and `ggl_socket_handle_write` of at least one byte. -/
def gglSocketHandleTransfer (handle : UInt32) : BusProgram maxClients κ σ Bool := do
  let parts ← ask
  transferLoop handle (parts + 1)

variable (onClose : CloseCallback maxClients κ σ) (handlers : List (RpcMethodDesc maxClients κ σ))

/-- `close_subscription`. -/
def closeSubscription (handle : UInt32) (index : Fin maxClients.toNat) :
    BusProgram maxClients κ σ Unit := do
  let state ← read
  match state.clients.cleanup index with
  | none => return ()
  | some context => onClose context handle

/-- `ggl_socket_pool_release`. -/
def gglSocketPoolRelease (handle : UInt32) : BusProgram maxClients κ σ Unit :=
  holding .pool do
    let state ← read
    match validateHandle state.pool handle with
    | .error _ => return ()
    | .ok index =>
      closeSubscription onClose handle index
      modify fun state => { state with pool := state.pool.freed index }

/-- `ggl_socket_handle_close`. -/
def gglSocketHandleClose (handle : UInt32) : BusProgram maxClients κ σ Unit :=
  during (.handleClose handle) (gglSocketPoolRelease onClose handle)

/-- A handle is closed unless everything went well. -/
def closeUnless (wentWell : Bool) (onClose : CloseCallback maxClients κ σ) (handle : UInt32) :
    BusProgram maxClients κ σ Unit :=
  if wentWell then return () else gglSocketHandleClose onClose handle

/-! ## The server -/

/-- `set_request_type`. -/
def setRequestType (type : RequestType) (index : Fin maxClients.toNat)
    (clients : BusClients maxClients κ σ) : BusClients maxClients κ σ :=
  { clients with requestTypes := Function.update clients.requestTypes index type }

/-- `set_subscription_cleanup`. -/
def setSubscriptionCleanup (context : κ) (index : Fin maxClients.toNat)
    (clients : BusClients maxClients κ σ) : BusClients maxClients κ σ :=
  { clients with cleanup := Function.update clients.cleanup index (some context) }

/-- `get_request_type` of a handle that is valid. -/
def getRequestType (handle : UInt32) : BusProgram maxClients κ σ (Option RequestType) :=
  holding .pool do
    let state ← read
    match validateHandle state.pool handle with
    | .error _ => return none
    | .ok index => return some (state.clients.requestTypes index)

/-- A response is encoded and written. -/
def sendEncoded (handle : UInt32) : BusProgram maxClients κ σ Bool := do
  let encoded ← succeeds
  if encoded then gglSocketHandleTransfer handle else return false

/-- `send_err_response`, which closes the handle before it gives the encoding buffer
back. -/
def sendErrResponse (handle : UInt32) : BusProgram maxClients κ σ Unit :=
  holding .encodeArray do
    let _ ← sendEncoded handle
    gglSocketHandleClose onClose handle

/-- `ggl_respond`. -/
def gglRespond (handle : UInt32) : BusProgram maxClients κ σ Unit := do
  match ← getRequestType handle with
  | none => unlock (.currentHandle handle)
  | some .notify =>
    gglSocketHandleClose onClose handle
    unlock (.currentHandle handle)
  | some _ =>
    let _ ← holding .encodeArray (sendEncoded handle)
    gglSocketHandleClose onClose handle
    unlock (.currentHandle handle)

/-- `ggl_sub_accept` with a callback. -/
def gglSubAccept (context : κ) (handle : UInt32) : BusProgram maxClients κ σ Unit := do
  if ← gglSocketHandleProtected (setSubscriptionCleanup context) handle then
    let sent ← holding .encodeArray (sendEncoded handle)
    closeUnless sent onClose handle
    unlock (.currentHandle handle)
  else
    onClose context handle
    unlock (.currentHandle handle)

/-- `ggl_sub_respond`, which closes the handle if the response is not sent. -/
def gglSubRespond (handle : UInt32) : BusProgram maxClients κ σ Unit :=
  during (.subRespond handle) do
    match ← getRequestType handle with
    | none => return ()
    | some _ =>
      wait (.currentHandle handle)
      let sent ← holding .encodeArray (sendEncoded handle)
      if sent then return ()
      else during (.respondFailed handle) (gglSocketHandleClose onClose handle)

/-- What a client has sent. -/
inductive ClientMessage
  /-- a prelude that cannot be decoded, or announces more than fits. -/
  | badPrelude
  /-- data, headers or a payload that cannot be decoded. -/
  | badData
  | request (method : Buffer) (type : RequestType) (params : GglMap)

/-- The dispatch of `client_ready`. -/
def dispatchRequest (handle : UInt32) (method : Buffer) (type : RequestType) (params : GglMap) :
    BusProgram maxClients κ σ Unit := do
  match handlers.find? fun entry => entry.name = method with
  | none => sendErrResponse onClose handle
  | some entry =>
    if entry.isSubscription != decide (type = .subscribe) then
      sendErrResponse onClose handle
    else
      lock (.currentHandle handle)
      let handled ← during (.handler type handle) (entry.handler params handle)
      if handled then return ()
      else do
        sendErrResponse onClose handle
        unlock (.currentHandle handle)

/-- `client_ready` after the prelude. -/
def readData (handle : UInt32) : ClientMessage → BusProgram maxClients κ σ Bool
  | .badPrelude => do
    sendErrResponse onClose handle
    return true
  | .badData => do
    let parts ← ask
    if ← transferLoop handle parts then
      sendErrResponse onClose handle
      return true
    else return false
  | .request method type params => do
    let parts ← ask
    if ← transferLoop handle parts then
      if ← gglSocketHandleProtected (setRequestType type) handle then
        dispatchRequest onClose handlers handle method type params
        return true
      else return false
    else return false

/-- `client_ready`. -/
def clientReady (handle : UInt32) (message : ClientMessage) : BusProgram maxClients κ σ Bool :=
  holding .clientHandler do
    if ← gglSocketHandleTransfer handle then readData onClose handlers handle message
    else return false

/-- `client_data_ready`. -/
def clientDataReady (handle : UInt32) (message : ClientMessage) :
    BusProgram maxClients κ σ Unit := do
  let served ← clientReady onClose handlers handle message
  closeUnless served onClose handle

/-- `ggl_socket_pool_register` with `reset_client_state`. -/
def registerClient (state : BusState maxClients κ σ) (fd : Int32) :
    Except GglError UInt32 × BusState maxClients κ σ :=
  let reset : PoolHooks maxClients (BusClients maxClients κ σ) :=
    { onRegister := (busHooks ⟨fun _ _ _ _ => False, fun _ _ state => state⟩).onRegister
      onRelease := none }
  let (result, pool, clients) :=
    GreengrassLite.gglSocketPoolRegister reset state.pool state.clients fd
  (result, ⟨pool, clients⟩)

/-- `ggl_socket_pool_register`. -/
def gglSocketPoolRegister (fd : Int32) :
    BusProgram maxClients κ σ (Except GglError UInt32) :=
  holding .pool do
    let state ← .update (fun state => (registerClient state fd).2) .pure
    return (registerClient state fd).1

/-- `new_client_available`, which closes the client if it cannot be watched. -/
def newClientAvailable (fd : Int32) : BusProgram maxClients κ σ Unit := do
  match ← gglSocketPoolRegister fd with
  | .error _ => return ()
  | .ok handle =>
    let watched ← succeeds
    closeUnless watched onClose handle

end Locked

end GreengrassLite

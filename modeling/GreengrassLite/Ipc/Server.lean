import GreengrassLite.Core.Map
import GreengrassLite.EventStream.Decode
import GreengrassLite.Ipc.Components
import GreengrassLite.Socket.Pool

/-!
# The IPC server

`ggipcd/src/ipc_server.c` serves the clients of one socket pool.  A slot of the
pool keeps the component its client was authenticated as, zero before that.  One
thread, the listener, accepts clients and handles their messages one after the
other; a message is an operation when the slot has a component, and the
handshake otherwise.

The listener is a program with one step for each access to the pool or the
registry, so that other threads may come in between.  Only the listener accepts
clients.  No other thread of the server closes one either, but this is not used:
any thread may release any handle at any time.

The decoded message is the input: the transport and the JSON decoder stand
before the model.  A system call may fail at any time, and a message is only
read from a slot that is taken, as `read` fails on the descriptor of a free one.
-/

namespace GreengrassLite

/-! ## Messages -/

/-- `EventStreamCommonHeaders`. -/
structure EventStreamCommonHeaders where
  messageType : Int32
  messageFlags : Int32
  streamId : Int32
  deriving DecidableEq, Repr

def eventstreamApplicationMessage : Int32 :=
  0

def eventstreamConnect : Int32 :=
  4

def eventstreamFlagsMask : Int32 :=
  3

/-- The loop of `eventstream_get_common_headers` over the headers. -/
def commonHeadersLoop (common : EventStreamCommonHeaders) :
    List (Buffer × EventStreamValue) → Except GglError EventStreamCommonHeaders
  | [] => .ok common
  | (name, value) :: rest =>
    if name = gglStr ":message-type" then
      match value with
      | .int32 value => commonHeadersLoop { common with messageType := value } rest
      | .string _ => .error .invalid
    else if name = gglStr ":message-flags" then
      match value with
      | .int32 value => commonHeadersLoop { common with messageFlags := value } rest
      | .string _ => .error .invalid
    else if name = gglStr ":stream-id" then
      match value with
      | .int32 value => commonHeadersLoop { common with streamId := value } rest
      | .string _ => .error .invalid
    else
      commonHeadersLoop common rest

/-- `eventstream_get_common_headers`. -/
def eventstreamGetCommonHeaders (message : EventStreamMessage) :
    Except GglError EventStreamCommonHeaders :=
  commonHeadersLoop ⟨-1, 0, 0⟩ message.headers

/-- What the server does not decide itself: the JSON decoder and the names in
`SERVICE_TABLE`. -/
structure IpcContext where
  jsonDecode : Buffer → Except GglError GglObject
  operations : List Buffer

/-- `deserialize_payload`. -/
def deserializePayload (context : IpcContext) (payload : Buffer) : Except GglError GglMap :=
  match context.jsonDecode payload with
  | .error error => .error error
  | .ok (.map pairs) => .ok pairs
  | .ok _ => .error .invalid

/-- The header loop of `handle_conn_init`: whether the client asks for a
secret. -/
def requestAuthLoop (requestAuth : Bool) :
    List (Buffer × EventStreamValue) → Except GglError Bool
  | [] => .ok requestAuth
  | (name, value) :: rest =>
    if name = gglStr ":version" then
      match value with
      | .int32 _ => .error .invalid
      | .string version =>
        if version ≠ gglStr "0.1.0" then .error .invalid else requestAuthLoop requestAuth rest
    else if name = gglStr "authenticate" then
      match value with
      | .string _ => .error .invalid
      | .int32 value => requestAuthLoop (if value = 1 then true else requestAuth) rest
    else
      requestAuthLoop requestAuth rest

/-- What a client offers to be authenticated by: the unit of its process, or a
secret. -/
inductive ConnectRequest where
  | authenticate
  | token (authToken : Buffer)
  deriving DecidableEq, Repr

variable (context : IpcContext) (message : EventStreamMessage)

/-- The checks of `handle_conn_init` on the message. -/
def connectRequest (common : EventStreamCommonHeaders) : Except GglError ConnectRequest :=
  if common.messageType ≠ eventstreamConnect then
    .error .invalid
  else if common.streamId ≠ 0 then
    .error .invalid
  else if common.messageFlags &&& eventstreamFlagsMask ≠ 0 then
    .error .invalid
  else
    match requestAuthLoop false message.headers with
    | .error error => .error error
    | .ok true => .ok .authenticate
    | .ok false =>
      match deserializePayload context message.payload with
      | .error error => .error error
      | .ok payload =>
        match gglMapGet payload (gglStr "authToken") with
        | some (.buf authToken) => .ok (.token authToken)
        | _ => .error .invalid

/-- The header loop of `handle_stream_operation`; the last operation counts. -/
def operationLoop (operation : Option Buffer) :
    List (Buffer × EventStreamValue) → Except GglError Buffer
  | [] =>
    match operation with
    | none => .error .invalid
    | some operation => .ok operation
  | (name, value) :: rest =>
    if name = gglStr "operation" then
      match value with
      | .int32 _ => .error .invalid
      | .string operation => operationLoop (some operation) rest
    else
      operationLoop operation rest

/-- The checks of `handle_stream_operation` on the message. -/
def operationRequest (common : EventStreamCommonHeaders) : Except GglError (Buffer × GglMap) :=
  if common.messageType ≠ eventstreamApplicationMessage then
    .error .invalid
  else if common.messageFlags &&& eventstreamFlagsMask ≠ 0 then
    .error .invalid
  else
    match operationLoop none message.headers with
    | .error error => .error error
    | .ok operation =>
      match deserializePayload context message.payload with
      | .error error => .error error
      | .ok payload => .ok (operation, payload)

/-! ## The server -/

/-- Where the listener stands.  The handle is that of the client whose message
is handled. -/
inductive Listener where
  | idle
  | received (handle : UInt32) (message : EventStreamMessage) (common : EventStreamCommonHeaders)
  | connecting (handle : UInt32) (message : EventStreamMessage)
      (common : EventStreamCommonHeaders)
  | authenticating (handle : UInt32)
  | registering (handle : UInt32) (pid : Int32)
  | completing (handle : UInt32) (component : Nat)
  | acknowledging (handle : UInt32) (component : Nat)
  | operating (handle : UInt32) (message : EventStreamMessage) (common : EventStreamCommonHeaders)
  | dispatching (handle : UInt32) (message : EventStreamMessage)
      (common : EventStreamCommonHeaders) (operation : Buffer)
  | replying (handle : UInt32)
  | closing (handle : UInt32)

/-- The pool with `client_components`, the registry and the listener. -/
structure IpcServer (maxFds : UInt16) where
  pool : GglSocketPool maxFds
  clientComponents : Fin maxFds.toNat → Nat
  components : IpcComponents
  listener : Listener

/-- What happens on the server, as far as identities go. -/
inductive IpcEvent where
  | accepted (handle : UInt32)
  | received (handle : UInt32) (message : EventStreamMessage)
  | authenticated (handle : UInt32) (component : Nat)
  | completed (handle : UInt32) (component : Nat)
  | dispatched (handle : UInt32) (component : Nat) (name operation : Buffer)
  | closed (handle : UInt32)
  | internal

variable {maxFds : UInt16}

/-- `reset_client_state` and `release_client_subscriptions`.  The subscriptions
of a client do not matter here; their release always succeeds. -/
def ipcHooks : PoolHooks maxFds (Fin maxFds.toNat → Nat) where
  onRegister := some fun _ index cells => (.ok (), Function.update cells index 0)
  onRelease := some fun _ _ cells => (.ok (), cells)

/-- `get_conn_component` under `ggl_socket_handle_protected`. -/
def getConnComponent (server : IpcServer maxFds) (handle : UInt32) : Except GglError Nat :=
  match validateHandle server.pool handle with
  | .error error => .error error
  | .ok index => .ok (server.clientComponents index)

/-- `handle_operation` after the operation was handled. -/
def afterOperation (handle : UInt32) : Except GglError Unit → Listener
  | .ok () => .idle
  | .error .fatal => .closing handle
  | .error _ => .replying handle

/-- One step of the listener, or of another thread. -/
inductive IpcStep (context : IpcContext) :
    IpcServer maxFds → IpcEvent → IpcServer maxFds → Prop
  /- `new_client_available` -/
  | accept {server : IpcServer maxFds} (fd : Int32) {handle pool cells listener} :
      server.listener = .idle →
      gglSocketPoolRegister ipcHooks server.pool server.clientComponents fd
        = (.ok handle, pool, cells) →
      (listener = .idle ∨ listener = .closing handle) →
      IpcStep context server (.accepted handle)
        { server with pool := pool, clientComponents := cells, listener := listener }
  | refuse {server : IpcServer maxFds} {fd error pool cells} :
      server.listener = .idle →
      gglSocketPoolRegister ipcHooks server.pool server.clientComponents fd
        = (.error error, pool, cells) →
      IpcStep context server .internal
        { server with pool := pool, clientComponents := cells }
  /- `client_ready` -/
  | receive {server : IpcServer maxFds} (handle : UInt32) {index}
      (message : EventStreamMessage) {common} :
      server.listener = .idle → validateHandle server.pool handle = .ok index →
      server.pool.fds index ≠ fdFree → eventstreamGetCommonHeaders message = .ok common →
      IpcStep context server (.received handle message)
        { server with listener := .received handle message common }
  | receiveFailed {server : IpcServer maxFds} (handle : UInt32) :
      server.listener = .idle →
      IpcStep context server .internal { server with listener := .closing handle }
  | identify {server : IpcServer maxFds} {handle message common component} :
      server.listener = .received handle message common →
      getConnComponent server handle = .ok component →
      IpcStep context server .internal
        { server with listener := if component = 0 then .connecting handle message common
            else .operating handle message common }
  | identifyFailed {server : IpcServer maxFds} {handle message common error} :
      server.listener = .received handle message common →
      getConnComponent server handle = .error error →
      IpcStep context server .internal { server with listener := .closing handle }
  /- `handle_conn_init` -/
  | connectInvalid {server : IpcServer maxFds} {handle message common error} :
      server.listener = .connecting handle message common →
      connectRequest context message common = .error error →
      IpcStep context server .internal { server with listener := .closing handle }
  | connectAuthenticate {server : IpcServer maxFds} {handle message common} :
      server.listener = .connecting handle message common →
      connectRequest context message common = .ok .authenticate →
      IpcStep context server .internal { server with listener := .authenticating handle }
  | connectToken {server : IpcServer maxFds} {handle message common authToken component} :
      server.listener = .connecting handle message common →
      connectRequest context message common = .ok (.token authToken) →
      gglIpcComponentsGetHandle server.components authToken = .ok component →
      IpcStep context server (.authenticated handle component)
        { server with listener := .completing handle component }
  | connectTokenRefused {server : IpcServer maxFds} {handle message common authToken error} :
      server.listener = .connecting handle message common →
      connectRequest context message common = .ok (.token authToken) →
      gglIpcComponentsGetHandle server.components authToken = .error error →
      IpcStep context server .internal { server with listener := .closing handle }
  /- `handle_authentication_request` -/
  | peerPid {server : IpcServer maxFds} {handle index}
      (pid : Int32) :
      server.listener = .authenticating handle → validateHandle server.pool handle = .ok index →
      IpcStep context server .internal { server with listener := .registering handle pid }
  | peerPidFailed {server : IpcServer maxFds} {handle} :
      server.listener = .authenticating handle →
      IpcStep context server .internal { server with listener := .closing handle }
  | register {server : IpcServer maxFds} {handle pid component svcuid components}
      (unitName : Option Buffer) (random : RandomFill) :
      server.listener = .registering handle pid →
      gglIpcComponentsRegister server.components unitName random
        = some (.ok (component, svcuid), components) →
      IpcStep context server (.authenticated handle component)
        { server with components := components, listener := .completing handle component }
  | registerFailed {server : IpcServer maxFds} {handle pid error components}
      (unitName : Option Buffer) (random : RandomFill) :
      server.listener = .registering handle pid →
      gglIpcComponentsRegister server.components unitName random
        = some (.error error, components) →
      IpcStep context server .internal
        { server with components := components, listener := .closing handle }
  /- `complete_conn_init`: the component is set before the answer is written. -/
  | assign {server : IpcServer maxFds} {handle component index} :
      server.listener = .completing handle component →
      validateHandle server.pool handle = .ok index →
      IpcStep context server .internal
        { server with
          clientComponents := Function.update server.clientComponents index component
          listener := .acknowledging handle component }
  | assignFailed {server : IpcServer maxFds} {handle component error} :
      server.listener = .completing handle component →
      validateHandle server.pool handle = .error error →
      IpcStep context server .internal { server with listener := .closing handle }
  | acknowledge {server : IpcServer maxFds} {handle component index} :
      server.listener = .acknowledging handle component →
      validateHandle server.pool handle = .ok index →
      IpcStep context server (.completed handle component) { server with listener := .idle }
  | acknowledgeFailed {server : IpcServer maxFds} {handle component} :
      server.listener = .acknowledging handle component →
      IpcStep context server .internal { server with listener := .closing handle }
  /- `handle_operation` -/
  | operationZeroStream {server : IpcServer maxFds} {handle message common} :
      server.listener = .operating handle message common → common.streamId = 0 →
      IpcStep context server .internal { server with listener := .closing handle }
  | operationInvalid {server : IpcServer maxFds} {handle message common error} :
      server.listener = .operating handle message common → common.streamId ≠ 0 →
      operationRequest context message common = .error error →
      IpcStep context server .internal
        { server with listener := afterOperation handle (.error error) }
  | operation {server : IpcServer maxFds} {handle message common operation args} :
      server.listener = .operating handle message common → common.streamId ≠ 0 →
      operationRequest context message common = .ok (operation, args) →
      IpcStep context server .internal
        { server with listener := .dispatching handle message common operation }
  /- `ggl_ipc_handle_operation` -/
  | unhandled {server : IpcServer maxFds} {handle message common operation} :
      server.listener = .dispatching handle message common operation →
      operation ∉ context.operations →
      IpcStep context server .internal
        { server with listener := afterOperation handle (.error .noentry) }
  | lookupFailed {server : IpcServer maxFds} {handle message common operation error} :
      server.listener = .dispatching handle message common operation →
      operation ∈ context.operations → getConnComponent server handle = .error error →
      IpcStep context server .internal
        { server with listener := afterOperation handle (.error error) }
  | dispatch {server : IpcServer maxFds} {handle message common operation name component}
      (result : Except GglError Unit) :
      server.listener = .dispatching handle message common operation →
      operation ∈ context.operations → getConnComponent server handle = .ok component →
      gglIpcComponentsGetName server.components component = some name →
      IpcStep context server (.dispatched handle component name operation)
        { server with listener := afterOperation handle result }
  /- `send_stream_error` -/
  | reply {server : IpcServer maxFds} {handle} :
      server.listener = .replying handle →
      IpcStep context server .internal { server with listener := .idle }
  | replyFailed {server : IpcServer maxFds} {handle} :
      server.listener = .replying handle →
      IpcStep context server .internal { server with listener := .closing handle }
  /- `client_data_ready` closes the client when its message failed. -/
  | close {server : IpcServer maxFds} {handle} :
      server.listener = .closing handle →
      IpcStep context server (.closed handle)
        { server with
          pool := (gglSocketPoolRelease ipcHooks server.pool server.clientComponents handle).2.1
          clientComponents :=
            (gglSocketPoolRelease ipcHooks server.pool server.clientComponents handle).2.2
          listener := .idle }
  | closeElsewhere {server : IpcServer maxFds} (handle : UInt32) :
      IpcStep context server (.closed handle)
        { server with
          pool := (gglSocketPoolRelease ipcHooks server.pool server.clientComponents handle).2.1
          clientComponents :=
            (gglSocketPoolRelease ipcHooks server.pool server.clientComponents handle).2.2 }

/-- A close frees the slot of a valid handle, and does nothing otherwise. -/
theorem ipcRelease (pool : GglSocketPool maxFds) (cells : Fin maxFds.toNat → Nat)
    (handle : UInt32) :
    (gglSocketPoolRelease ipcHooks pool cells handle).2.2 = cells ∧
      ((∃ error, validateHandle pool handle = .error error) ∧
          (gglSocketPoolRelease ipcHooks pool cells handle).2.1 = pool ∨
        ∃ index, handle = pool.handleOf index ∧
          (gglSocketPoolRelease ipcHooks pool cells handle).2.1 = pool.freed index) := by
  rw [gglSocketPoolRelease]
  split
  next error invalid => exact ⟨rfl, .inl ⟨⟨error, invalid⟩, rfl⟩⟩
  next index valid => exact ⟨rfl, .inr ⟨index, validateHandle_eq_ok_iff.mp valid, rfl⟩⟩

end GreengrassLite

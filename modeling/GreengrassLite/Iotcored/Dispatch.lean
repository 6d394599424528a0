import GreengrassLite.Core.Map
import GreengrassLite.CoreBus.Locking

/-!
# MQTT subscriptions of local clients

`iotcored/src/subscription_dispatch.c` keeps a table of topic filters with the handles
of the clients that subscribed to them, under one mutex.  The receive thread holds the
mutex while it responds to the subscriptions that match a message; the server thread
takes it when a client subscribes, and from the close callback of its connection.

Both threads are programs over the locks of the core bus.  The MQTT client is part of
the environment, and `connection_status` requests, which have a table and a mutex of
their own, are left out.
-/

namespace GreengrassLite

open Library

variable {maxClients : UInt16} {maxSubscriptions : Nat}

/-! ## The table -/

/-- `sub_topic_filters` and `handles`; an entry whose filter is empty is free. -/
structure SubscriptionTable (maxSubscriptions : Nat) where
  topicFilters : Fin maxSubscriptions → Buffer
  handles : Fin maxSubscriptions → UInt32

/-- `AWS_IOT_MAX_TOPIC_SIZE`. -/
def awsIotMaxTopicSize : Nat :=
  256

/-- `GGL_MQTT_MAX_SUBSCRIBE_FILTERS`. -/
def mqttMaxSubscribeFilters : Nat :=
  10

namespace SubscriptionTable
variable (table : SubscriptionTable maxSubscriptions)

def set (slot : Fin maxSubscriptions) (topicFilter : Buffer) (handle : UInt32) :
    SubscriptionTable maxSubscriptions :=
  { topicFilters := Function.update table.topicFilters slot topicFilter
    handles := Function.update table.handles slot handle }

/-- The entries of a handle become free. -/
def clear (handle : UInt32) : SubscriptionTable maxSubscriptions :=
  { table with
    topicFilters := fun slot =>
      if table.handles slot = handle then [] else table.topicFilters slot }

/-- The loop of `iotcored_register_subscriptions`: the filters go to the free entries in
order.  The filters that remain have found no entry. -/
def fill (handle : UInt32) :
    List (Fin maxSubscriptions) → List Buffer → SubscriptionTable maxSubscriptions →
      List Buffer × SubscriptionTable maxSubscriptions
  | [], remaining, table => (remaining, table)
  | _, [], table => ([], table)
  | slot :: slots, topicFilter :: remaining, table =>
    if table.topicFilters slot = [] then
      fill handle slots remaining (table.set slot topicFilter handle)
    else
      fill handle slots (topicFilter :: remaining) table

/-- `iotcored_register_subscriptions` with the mutex held. -/
def register (topicFilters : List Buffer) (handle : UInt32) :
    Bool × SubscriptionTable maxSubscriptions :=
  match fill handle (List.finRange maxSubscriptions) topicFilters table with
  | ([], filled) => (true, filled)
  | (_ :: _, filled) => (false, filled.clear handle)

end SubscriptionTable

/-- The parameters of `rpc_subscribe`. -/
def subscribeTopicFilters (params : GglMap) : Except GglError (List Buffer) := do
  let topicFilters ← match gglMapGet params (gglStr "topic_filter") with
    | some (.buf topicFilter) => .ok [topicFilter]
    | some (.list list) =>
      if list.length = 0 then .error .invalid
      else if list.length > mqttMaxSubscribeFilters then .error .unsupported
      else
        match gglListTypeCheck list .buf with
        | .error _ => .error .invalid
        | .ok () => .ok (bufferItems list)
    | _ => .error .invalid
  if topicFilters.any fun topicFilter => topicFilter.length > 65535 then .error .range
  match gglMapGet params (gglStr "qos") with
  | none => .ok topicFilters
  | some (.i64 qos) => if qos < 0 ∨ qos > 2 then .error .invalid else .ok topicFilters
  | some _ => .error .invalid

/-- The parameters of `rpc_publish`. -/
def publishAllowed (params : GglMap) : Except GglError Unit := do
  match gglMapValidate params
      [⟨gglStr "topic", true, .buf⟩, ⟨gglStr "payload", false, .buf⟩,
        ⟨gglStr "qos", false, .i64⟩] with
  | .ok [some (.buf topic), _, qos] =>
    if topic.length > 65535 then .error .range
    match qos with
    | some (.i64 qos) => if qos < 0 ∨ qos > 2 then .error .invalid
    | _ => .ok ()
  | _ => .error .invalid

/-! ## The programs of the threads -/

abbrev IotcoredProgram (maxClients : UInt16) (maxSubscriptions : Nat) (α : Type) :=
  BusProgram maxClients Unit (SubscriptionTable maxSubscriptions) α

/-- A change of the table. -/
def changeTable
    (change : SubscriptionTable maxSubscriptions → SubscriptionTable maxSubscriptions)
    (state : BusState maxClients Unit (SubscriptionTable maxSubscriptions)) :
    BusState maxClients Unit (SubscriptionTable maxSubscriptions) :=
  { state with
    clients := { state.clients with daemonState := change state.clients.daemonState } }

namespace Locked

open Program hiding pure bind

/-- `iotcored_register_subscriptions`. -/
def iotcoredRegisterSubscriptions (topicFilters : List Buffer) (handle : UInt32) :
    IotcoredProgram maxClients maxSubscriptions Bool :=
  if topicFilters.any fun topicFilter => topicFilter.length = 0 then return false
  else if topicFilters.any fun topicFilter => topicFilter.length > awsIotMaxTopicSize then
    return false
  else
    holding .daemon do
      let state ← .update (changeTable fun table => (table.register topicFilters handle).2) .pure
      return (state.clients.daemonState.register topicFilters handle).1

/-- `iotcored_unregister_subscriptions`. -/
def iotcoredUnregisterSubscriptions (handle : UInt32) :
    IotcoredProgram maxClients maxSubscriptions Unit :=
  holding .daemon (modify (changeTable fun table => table.clear handle))

/-- `sub_close_callback`. -/
def subCloseCallback : CloseCallback maxClients Unit (SubscriptionTable maxSubscriptions) :=
  fun _ handle => iotcoredUnregisterSubscriptions handle

/-- `rpc_publish`. -/
def rpcPublish (params : GglMap) (handle : UInt32) :
    IotcoredProgram maxClients maxSubscriptions Bool :=
  match publishAllowed params with
  | .error _ => return false
  | .ok () => do
    if ← succeeds then
      gglRespond subCloseCallback handle
      return true
    else return false

/-- `rpc_subscribe`. -/
def rpcSubscribe (params : GglMap) (handle : UInt32) :
    IotcoredProgram maxClients maxSubscriptions Bool :=
  match subscribeTopicFilters params with
  | .error _ => return false
  | .ok topicFilters => do
    if ← iotcoredRegisterSubscriptions topicFilters handle then
      if ← succeeds then
        gglSubAccept subCloseCallback () handle
        return true
      else
        iotcoredUnregisterSubscriptions handle
        return false
    else return false

/-- The methods of `iotcored_start_server` that concern the table. -/
def iotcoredHandlers :
    List (RpcMethodDesc maxClients Unit (SubscriptionTable maxSubscriptions)) :=
  [⟨gglStr "publish", false, rpcPublish⟩, ⟨gglStr "subscribe", true, rpcSubscribe⟩]

variable (topicFilterMatch : Buffer → Buffer → Bool) (topic : Buffer)

/-- The loop of `iotcored_mqtt_receive`. -/
def receiveLoop : List (Fin maxSubscriptions) → IotcoredProgram maxClients maxSubscriptions Unit
  | [] => return ()
  | slot :: slots => do
    let state ← read
    if state.clients.daemonState.topicFilters slot ≠ [] ∧
        topicFilterMatch (state.clients.daemonState.topicFilters slot) topic then
      gglSubRespond subCloseCallback (state.clients.daemonState.handles slot)
      receiveLoop slots
    else
      receiveLoop slots

/-- `iotcored_mqtt_receive`. -/
def iotcoredMqttReceive : IotcoredProgram maxClients maxSubscriptions Unit :=
  holding .daemon (receiveLoop topicFilterMatch topic (List.finRange maxSubscriptions))

/-- The loop of `iotcored_re_register_all_subs`. -/
def reRegisterLoop :
    List (Fin maxSubscriptions) → IotcoredProgram maxClients maxSubscriptions Unit
  | [] => return ()
  | slot :: slots => do
    let state ← read
    if state.clients.daemonState.topicFilters slot = [] then reRegisterLoop slots
    else if ← succeeds then reRegisterLoop slots
    else
      modify (changeTable fun table =>
        { table with topicFilters := Function.update table.topicFilters slot [] })
      reRegisterLoop slots

/-- `iotcored_re_register_all_subs`. -/
def iotcoredReRegisterAllSubs : IotcoredProgram maxClients maxSubscriptions Unit :=
  holding .daemon (reRegisterLoop (List.finRange maxSubscriptions))

end Locked

inductive IotcoredThread
  | receive
  | server
  deriving DecidableEq

/-- What the threads do: the receive thread handles a message, or subscribes again after
it has connected; the server thread accepts a client or reads what one has sent. -/
inductive IotcoredStarts (topicFilterMatch : Buffer → Buffer → Bool) :
    IotcoredThread → IotcoredProgram maxClients maxSubscriptions Unit → Prop
  | message (topic : Buffer) :
      IotcoredStarts topicFilterMatch .receive (Locked.iotcoredMqttReceive topicFilterMatch topic)
  | connected : IotcoredStarts topicFilterMatch .receive Locked.iotcoredReRegisterAllSubs
  | client (fd : Int32) :
      IotcoredStarts topicFilterMatch .server (Locked.newClientAvailable Locked.subCloseCallback fd)
  | data (handle : UInt32) (message : Locked.ClientMessage) :
      IotcoredStarts topicFilterMatch .server
        (Locked.clientDataReady Locked.subCloseCallback Locked.iotcoredHandlers handle message)

/-- The threads of `iotcored`. -/
abbrev Iotcored (maxClients : UInt16) (maxSubscriptions : Nat) :=
  Threads IotcoredThread BusLock BusCall
    (BusState maxClients Unit (SubscriptionTable maxSubscriptions))

end GreengrassLite

import GreengrassLite.CoreBus.LockOrder
import GreengrassLite.Iotcored.Dispatch

/-!
# Deadlocks between MQTT messages and closing connections

The receive thread of `iotcored` responds to subscriptions with the mutex of the
subscription table held.  A response that fails closes its connection, whose callback
takes the mutex again.  The server thread holds the mutex of the socket pool, and may
hold the encoding buffer, while it runs a callback that takes the mutex of the table;
and the receive thread may wait for the handle of a request whose handler takes it.

As long as none of these happen while a response is sent, no thread is caught in a
deadlock, whatever else the two threads do.
-/

namespace GreengrassLite

open Library List

variable {maxClients : UInt16} {maxSubscriptions : Nat}

namespace Locked

open Program hiding pure bind

/-! ## The programs of the threads -/

section Programs

variable {seen : BusState maxClients Unit (SubscriptionTable maxSubscriptions)}
  {held : List BusLock} {handle : UInt32}

/-- What the mutex of the table does not protect is left alone. -/
theorem changeTable_same {lock : BusLock}
    {change : SubscriptionTable maxSubscriptions → SubscriptionTable maxSubscriptions}
    {state : BusState maxClients Unit (SubscriptionTable maxSubscriptions)}
    (daemonHeld : .daemon ∈ held) (other : lock ∉ held) :
    busProtection.same lock state (changeTable change state) := by
  cases lock with
  | daemon => exact absurd daemonHeld other
  | pool => exact ⟨rfl, rfl, rfl⟩
  | _ => trivial

theorem unregister_balanced {conduct : Conduct BusLock BusCall _} {calls : List BusCall}
    (mayWant : ∀ now, busProtection.Agree held seen now → conduct.mayWant held calls now .daemon) :
    (iotcoredUnregisterSubscriptions handle).Balanced busProtection conduct held calls seen := by
  apply Balanced.holding
  intro now agree
  refine ⟨mayWant now agree, ?_⟩
  apply balanced_modify
  intro later lock other
  exact changeTable_same mem_cons_self other

theorem subCloseCallback_takes :
    TakesDaemonLock
      (subCloseCallback : CloseCallback maxClients Unit (SubscriptionTable maxSubscriptions)) :=
  fun mayWant => unregister_balanced mayWant

theorem register_balanced {topicFilters : List Buffer} :
    (iotcoredRegisterSubscriptions topicFilters handle).Balanced busProtection serverConduct
      (inHandler handle) [.handler .subscribe handle] seen := by
  unfold iotcoredRegisterSubscriptions
  by_cases hasEmpty : (topicFilters.any fun topicFilter => topicFilter.length = 0) = true
  · rw [if_pos hasEmpty]
    exact balanced_pure
  · rw [if_neg hasEmpty]
    by_cases hasLong :
        (topicFilters.any fun topicFilter => topicFilter.length > awsIotMaxTopicSize) = true
    · rw [if_pos hasLong]
      exact balanced_pure
    · rw [if_neg hasLong]
      apply Balanced.holding
      intro now _
      refine ⟨serverWantsDaemon now mem_cons_self, ?_⟩
      intro later _ _
      exact ⟨fun lock other => changeTable_same mem_cons_self other, rfl, rfl⟩

theorem rpcPublish_keeps :
    HandlerKeeps (⟨gglStr "publish", false, rpcPublish⟩ :
      RpcMethodDesc maxClients Unit (SubscriptionTable maxSubscriptions)) := by
  intro type params handle seen _
  dsimp only [rpcPublish]
  cases publishAllowed params with
  | error error => exact ⟨rfl, rfl⟩
  | ok allowed =>
    apply succeeds_balanced.bind
    intro published seen
    cases published with
    | false => exact ⟨rfl, rfl⟩
    | true =>
      apply Keeps.bind
      apply gglRespond_keeps subCloseCallback_takes
      intro seen
      exact ⟨rfl, rfl⟩

theorem rpcSubscribe_keeps :
    HandlerKeeps (⟨gglStr "subscribe", true, rpcSubscribe⟩ :
      RpcMethodDesc maxClients Unit (SubscriptionTable maxSubscriptions)) := by
  intro type params handle seen isSubscription
  cases of_decide_eq_true isSubscription.symm
  dsimp only [rpcSubscribe]
  cases subscribeTopicFilters params with
  | error error => exact ⟨rfl, rfl⟩
  | ok topicFilters =>
    apply register_balanced.bind
    intro registered seen
    cases registered with
    | false => exact ⟨rfl, rfl⟩
    | true =>
      apply succeeds_balanced.bind
      intro subscribed seen
      cases subscribed with
      | true =>
        apply Keeps.bind
        apply gglSubAccept_keeps subCloseCallback_takes mem_cons_self
        intro seen
        exact ⟨rfl, rfl⟩
      | false =>
        apply Balanced.bind
        · apply unregister_balanced
          intro now _
          exact serverWantsDaemon now mem_cons_self
        · intro _ _
          exact ⟨rfl, rfl⟩

theorem iotcoredHandlers_keep
    (entry : RpcMethodDesc maxClients Unit (SubscriptionTable maxSubscriptions))
    (member : entry ∈ iotcoredHandlers) : HandlerKeeps entry := by
  rcases mem_cons.mp member with rfl | last
  · exact rpcPublish_keeps
  · rcases mem_singleton.mp last with rfl
    exact rpcSubscribe_keeps

theorem receiveLoop_balanced {topicFilterMatch : Buffer → Buffer → Bool} {topic : Buffer}
    (slots : List (Fin maxSubscriptions)) :
    (receiveLoop topicFilterMatch topic slots).Balanced busProtection deliveryConduct [.daemon] []
      seen := by
  induction slots generalizing seen with
  | nil => exact balanced_pure
  | cons slot slots ih =>
    apply keeps_read
    intro now _ _
    by_cases isMatch : now.clients.daemonState.topicFilters slot ≠ [] ∧
        topicFilterMatch (now.clients.daemonState.topicFilters slot) topic = true
    · rw [if_pos isMatch]
      apply (gglSubRespond_balanced subCloseCallback_takes).bind
      intro _ _
      exact ih
    · rw [if_neg isMatch]
      exact ih

theorem reRegisterLoop_balanced (slots : List (Fin maxSubscriptions)) :
    (reRegisterLoop slots).Balanced busProtection deliveryConduct [.daemon] [] seen := by
  induction slots generalizing seen with
  | nil => exact balanced_pure
  | cons slot slots ih =>
    apply keeps_read
    intro now _ _
    by_cases isFree : now.clients.daemonState.topicFilters slot = []
    · rw [if_pos isFree]
      exact ih
    · rw [if_neg isFree]
      apply succeeds_balanced.bind
      intro subscribed seen
      cases subscribed with
      | true => exact ih
      | false =>
        apply Balanced.bind
        · apply balanced_modify
          intro later lock other
          exact changeTable_same mem_cons_self other
        · intro _ _
          exact ih

/-- A program of the receive thread that holds the mutex of the table. -/
theorem holdsTable_balanced
    {program : IotcoredProgram maxClients maxSubscriptions Unit}
    (balanced : ∀ seen, program.Balanced busProtection deliveryConduct [.daemon] [] seen) :
    (holding .daemon program).Balanced busProtection deliveryConduct [] [] seen := by
  apply Balanced.holding
  intro now _
  refine ⟨⟨by simp, by simp, fun isOther => absurd rfl isOther, ?_, BusLock.noConfusion⟩,
    balanced now⟩
  intro handle isCurrent
  cases isCurrent

end Programs

end Locked

/-! ## Runs -/

/-- The conduct of each thread. -/
def iotcoredConduct : IotcoredThread → Conduct BusLock BusCall
    (BusState maxClients Unit (SubscriptionTable maxSubscriptions))
  | .receive => deliveryConduct
  | .server => serverConduct

theorem IotcoredStarts.balanced {topicFilterMatch : Buffer → Buffer → Bool}
    {thread : IotcoredThread} {program : IotcoredProgram maxClients maxSubscriptions Unit}
    (starts : IotcoredStarts topicFilterMatch thread program)
    (seen : BusState maxClients Unit (SubscriptionTable maxSubscriptions)) :
    program.Balanced busProtection (iotcoredConduct thread) [] [] seen := by
  cases starts with
  | message topic => exact Locked.holdsTable_balanced fun _ => Locked.receiveLoop_balanced _
  | connected => exact Locked.holdsTable_balanced fun _ => Locked.reRegisterLoop_balanced _
  | client fd => exact Locked.newClientAvailable_balanced Locked.subCloseCallback_takes
  | data handle message =>
    exact Locked.clientDataReady_balanced Locked.subCloseCallback_takes
      Locked.iotcoredHandlers_keep

/-- While the receive thread is in `ggl_sub_respond`, a connection it failed to respond to
has no close callback, and the server thread neither closes a connection that has one
nor handles a request to subscribe from the connection of the response. -/
structure Iotcored.Calm (state : Iotcored maxClients maxSubscriptions) : Prop where
  failed : ∀ handle, .respondFailed handle ∈ (state.thread .receive).calls →
    ¬state.shared.HasCallback handle
  closing : ∀ handle, .subRespond handle ∈ (state.thread .receive).calls →
    ¬state.shared.ClosesCallback (state.thread .server).calls
  subscribing : ∀ handle, .subRespond handle ∈ (state.thread .receive).calls →
    .handler .subscribe handle ∉ (state.thread .server).calls

/-- The handle of `ggl_sub_respond`. -/
def BusCall.responding : BusCall → Option UInt32
  | .subRespond handle => some handle
  | _ => none

/-- The handle of `ggl_sub_respond` after a failure. -/
def BusCall.failed : BusCall → Option UInt32
  | .respondFailed handle => some handle
  | _ => none

instance (state : Iotcored maxClients maxSubscriptions) : Decidable state.Calm :=
  decidable_of_iff
    ((((state.thread .receive).calls.filterMap BusCall.failed).all fun handle =>
        ¬state.shared.HasCallback handle) = true ∧
      (((state.thread .receive).calls.filterMap BusCall.responding).all fun handle =>
        ¬state.shared.ClosesCallback (state.thread .server).calls ∧
          .handler .subscribe handle ∉ (state.thread .server).calls) = true) (by
    have failed : ∀ {calls : List BusCall} {handle : UInt32},
        handle ∈ calls.filterMap BusCall.failed ↔ .respondFailed handle ∈ calls :=
      BusCall.mem_filterMap fun call handle => by cases call <;> simp [BusCall.failed]
    have responding : ∀ {calls : List BusCall} {handle : UInt32},
        handle ∈ calls.filterMap BusCall.responding ↔ .subRespond handle ∈ calls :=
      BusCall.mem_filterMap fun call handle => by cases call <;> simp [BusCall.responding]
    simp only [all_eq_true, decide_eq_true_eq, failed, responding]
    exact ⟨fun calm => ⟨calm.1, fun handle found => (calm.2 handle found).1,
        fun handle found => (calm.2 handle found).2⟩,
      fun calm => ⟨calm.failed, fun handle found =>
        ⟨calm.closing handle found, calm.subscribing handle found⟩⟩⟩)

/-- A step that leads to a calm state. -/
def CalmStep (topicFilterMatch : Buffer → Buffer → Bool)
    (state : Iotcored maxClients maxSubscriptions) (thread : IotcoredThread)
    (next : Iotcored maxClients maxSubscriptions) : Prop :=
  Threads.Step BusLock.Reentrant (IotcoredStarts topicFilterMatch) state thread next ∧ next.Calm

section Runs

variable {topicFilterMatch : Buffer → Buffer → Bool}
  {start state : Iotcored maxClients maxSubscriptions} {history : List IotcoredThread}

theorem Iotcored.calm_of_idle (idle : ∀ thread, start.thread thread = .idle) : start.Calm := by
  constructor <;> intro handle member <;> rw [idle .receive] at member <;> cases member

theorem Iotcored.Calm.assumes (calm : state.Calm) (thread : IotcoredThread) :
    (iotcoredConduct thread).assumes (state.thread thread).calls state.shared := by
  cases thread with
  | receive => exact calm.failed
  | server => trivial

/-- Along a run of calm steps, both threads keep to their conduct. -/
theorem Run.orderly (run : Run (CalmStep topicFilterMatch) start history state)
    (idle : ∀ thread, start.thread thread = .idle) :
    state.Orderly busProtection iotcoredConduct ∧ state.Calm := by
  induction run with
  | refl => exact ⟨Threads.orderly_of_idle idle, Iotcored.calm_of_idle idle⟩
  | @tail history state next thread earlier step ih =>
    rcases ih with ⟨orderly, calm⟩
    refine ⟨orderly.step step.1 ?_ (calm.assumes thread), step.2⟩
    intro program seen starts
    exact starts.balanced seen

theorem Iotcored.not_both_wait (orderly : state.Orderly busProtection iotcoredConduct)
    (calm : state.Calm) (receiveWaits : state.WaitsFor BusLock.Reentrant .receive .server)
    (serverWaits : state.WaitsFor BusLock.Reentrant .server .receive) : False := by
  rcases receiveWaits with ⟨wanted, receiveWants, heldByServer, _⟩
  rcases serverWaits with ⟨needed, serverWants, heldByReceive, _⟩
  have want : DeliveryMayWant (state.thread .receive).held (state.thread .receive).calls wanted :=
    orderly.mayWant receiveWants
  have need : ServerMayWant (state.thread .server).held (state.thread .server).calls state.shared
      needed := orderly.mayWant serverWants
  by_cases isDaemon : needed = .daemon
  · -- the receive thread holds the table, so it is responding to a subscription
    subst isDaemon
    have isOther : wanted ≠ .daemon := fun isDaemon => want.untaken (isDaemon ▸ heldByReceive)
    rcases want.responding isOther with ⟨handle, responding⟩
    cases wanted with
    | daemon => exact isOther rfl
    | encodeArray => exact calm.closing handle responding (need.closing rfl (.inr heldByServer))
    | pool => exact calm.closing handle responding (need.closing rfl (.inl heldByServer))
    | clientHandler => exact want.outside rfl
    | currentHandle current =>
      have respondingCurrent := (want.waiting current rfl).1
      rcases need.handling current rfl heldByServer with subscribes | closes
      · exact calm.subscribing current respondingCurrent subscribes
      · exact calm.closing current respondingCurrent closes
  · -- the only other lock the receive thread keeps is the encoding buffer
    rcases want.few needed heldByReceive with isTable | rfl
    · exact isDaemon isTable
    · cases wanted with
      | daemon => exact need.daemonFree heldByServer
      | encodeArray => exact want.untaken heldByReceive
      | pool => exact need.poolFree isDaemon heldByServer
      | clientHandler => exact want.outside rfl
      | currentHandle current => exact (want.waiting current rfl).2 heldByReceive

/-- Every run that stays calm is free of deadlocks. -/
theorem delivery_deadlock_free (run : Run (CalmStep topicFilterMatch) start history state)
    (idle : ∀ thread, start.thread thread = .idle) :
    ¬state.Deadlocked BusLock.Reentrant := by
  rcases Run.orderly run idle with ⟨orderly, calm⟩
  have notItself : ∀ thread, ¬state.WaitsFor BusLock.Reentrant thread thread := by
    rintro thread ⟨lock, wants, held, _⟩
    have mayWant := orderly.mayWant wants
    cases thread with
    | receive => exact DeliveryMayWant.untaken mayWant held
    | server => exact ServerMayWant.untaken mayWant held
  apply Threads.not_deadlocked_of_two
  · intro first second third
    cases first <;> cases second <;> cases third <;> simp
  · exact notItself
  · intro thread other waits waitsBack
    cases thread with
    | receive =>
      cases other with
      | receive => exact notItself _ waits
      | server => exact Iotcored.not_both_wait orderly calm waits waitsBack
    | server =>
      cases other with
      | receive => exact Iotcored.not_both_wait orderly calm waitsBack waits
      | server => exact notItself _ waits

end Runs

/-! ## Examples -/

section Examples

open Turn (Begins begins_advances)

instance : Fintype IotcoredThread :=
  ⟨{.receive, .server}, fun thread => by cases thread <;> simp⟩

abbrev IotcoredTurn :=
  Turn IotcoredThread BusLock BusCall (BusState 1 Unit (SubscriptionTable 1))

/-- A daemon with room for one client and one topic filter, before any client has
connected. -/
def idleIotcored : Iotcored 1 1 where
  shared := ⟨⟨fun _ => fdFree, fun _ => 0⟩,
    ⟨fun _ => .call, fun _ => none, ⟨fun _ => [], fun _ => 0⟩⟩⟩
  thread _ := .idle

/-- Topic filters without wildcards. -/
def sameTopic (topicFilter topic : Buffer) : Bool :=
  topicFilter = topic

def clientConnects : IotcoredTurn :=
  .start .server (Locked.newClientAvailable Locked.subCloseCallback 5)

/-- The client, whose handle is 1, has sent something. -/
def clientSends (message : Locked.ClientMessage) : IotcoredTurn :=
  .start .server
    (Locked.clientDataReady Locked.subCloseCallback Locked.iotcoredHandlers 1 message)

def clientSubscribes : IotcoredTurn :=
  clientSends (.request (gglStr "subscribe") .subscribe
    [(gglStr "topic_filter", .buf (gglStr "a"))])

def messageArrives : IotcoredTurn :=
  .start .receive (Locked.iotcoredMqttReceive sameTopic (gglStr "a"))

/-- The next operations of a thread, with the answers of the environment, which are zero
for success. -/
def advances (thread : IotcoredThread) (answers : List Nat) : List IotcoredTurn :=
  answers.map (.advance thread)

/-- As many operations without a failure. -/
def succeed (count : Nat) : List Nat :=
  replicate count 0

/-- The client connects and subscribes to `a`. -/
def subscribedTurns : List IotcoredTurn :=
  clientConnects :: advances .server (succeed 4) ++
    clientSubscribes :: advances .server (succeed 30)

/-- A message is delivered while the server thread accepts another client, and the
receive thread waits for the pool. -/
def deliveredTurns : List IotcoredTurn :=
  subscribedTurns ++ messageArrives :: advances .receive (succeed 3) ++
    clientConnects :: advances .server (succeed 1)

/-- The write to the client fails. -/
def failedTurns : List IotcoredTurn :=
  subscribedTurns ++ messageArrives :: advances .receive (succeed 12 ++ 1 :: succeed 7)

/-- The client goes away when a message arrives for it. -/
def closedTurns : List IotcoredTurn :=
  subscribedTurns ++ clientSends .badPrelude :: advances .server (succeed 4 ++ 1 :: succeed 6) ++
    messageArrives :: advances .receive (succeed 3)

/-- The broker refuses the subscription after a message for it has arrived. -/
def refusedTurns : List IotcoredTurn :=
  clientConnects :: advances .server (succeed 4) ++
    clientSubscribes :: advances .server (succeed 15) ++
    messageArrives :: advances .receive (succeed 6) ++ advances .server [1]

theorem subscribedTurns_begins : Begins (IotcoredStarts sameTopic) subscribedTurns :=
  .append (.start (.client 5) (begins_advances _ _)) (.start (.data 1 _) (begins_advances _ _))

/-- A message is delivered to a client while another one connects. -/
theorem delivery_deadlock_free_example : ∃ history state,
    Run (CalmStep sameTopic) idleIotcored history state ∧
      (state.WaitsFor BusLock.Reentrant .receive .server ∧
        .subRespond 1 ∈ (state.thread .receive).calls) ∧
      ¬state.Deadlocked BusLock.Reentrant := by
  have begins : Begins (IotcoredStarts sameTopic) deliveredTurns :=
    .append (.append subscribedTurns_begins (.start (.message _) (begins_advances _ _)))
      (.start (.client 5) (begins_advances _ _))
  have found : ∃ history state, Run (CalmStep sameTopic) idleIotcored history state ∧
      (state.WaitsFor BusLock.Reentrant .receive .server ∧
        .subRespond 1 ∈ (state.thread .receive).calls) :=
    Threads.exists_run_of_schedule Iotcored.Calm (fun step calm => ⟨step, calm⟩) begins
      (by decide +kernel)
  rcases found with ⟨history, state, run, delivering⟩
  exact ⟨history, state, run, delivering, delivery_deadlock_free run fun _ => rfl⟩

/-- Without the condition, the receive thread is caught with itself when a write fails,
with the closing of a connection, and with the handler of a subscription. -/
theorem delivery_deadlocks : (∀ thread, idleIotcored.thread thread = .idle) ∧
    ∀ wanted ∈ [BusLock.daemon, .pool, .currentHandle 1], ∃ history state,
      Run (Threads.Step BusLock.Reentrant (IotcoredStarts sameTopic)) idleIotcored history state ∧
        (state.thread .receive).program.wants = some wanted ∧
        state.Deadlocked BusLock.Reentrant := by
  have caught : ∀ {turns : List IotcoredTurn} (wanted : BusLock) (other : IotcoredThread),
      Begins (IotcoredStarts sameTopic) turns →
      (idleIotcored.schedule BusLock.Reentrant (fun _ => True) turns).any (fun state =>
        decide ((state.thread .receive).program.wants = some wanted ∧
          state.WaitsFor BusLock.Reentrant .receive other ∧
          state.WaitsFor BusLock.Reentrant other .receive)) = true →
      ∃ history state,
        Run (Threads.Step BusLock.Reentrant (IotcoredStarts sameTopic)) idleIotcored history
          state ∧
        (state.thread .receive).program.wants = some wanted ∧
        state.Deadlocked BusLock.Reentrant := by
    intro turns wanted other begins computed
    rcases Threads.exists_run_of_schedule (fun _ => True) (fun step _ => step) begins computed with
      ⟨history, state, run, wants, waits, waitsBack⟩
    exact ⟨history, state, run, wants, _, .tail (.single waits) waitsBack⟩
  have failedBegins : Begins (IotcoredStarts sameTopic) failedTurns :=
    .append subscribedTurns_begins (.start (.message _) (begins_advances _ _))
  have closedBegins : Begins (IotcoredStarts sameTopic) closedTurns :=
    .append (.append subscribedTurns_begins (.start (.data 1 _) (begins_advances _ _)))
      (.start (.message _) (begins_advances _ _))
  have refusedBegins : Begins (IotcoredStarts sameTopic) refusedTurns :=
    .append (.append (.append (.start (.client 5) (begins_advances _ _))
      (.start (.data 1 _) (begins_advances _ _))) (.start (.message _) (begins_advances _ _)))
      (begins_advances _ _)
  refine ⟨fun _ => rfl, ?_⟩
  simp only [mem_cons, not_mem_nil, or_false]
  rintro wanted (rfl | rfl | rfl)
  · exact caught .daemon .receive failedBegins (by decide +kernel)
  · exact caught .pool .server closedBegins (by decide +kernel)
  · exact caught (.currentHandle 1) .server refusedBegins (by decide +kernel)

end Examples

end GreengrassLite

import GreengrassLite.CoreBus.Locking

/-!
# In which order the core bus takes its locks

The server thread may need the mutex of the daemon while it holds other locks: in a
handler, and from the callback of a connection that it closes.  A thread that responds
to subscriptions does so with the mutex of the daemon held, and needs the other locks.
The two conducts say how far each thread goes; the rest of this module follows the
functions of the server.
-/

namespace GreengrassLite

open Library List

variable {maxClients : UInt16} {κ σ : Type}

/-- What the locks protect. -/
def busProtection : Protection BusLock (BusState maxClients κ σ) where
  same lock first second :=
    match lock with
    | .pool => first.pool = second.pool ∧
        first.clients.requestTypes = second.clients.requestTypes ∧
        first.clients.cleanup = second.clients.cleanup
    | .daemon => first.clients.daemonState = second.clients.daemonState
    | _ => True
  refl lock state := by
    cases lock <;> simp
  trans {lock first second third} same next := by
    cases lock with
    | pool => exact ⟨same.1.trans next.1, same.2.1.trans next.2.1, same.2.2.trans next.2.2⟩
    | daemon => exact Eq.trans same next
    | _ => trivial

/-- The connection of the handle has a close callback. -/
def BusState.HasCallback (state : BusState maxClients κ σ) (handle : UInt32) : Prop :=
  ∃ index context, validateHandle state.pool handle = .ok index ∧
    state.clients.cleanup index = some context

theorem BusState.HasCallback.of_agree {state next : BusState maxClients κ σ} {handle : UInt32}
    {held : List BusLock} (has : state.HasCallback handle)
    (agree : busProtection.Agree held state next) (poolHeld : .pool ∈ held) :
    next.HasCallback handle := by
  rcases has with ⟨index, context, valid, found⟩
  rcases agree .pool poolHeld with ⟨samePool, _, sameCleanup⟩
  exact ⟨index, context, samePool ▸ valid, sameCleanup ▸ found⟩

/-- The thread is closing a connection that has a callback. -/
def BusState.ClosesCallback (state : BusState maxClients κ σ) (calls : List BusCall) : Prop :=
  ∃ handle, .handleClose handle ∈ calls ∧ state.HasCallback handle

instance (state : BusState maxClients κ σ) (handle : UInt32) :
    Decidable (state.HasCallback handle) :=
  match valid : validateHandle state.pool handle with
  | .error _ => isFalse fun ⟨_, _, isValid, _⟩ => by rw [valid] at isValid; cases isValid
  | .ok index =>
    decidable_of_iff ((state.clients.cleanup index).isSome = true)
      ⟨fun isSome => ⟨index, _, valid, Option.some_get isSome |>.symm⟩,
        fun ⟨_, _, isValid, found⟩ => by
          rw [valid] at isValid
          cases isValid
          rw [found]
          rfl⟩

/-- The handles of the calls of one kind are found in the list of calls. -/
theorem BusCall.mem_filterMap {calls : List BusCall} {handle : UInt32}
    {kind : UInt32 → BusCall} {handleOf : BusCall → Option UInt32}
    (inverse : ∀ call handle, handleOf call = some handle ↔ call = kind handle) :
    handle ∈ calls.filterMap handleOf ↔ kind handle ∈ calls := by
  simp [inverse]

/-- The handle of `ggl_socket_handle_close`. -/
def BusCall.closed : BusCall → Option UInt32
  | .handleClose handle => some handle
  | _ => none

@[simp]
theorem BusCall.mem_closed {calls : List BusCall} {handle : UInt32} :
    handle ∈ calls.filterMap closed ↔ .handleClose handle ∈ calls :=
  mem_filterMap fun call handle => by cases call <;> simp [closed]

instance (state : BusState maxClients κ σ) (calls : List BusCall) :
    Decidable (state.ClosesCallback calls) :=
  decidable_of_iff
    (((calls.filterMap BusCall.closed).any fun handle => state.HasCallback handle) = true) (by
    simp only [any_eq_true, decide_eq_true_eq, BusCall.mem_closed]
    rfl)

/-- When the server thread may wait for a lock. -/
structure ServerMayWant (held : List BusLock) (calls : List BusCall)
    (now : BusState maxClients κ σ) (lock : BusLock) : Prop where
  untaken : lock ∉ held
  daemonFree : .daemon ∉ held
  poolFree : lock ≠ .daemon → .pool ∉ held
  closing : lock = .daemon → .pool ∈ held ∨ .encodeArray ∈ held → now.ClosesCallback calls
  handling : ∀ handle, lock = .daemon → .currentHandle handle ∈ held →
    .handler .subscribe handle ∈ calls ∨ now.ClosesCallback calls

def serverConduct : Conduct BusLock BusCall (BusState maxClients κ σ) where
  assumes _ _ := True
  mayWant := ServerMayWant

/-- When a thread that responds to subscriptions may wait for a lock. -/
structure DeliveryMayWant (held : List BusLock) (calls : List BusCall) (lock : BusLock) :
    Prop where
  untaken : lock ∉ held
  few : ∀ lock ∈ held, lock = .daemon ∨ lock = .encodeArray
  responding : lock ≠ .daemon → ∃ handle, .subRespond handle ∈ calls
  waiting : ∀ handle, lock = .currentHandle handle →
    .subRespond handle ∈ calls ∧ .encodeArray ∉ held
  outside : lock ≠ .clientHandler

/-- A thread that responds to subscriptions, as long as those it fails to respond to have
no callback. -/
def deliveryConduct : Conduct BusLock BusCall (BusState maxClients κ σ) where
  assumes calls now := ∀ handle, .respondFailed handle ∈ calls → ¬now.HasCallback handle
  mayWant held calls _ lock := DeliveryMayWant held calls lock

/-- The close callback takes the mutex of the daemon, and nothing else. -/
def TakesDaemonLock (onClose : CloseCallback maxClients κ σ) : Prop :=
  ∀ {conduct : Conduct BusLock BusCall (BusState maxClients κ σ)} {context : κ}
    {handle : UInt32} {held : List BusLock} {calls : List BusCall}
    {seen : BusState maxClients κ σ},
    (∀ now, busProtection.Agree held seen now → conduct.mayWant held calls now .daemon) →
    (onClose context handle).Balanced busProtection conduct held calls seen

namespace Locked

open Program hiding pure bind

/-! ## Functions of both threads -/

section Both

variable {conduct : Conduct BusLock BusCall (BusState maxClients κ σ)} {held : List BusLock}
  {calls : List BusCall} {seen : BusState maxClients κ σ} {handle : UInt32}
  {onClose : CloseCallback maxClients κ σ}

theorem succeeds_balanced :
    (succeeds : BusProgram maxClients κ σ Bool).Balanced busProtection conduct held calls seen :=
  fun _ => ⟨rfl, rfl⟩

section

variable (wantsPool : ∀ now, conduct.mayWant held calls now .pool)

include wantsPool

theorem transferLoop_balanced (parts : Nat) :
    (transferLoop handle parts).Balanced busProtection conduct held calls seen := by
  induction parts generalizing seen with
  | zero => exact balanced_pure
  | succ parts ih =>
    apply Balanced.bind
    · apply Balanced.holding
      intro now _
      refine ⟨wantsPool now, ?_⟩
      apply keeps_read
      intro later _ _
      cases (validateHandle later.pool handle).isOk with
      | true => exact succeeds_balanced
      | false => exact balanced_pure
    · intro moved seen
      cases moved with
      | true => exact ih
      | false => exact balanced_pure

theorem gglSocketHandleTransfer_balanced :
    (gglSocketHandleTransfer handle).Balanced busProtection conduct held calls seen := by
  apply keeps_ask
  intro parts
  exact transferLoop_balanced wantsPool (parts + 1)

theorem sendEncoded_balanced :
    (sendEncoded handle).Balanced busProtection conduct held calls seen := by
  apply succeeds_balanced.bind
  intro encoded seen
  cases encoded with
  | true => exact gglSocketHandleTransfer_balanced wantsPool
  | false => exact balanced_pure

theorem getRequestType_balanced :
    (getRequestType handle).Balanced busProtection conduct held calls seen := by
  apply Balanced.holding
  intro now _
  refine ⟨wantsPool now, ?_⟩
  apply keeps_read
  intro later _ _
  cases validateHandle later.pool handle with
  | error | ok => exact balanced_pure

end

/-- What the mutex of the pool does not protect is left alone. -/
theorem same_of_not_mem_pool {state next : BusState maxClients κ σ} {lock : BusLock}
    (unchanged : next.clients.daemonState = state.clients.daemonState)
    (other : lock ∉ .pool :: held) : busProtection.same lock state next := by
  cases lock with
  | pool => exact absurd mem_cons_self other
  | daemon => exact unchanged.symm
  | _ => trivial

theorem gglSocketHandleProtected_balanced
    {action : Fin maxClients.toNat → BusClients maxClients κ σ → BusClients maxClients κ σ}
    (wantsPool : ∀ now, conduct.mayWant held calls now .pool)
    (unchanged : ∀ index clients, (action index clients).daemonState = clients.daemonState) :
    (gglSocketHandleProtected action handle).Balanced busProtection conduct held calls seen := by
  apply Balanced.holding
  intro now _
  refine ⟨wantsPool now, ?_⟩
  intro later _ _
  refine ⟨fun lock other => same_of_not_mem_pool ?_ other, rfl, rfl⟩
  dsimp only [GreengrassLite.gglSocketHandleProtected]
  cases validateHandle later.pool handle with
  | error error => rfl
  | ok index => exact unchanged index later.clients

/-- Closing a handle takes the mutex of the daemon if its connection has a callback. -/
theorem gglSocketHandleClose_balanced (takes : TakesDaemonLock onClose)
    (wantsPool : ∀ now, conduct.mayWant held (.handleClose handle :: calls) now .pool)
    (wantsDaemon : ∀ now later, conduct.assumes (.handleClose handle :: calls) now →
      now.HasCallback handle → later.HasCallback handle →
      conduct.mayWant (.pool :: held) (.handleClose handle :: calls) later .daemon) :
    (gglSocketHandleClose onClose handle).Balanced busProtection conduct held calls seen := by
  apply Balanced.during
  apply Balanced.holding
  intro now _
  refine ⟨wantsPool now, ?_⟩
  apply keeps_read
  intro validated _ _
  cases valid : validateHandle validated.pool handle with
  | error error => exact balanced_pure
  | ok index =>
    apply Balanced.bind
    · apply keeps_read
      intro reading agree assumed
      have stillValid : validateHandle reading.pool handle = .ok index :=
        (agree .pool mem_cons_self).1 ▸ valid
      cases found : reading.clients.cleanup index with
      | none => exact balanced_pure
      | some context =>
        have has : reading.HasCallback handle := ⟨index, context, stillValid, found⟩
        apply takes
        intro later agreeLater
        exact wantsDaemon reading later assumed has (has.of_agree agreeLater mem_cons_self)
    · intro _ seen
      apply balanced_modify
      intro now lock other
      exact same_of_not_mem_pool rfl other

end Both

/-! ## A thread that responds to subscriptions -/

section Delivery

variable {calls : List BusCall} {seen : BusState maxClients κ σ} {handle : UInt32}
  {onClose : CloseCallback maxClients κ σ}

theorem deliveryMayWant {held : List BusLock} {lock : BusLock}
    (responding : .subRespond handle ∈ calls) (untaken : lock ∉ held)
    (few : ∀ lock ∈ held, lock = .daemon ∨ lock = .encodeArray)
    (isPlain : lock = .pool ∨ lock = .encodeArray) : DeliveryMayWant held calls lock := by
  refine ⟨untaken, few, fun _ => ⟨handle, responding⟩, ?_, ?_⟩
  · rintro other rfl
    rcases isPlain with isPool | isEncode
    · cases isPool
    · cases isEncode
  · rintro rfl
    rcases isPlain with isPool | isEncode
    · cases isPool
    · cases isEncode

/-- With the mutex of the daemon held, `ggl_sub_respond` closes no connection that has a
callback, and takes the other locks. -/
theorem gglSubRespond_balanced (takes : TakesDaemonLock onClose) :
    (gglSubRespond onClose handle).Balanced busProtection deliveryConduct [.daemon] calls seen := by
  have responding : .subRespond handle ∈ .subRespond handle :: calls := mem_cons_self
  apply Balanced.during
  apply Balanced.bind
  · apply getRequestType_balanced
    intro _
    exact deliveryMayWant responding (by simp) (by simp) (.inl rfl)
  · intro found seen
    cases found with
    | none => exact balanced_pure
    | some type =>
      apply Balanced.bind
      · apply balanced_wait
        intro _
        refine ⟨by simp, by simp, fun _ => ⟨handle, responding⟩, ?_, BusLock.noConfusion⟩
        rintro other ⟨⟩
        exact ⟨responding, by simp⟩
      · intro _ seen
        apply Balanced.bind
        · apply Balanced.holding
          intro now _
          refine ⟨deliveryMayWant responding (by simp) (by simp) (.inr rfl), ?_⟩
          apply sendEncoded_balanced
          intro _
          exact deliveryMayWant responding (by simp) (by simp) (.inl rfl)
        · intro sent seen
          cases sent with
          | true => exact balanced_pure
          | false =>
            apply Balanced.during
            apply gglSocketHandleClose_balanced takes
            · intro _
              apply deliveryMayWant (mem_cons_of_mem _ (mem_cons_of_mem _ responding))
                (by simp) (by simp) (.inl rfl)
            · intro now _ assumed has
              exact absurd has (assumed handle (mem_cons_of_mem _ mem_cons_self))

end Delivery

/-! ## The server thread -/

/-- What the server thread holds when it calls a handler. -/
def inHandler (handle : UInt32) : List BusLock :=
  [.currentHandle handle, .clientHandler]

section Server

variable {held : List BusLock} {calls : List BusCall} {seen : BusState maxClients κ σ}
  {handle : UInt32} {onClose : CloseCallback maxClients κ σ}

/-- Neither the mutex of the daemon nor that of the pool is held. -/
structure BothFree (held : List BusLock) : Prop where
  daemonFree : .daemon ∉ held
  poolFree : .pool ∉ held

theorem BothFree.encoding (free : BothFree held) : BothFree (.encodeArray :: held) :=
  ⟨by simp [free.daemonFree], by simp [free.poolFree]⟩

theorem bothFree_inHandler : BothFree (inHandler handle) :=
  ⟨by simp [inHandler], by simp [inHandler]⟩

theorem bothFree_clientHandler : BothFree [.clientHandler] :=
  ⟨by simp, by simp⟩

theorem bothFree_nil : BothFree [] :=
  ⟨not_mem_nil, not_mem_nil⟩

theorem serverMayWant {lock : BusLock} (free : BothFree held) (now : BusState maxClients κ σ)
    (untaken : lock ∉ held) (isOther : lock ≠ .daemon) :
    serverConduct.mayWant held calls now lock where
  untaken := untaken
  daemonFree := free.daemonFree
  poolFree := fun _ => free.poolFree
  closing := fun isDaemon => absurd isDaemon isOther
  handling := fun _ isDaemon => absurd isDaemon isOther

theorem BothFree.wantsPool (free : BothFree held) (now : BusState maxClients κ σ) :
    serverConduct.mayWant held calls now .pool :=
  serverMayWant free now free.poolFree BusLock.noConfusion

section

variable (takes : TakesDaemonLock onClose) (free : BothFree held)

include takes free

theorem server_close_balanced :
    (gglSocketHandleClose onClose handle).Balanced busProtection serverConduct held calls seen := by
  apply gglSocketHandleClose_balanced takes free.wantsPool
  intro _ later _ _ has
  have closes : later.ClosesCallback (.handleClose handle :: calls) :=
    ⟨handle, mem_cons_self, has⟩
  have daemonFree : .daemon ∉ .pool :: held := by simp [free.daemonFree]
  exact ⟨daemonFree, daemonFree, fun isOther => absurd rfl isOther, fun _ _ => closes,
    fun _ _ _ => .inr closes⟩

theorem closeUnless_balanced (wentWell : Bool) :
    (closeUnless wentWell onClose handle).Balanced busProtection serverConduct held calls seen := by
  cases wentWell with
  | true => exact balanced_pure
  | false => exact server_close_balanced takes free

theorem sendErrResponse_balanced (encodeFree : .encodeArray ∉ held) :
    (sendErrResponse onClose handle).Balanced busProtection serverConduct held calls seen := by
  apply Balanced.holding
  intro now _
  refine ⟨serverMayWant free now encodeFree BusLock.noConfusion, ?_⟩
  apply (sendEncoded_balanced free.encoding.wantsPool).bind
  intro _ _
  exact server_close_balanced takes free.encoding

end

theorem holdsEncodeArray_balanced (free : BothFree held) (encodeFree : .encodeArray ∉ held) :
    (holding .encodeArray (sendEncoded handle)).Balanced busProtection serverConduct held calls
      seen := by
  apply Balanced.holding
  intro now _
  refine ⟨serverMayWant free now encodeFree BusLock.noConfusion, ?_⟩
  exact sendEncoded_balanced free.encoding.wantsPool

/-- The handler of a subscription may take the mutex of the daemon. -/
theorem serverWantsDaemon (now : BusState maxClients κ σ)
    (isHandler : .handler .subscribe handle ∈ calls) :
    serverConduct.mayWant (inHandler handle) calls now .daemon where
  untaken := by simp [inHandler]
  daemonFree := by simp [inHandler]
  poolFree := fun isOther => absurd rfl isOther
  closing := by simp [inHandler]
  handling := by
    intro other _ held
    simp only [inHandler, mem_cons, BusLock.currentHandle.injEq, reduceCtorEq,
      not_mem_nil, or_false] at held
    exact .inl (held ▸ isHandler)

variable {post : Unit → List BusLock → List BusCall → BusState maxClients κ σ → Prop}
  {message : ClientMessage}

/-- `ggl_respond` gives the current handle back. -/
theorem gglRespond_keeps (takes : TakesDaemonLock onClose)
    (ends : ∀ seen, post () [.clientHandler] calls seen) :
    (gglRespond onClose handle).Keeps busProtection serverConduct post
      (inHandler handle) calls seen := by
  have encodeFree : .encodeArray ∉ inHandler handle := by simp [inHandler]
  have closes : ∀ seen, (gglSocketHandleClose onClose handle >>= fun _ =>
      unlock (.currentHandle handle)).Keeps busProtection serverConduct post
      (inHandler handle) calls seen := by
    intro seen
    apply (server_close_balanced takes bothFree_inHandler).bind
    intro _ seen
    exact keeps_unlock (ends seen)
  have responds : ∀ seen, (holding .encodeArray (sendEncoded handle) >>= fun _ =>
      gglSocketHandleClose onClose handle >>= fun _ =>
      unlock (.currentHandle handle)).Keeps busProtection serverConduct post
      (inHandler handle) calls seen := by
    intro seen
    apply Balanced.bind (holdsEncodeArray_balanced bothFree_inHandler encodeFree)
    intro _ seen
    exact closes seen
  apply (getRequestType_balanced bothFree_inHandler.wantsPool).bind
  intro found seen
  match found with
  | none => exact keeps_unlock (ends seen)
  | some .notify => exact closes seen
  | some .call | some .subscribe => exact responds seen

/-- `ggl_sub_accept` gives the current handle back. -/
theorem gglSubAccept_keeps {context : κ} (takes : TakesDaemonLock onClose)
    (isHandler : .handler .subscribe handle ∈ calls)
    (ends : ∀ seen, post () [.clientHandler] calls seen) :
    (gglSubAccept onClose context handle).Keeps busProtection serverConduct post
      (inHandler handle) calls seen := by
  have encodeFree : .encodeArray ∉ inHandler handle := by simp [inHandler]
  apply Balanced.bind
  · exact gglSocketHandleProtected_balanced bothFree_inHandler.wantsPool fun _ _ => rfl
  · intro set seen
    cases set with
    | true =>
      apply Balanced.bind (holdsEncodeArray_balanced bothFree_inHandler encodeFree)
      intro sent seen
      apply (closeUnless_balanced takes bothFree_inHandler sent).bind
      intro _ seen
      exact keeps_unlock (ends seen)
    | false =>
      apply Balanced.bind
      · apply takes
        intro now _
        exact serverWantsDaemon now isHandler
      · intro _ seen
        exact keeps_unlock (ends seen)

/-- A handler that is called for a request gives the current handle back unless it
fails. -/
def HandlerEnds (type : RequestType) (handle : UInt32) (handled : Bool) (held : List BusLock)
    (calls : List BusCall) (_ : BusState maxClients κ σ) : Prop :=
  held = (if handled then [.clientHandler] else inHandler handle) ∧
    calls = [.handler type handle]

/-- The handler of a method keeps to the conduct of the server thread. -/
def HandlerKeeps (entry : RpcMethodDesc maxClients κ σ) : Prop :=
  ∀ (type : RequestType) (params : GglMap) (handle : UInt32) (seen : BusState maxClients κ σ),
    entry.isSubscription = decide (type = .subscribe) →
    (entry.handler params handle).Keeps busProtection serverConduct (HandlerEnds type handle)
      (inHandler handle) [.handler type handle] seen

variable {handlers : List (RpcMethodDesc maxClients κ σ)}

theorem dispatchRequest_balanced {method : Buffer} {type : RequestType} {params : GglMap}
    (takes : TakesDaemonLock onClose) (keep : ∀ entry ∈ handlers, HandlerKeeps entry) :
    (dispatchRequest onClose handlers handle method type params).Balanced busProtection
      serverConduct [.clientHandler] [] seen := by
  have refuses : ∀ seen, (sendErrResponse onClose handle).Balanced busProtection serverConduct
      [.clientHandler] [] seen :=
    fun _ => sendErrResponse_balanced takes bothFree_clientHandler (by simp)
  unfold dispatchRequest
  cases found : handlers.find? fun entry => entry.name = method with
  | none => exact refuses seen
  | some entry =>
    dsimp only
    by_cases fits : entry.isSubscription = decide (type = .subscribe)
    · rw [if_neg (by simp [fits])]
      apply keeps_lock
      intro now _
      refine ⟨serverMayWant bothFree_clientHandler now (by simp) BusLock.noConfusion, ?_⟩
      apply Keeps.bind
      apply Keeps.during (keep entry (mem_of_find?_eq_some found) type params handle now fits)
      rintro handled after remaining seen ⟨rfl, rfl⟩
      cases handled with
      | true => exact balanced_pure
      | false =>
        apply Balanced.bind
        · exact sendErrResponse_balanced takes bothFree_inHandler (by simp [inHandler])
        · intro _ _
          exact keeps_unlock ⟨rfl, rfl⟩
    · rw [if_pos (by simpa using fits)]
      exact refuses seen

theorem readData_balanced (takes : TakesDaemonLock onClose)
    (keep : ∀ entry ∈ handlers, HandlerKeeps entry) :
    (readData onClose handlers handle message).Balanced busProtection serverConduct
      [.clientHandler] [] seen := by
  have refuses : ∀ seen, (sendErrResponse onClose handle >>= fun _ => pure true).Balanced
      busProtection serverConduct [.clientHandler] [] seen := by
    intro seen
    apply Balanced.bind (sendErrResponse_balanced takes bothFree_clientHandler (by simp))
    intro _ _
    exact balanced_pure
  cases message with
  | badPrelude => exact refuses seen
  | badData =>
    apply keeps_ask
    intro parts
    apply (transferLoop_balanced bothFree_clientHandler.wantsPool parts).bind
    intro read seen
    cases read with
    | true => exact refuses seen
    | false => exact balanced_pure
  | request method type params =>
    apply keeps_ask
    intro parts
    apply (transferLoop_balanced bothFree_clientHandler.wantsPool parts).bind
    intro read seen
    cases read with
    | false => exact balanced_pure
    | true =>
      apply Balanced.bind
      · exact gglSocketHandleProtected_balanced bothFree_clientHandler.wantsPool fun _ _ => rfl
      · intro set seen
        cases set with
        | false => exact balanced_pure
        | true =>
          apply (dispatchRequest_balanced takes keep).bind
          intro _ _
          exact balanced_pure

theorem clientDataReady_balanced (takes : TakesDaemonLock onClose)
    (keep : ∀ entry ∈ handlers, HandlerKeeps entry) :
    (clientDataReady onClose handlers handle message).Balanced busProtection serverConduct [] []
      seen := by
  apply Balanced.bind
  · apply Balanced.holding
    intro now _
    refine ⟨serverMayWant bothFree_nil now (by simp) BusLock.noConfusion, ?_⟩
    apply (gglSocketHandleTransfer_balanced bothFree_clientHandler.wantsPool).bind
    intro read seen
    cases read with
    | true => exact readData_balanced takes keep
    | false => exact balanced_pure
  · intro served _
    exact closeUnless_balanced takes bothFree_nil served

@[simp]
theorem registerClient_daemonState (state : BusState maxClients κ σ) (fd : Int32) :
    (registerClient state fd).2.clients.daemonState = state.clients.daemonState := by
  dsimp only [registerClient, GreengrassLite.gglSocketPoolRegister]
  by_cases negative : fd < 0
  · rw [if_pos negative]
  · rw [if_neg negative]
    cases state.pool.firstFree with
    | none | some => rfl

theorem newClientAvailable_balanced {fd : Int32} (takes : TakesDaemonLock onClose) :
    (newClientAvailable onClose fd).Balanced busProtection serverConduct [] [] seen := by
  apply Balanced.bind
  · apply Balanced.holding
    intro now _
    refine ⟨bothFree_nil.wantsPool now, ?_⟩
    intro later _ _
    refine ⟨fun lock other => same_of_not_mem_pool ?_ other, rfl, rfl⟩
    exact registerClient_daemonState later fd
  · intro registered seen
    cases registered with
    | error error => exact balanced_pure
    | ok handle =>
      apply succeeds_balanced.bind
      intro watched _
      exact closeUnless_balanced takes bothFree_nil watched

end Server

end Locked

end GreengrassLite

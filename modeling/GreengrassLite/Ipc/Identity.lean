import GreengrassLite.Ipc.Server

/-!
# Identities on the IPC server

An operation is dispatched as the component its own connection was authenticated
as.  The connection is the latest registration of the slot: a component left in
the slot by an earlier client is never used.

The listener sets the component of a slot before it answers the client.  When the
answer fails it closes the client, so a slot whose handshake is not complete is
one the listener is about to close.
-/

namespace GreengrassLite

open Library List Function GglSocketPool

variable {maxFds : UInt16}

/-! ## Connections in a history -/

/-- The latest client of its slot has this handle, and `since` is what happened
after it was accepted. -/
def Current (history : List IpcEvent) (handle : UInt32) (since : List IpcEvent) : Prop :=
  Since history (.accepted handle) since ∧
    ∀ other, .accepted other ∈ since → handleIndex other ≠ handleIndex handle

/-- The client was authenticated and completed the handshake. -/
def Admitted (handle : UInt32) (component : Nat) (events : List IpcEvent) : Prop :=
  .completed handle component ∈ events ∧ .authenticated handle component ∈ events

/-- The event accepts no client in the slot of the handle. -/
def IpcEvent.Spares (handle : UInt32) (event : IpcEvent) : Prop :=
  ∀ other, event = .accepted other → handleIndex other ≠ handleIndex handle

section Histories

variable {history since : List IpcEvent} {event : IpcEvent} {handle : UInt32} {component : Nat}

theorem Current.cons (current : Current history handle since) (spares : event.Spares handle) :
    Current (event :: history) handle (event :: since) := by
  refine ⟨current.1.cons event, ?_⟩
  intro other occurred
  rcases mem_cons.mp occurred with latest | earlier
  · exact spares other latest.symm
  · exact current.2 other earlier

/-- A slot has one latest client. -/
theorem Current.unique {others : List IpcEvent} (current : Current history handle since)
    (otherwise : Current history handle others) : since = others :=
  current.1.unique (fun accepted => current.2 handle accepted rfl) otherwise.1
    fun accepted => otherwise.2 handle accepted rfl

theorem Admitted.cons (admitted : Admitted handle component since) :
    Admitted handle component (event :: since) :=
  ⟨mem_cons_of_mem _ admitted.1, mem_cons_of_mem _ admitted.2⟩

end Histories

/-! ## The invariant -/

/-- The listener is about to complete or to close the client. -/
def Listener.Finishing (handle : UInt32) : Listener → Prop
  | .acknowledging finishing _ => finishing = handle
  | .closing finishing => finishing = handle
  | _ => False

/-- The component of a taken slot is that of its client, unless the handshake is
not finished. -/
def SlotsAdmitted (history : List IpcEvent) (listener : Listener) (pool : GglSocketPool maxFds)
    (cells : Fin maxFds.toNat → Nat) : Prop :=
  ∀ index, pool.fds index ≠ fdFree →
    ∃ since, Current history (pool.handleOf index) since ∧
      (cells index ≠ 0 → listener.Finishing (pool.handleOf index) ∨
        Admitted (pool.handleOf index) (cells index) since)

/-- The message was received from the latest client of its slot, and `before` is
what happened on that connection until then. -/
def ReceivedBy (history : List IpcEvent) (handle : UInt32) (message : EventStreamMessage)
    (before : List IpcEvent) : Prop :=
  ∃ window, Current history handle (window ++ .received handle message :: before)

variable (context : IpcContext) (history : List IpcEvent)

/-- What the listener may rely on about the client it serves. -/
def Listener.Justified (cells : Fin maxFds.toNat → Nat) : Listener → Prop
  | .idle => True
  | .received handle message _ =>
    ∃ before, ReceivedBy history handle message before ∧
      ∀ index, slotIndex index = handleIndex handle → cells index ≠ 0 →
        Admitted handle (cells index) before
  | .connecting handle _ _ => ∃ since, Current history handle since
  | .authenticating handle => ∃ since, Current history handle since
  | .registering handle _ => ∃ since, Current history handle since
  | .completing handle component =>
    ∃ since, Current history handle since ∧ .authenticated handle component ∈ since
  | .acknowledging handle component =>
    ∃ since, Current history handle since ∧ .authenticated handle component ∈ since ∧
      ∀ index, slotIndex index = handleIndex handle → cells index = component
  | .operating handle message _ =>
    ∃ before, ReceivedBy history handle message before ∧
      ∀ index, slotIndex index = handleIndex handle → Admitted handle (cells index) before
  | .dispatching handle message common operation =>
    (∃ before, ReceivedBy history handle message before ∧
      ∀ index, slotIndex index = handleIndex handle → Admitted handle (cells index) before) ∧
    ∃ args, operationRequest context message common = .ok (operation, args)
  | .replying _ => True
  | .closing _ => True

/-- The slots and the listener agree with the history. -/
structure Identified (server : IpcServer maxFds) : Prop where
  slots : SlotsAdmitted history server.listener server.pool server.clientComponents
  justified : server.listener.Justified context history server.clientComponents

section Preservation

variable {context : IpcContext} {history : List IpcEvent} {event : IpcEvent}
  {server next : IpcServer maxFds} {listener target : Listener} {pool : GglSocketPool maxFds}
  {cells : Fin maxFds.toNat → Nat} {handle : UInt32} {message : EventStreamMessage}
  {before : List IpcEvent} {index : Fin maxFds.toNat}

/-- An event that accepts nobody. -/
def IpcEvent.Quiet (event : IpcEvent) : Prop :=
  ∀ other, event ≠ .accepted other

theorem IpcEvent.Quiet.spares (quiet : event.Quiet) : event.Spares handle :=
  fun other accepted => absurd accepted (quiet other)

theorem ReceivedBy.cons (received : ReceivedBy history handle message before)
    (quiet : event.Quiet) : ReceivedBy (event :: history) handle message before := by
  rcases received with ⟨window, current⟩
  exact ⟨event :: window, current.cons quiet.spares⟩

theorem Listener.Justified.cons (justified : listener.Justified context history cells)
    (quiet : event.Quiet) : listener.Justified context (event :: history) cells := by
  cases listener with
  | idle | replying | closing => trivial
  | received | operating =>
    rcases justified with ⟨before, received, admitted⟩
    exact ⟨before, received.cons quiet, admitted⟩
  | dispatching handle message common operation =>
    rcases justified with ⟨⟨before, received, admitted⟩, request⟩
    exact ⟨⟨before, received.cons quiet, admitted⟩, request⟩
  | connecting | authenticating | registering =>
    rcases justified with ⟨since, current⟩
    exact ⟨_, current.cons quiet.spares⟩
  | completing handle component =>
    rcases justified with ⟨since, current, authenticated⟩
    exact ⟨_, current.cons quiet.spares, mem_cons_of_mem _ authenticated⟩
  | acknowledging handle component =>
    rcases justified with ⟨since, current, authenticated, assigned⟩
    exact ⟨_, current.cons quiet.spares, mem_cons_of_mem _ authenticated, assigned⟩

section

variable (slots : SlotsAdmitted history listener pool cells)

include slots

/-- A step that leaves the pool and its components alone keeps the slots, if it
gives up no client it was finishing. -/
theorem SlotsAdmitted.move (quiet : event.Quiet)
    (finishing : ∀ handle, listener.Finishing handle → target.Finishing handle) :
    SlotsAdmitted (event :: history) target pool cells := by
  intro index taken
  rcases slots index taken with ⟨since, current, admitted⟩
  refine ⟨_, current.cons quiet.spares, ?_⟩
  intro assigned
  rcases admitted assigned with unfinished | admitted
  · exact .inl (finishing _ unfinished)
  · exact .inr admitted.cons

/-- A listener that is not finishing anybody may go anywhere. -/
theorem SlotsAdmitted.moveFrom (quiet : event.Quiet) (free : ∀ handle, ¬listener.Finishing handle) :
    SlotsAdmitted (event :: history) target pool cells :=
  slots.move quiet fun handle finishing => absurd finishing (free handle)

/-- A close frees its own slot and keeps the others. -/
theorem SlotsAdmitted.release (handle : UInt32)
    (finishing : ∀ other, other ≠ handle → listener.Finishing other → target.Finishing other)
    (invalid : ∀ error, validateHandle pool handle = .error error →
      ∀ index, listener.Finishing (pool.handleOf index) → target.Finishing (pool.handleOf index)) :
    SlotsAdmitted (.closed handle :: history) target
      (gglSocketPoolRelease ipcHooks pool cells handle).2.1
      (gglSocketPoolRelease ipcHooks pool cells handle).2.2 := by
  rcases ipcRelease pool cells handle with ⟨sameCells, ⟨⟨error, failed⟩, samePool⟩ |
    ⟨released, rfl, freed⟩⟩
  · rw [sameCells, samePool]
    intro index taken
    rcases slots index taken with ⟨since, current, admitted⟩
    refine ⟨_, current.cons (fun other => nofun), fun assigned => ?_⟩
    rcases admitted assigned with unfinished | admitted
    · exact .inl (invalid error failed index unfinished)
    · exact .inr admitted.cons
  · rw [sameCells, freed]
    intro index taken
    rcases freed_taken taken with ⟨different, wasTaken⟩
    rw [freed_handleOf_of_ne different]
    rcases slots index wasTaken with ⟨since, current, admitted⟩
    refine ⟨_, current.cons (fun other => nofun), fun assigned => ?_⟩
    rcases admitted assigned with unfinished | admitted
    · apply Or.inl
      apply finishing _ _ unfinished
      intro same
      exact different (handleOf_injective same)
    · exact .inr admitted.cons

end

/-- A new client starts without a component. -/
theorem SlotsAdmitted.accept {free : Fin maxFds.toNat} {fd : Int32}
    (slots : SlotsAdmitted history listener pool cells)
    (unfinished : ∀ handle, ¬listener.Finishing handle) :
    SlotsAdmitted (.accepted (pool.handleOf free) :: history) target (pool.setFd free fd)
      (update cells free 0) := by
  intro index taken
  have sameHandle : (pool.setFd free fd).handleOf index = pool.handleOf index :=
    handleOf_eq_iff.mpr rfl
  rw [sameHandle]
  by_cases same : index = free
  · subst same
    exact ⟨[], ⟨since_latest _ _, by simp⟩, fun assigned => absurd (update_self ..) assigned⟩
  · have wasTaken : pool.fds index ≠ fdFree := by
      rwa [setFd_fds, update_of_ne same] at taken
    rcases slots index wasTaken with ⟨since, current, admitted⟩
    refine ⟨_, current.cons ?_, ?_⟩
    · rintro other accepted sameSlot
      cases accepted
      rw [handleIndex_handleOf, handleIndex_handleOf] at sameSlot
      exact same (slotIndex_inj.mp sameSlot).symm
    · rw [update_of_ne same]
      intro assigned
      rcases admitted assigned with finishing | admitted
      · exact absurd finishing (unfinished _)
      · exact .inr admitted.cons

theorem getConnComponent_eq_ok {component : Nat}
    (found : getConnComponent server handle = .ok component) :
    ∃ index, slotIndex index = handleIndex handle ∧ server.clientComponents index = component := by
  rw [getConnComponent] at found
  split at found
  · cases found
  next index valid =>
    cases found
    cases validateHandle_eq_ok_iff.mp valid
    exact ⟨index, handleIndex_handleOf.symm, rfl⟩

/-- The message of a taken slot is justified by what happened there. -/
theorem SlotsAdmitted.received {common : EventStreamCommonHeaders}
    (slots : SlotsAdmitted history listener pool cells)
    (unfinished : ∀ handle, ¬listener.Finishing handle) (taken : pool.fds index ≠ fdFree) :
    Listener.Justified context (.received (pool.handleOf index) message :: history) cells
      (.received (pool.handleOf index) message common) := by
  rcases slots index taken with ⟨since, current, admitted⟩
  refine ⟨since, ⟨[], current.cons fun _ => nofun⟩, ?_⟩
  intro other sameSlot assigned
  rw [handleIndex_handleOf, slotIndex_inj] at sameSlot
  subst sameSlot
  rcases admitted assigned with finishing | admitted
  · exact absurd finishing (unfinished _)
  · exact admitted

/-- Setting the component keeps the other slots; the client is not finished. -/
theorem SlotsAdmitted.assign {component : Nat}
    (slots : SlotsAdmitted history listener pool cells)
    (unfinished : ∀ handle, ¬listener.Finishing handle) :
    SlotsAdmitted (.internal :: history) (.acknowledging (pool.handleOf index) component) pool
      (update cells index component) := by
  intro other taken
  rcases slots other taken with ⟨since, current, admitted⟩
  refine ⟨_, current.cons fun _ => nofun, ?_⟩
  by_cases same : other = index
  · subst same
    exact fun _ => .inl rfl
  · rw [update_of_ne same]
    intro assigned
    rcases admitted assigned with finishing | admitted
    · exact absurd finishing (unfinished _)
    · exact .inr admitted.cons

theorem Listener.Justified.assign {component : Nat}
    (justified : (Listener.completing (pool.handleOf index) component).Justified context history
      cells) :
    (Listener.acknowledging (pool.handleOf index) component).Justified context
      (.internal :: history) (update cells index component) := by
  rcases justified with ⟨since, current, authenticated⟩
  refine ⟨_, current.cons fun _ => nofun, mem_cons_of_mem _ authenticated, ?_⟩
  intro other sameSlot
  rw [handleIndex_handleOf, slotIndex_inj] at sameSlot
  subst sameSlot
  exact update_self ..

/-- Once the answer is written the client of the slot is admitted. -/
theorem SlotsAdmitted.acknowledge {component : Nat}
    (slots : SlotsAdmitted history (.acknowledging handle component) pool cells)
    (justified : (Listener.acknowledging handle component).Justified context history cells) :
    SlotsAdmitted (.completed handle component :: history) .idle pool cells := by
  intro index taken
  rcases slots index taken with ⟨since, current, admitted⟩
  refine ⟨_, current.cons fun _ => nofun, ?_⟩
  intro assigned
  rcases admitted assigned with finishing | admitted
  · have named : handle = pool.handleOf index := finishing
    subst named
    rcases justified with ⟨own, ownCurrent, authenticated, ownAssigned⟩
    cases current.unique ownCurrent
    right
    rw [ownAssigned index handleIndex_handleOf.symm]
    exact ⟨mem_cons_self, mem_cons_of_mem _ authenticated⟩
  · exact .inr admitted.cons

/-- A listener that finishes nobody moves on; the pool and its components stay. -/
theorem Identified.move {components : IpcComponents}
    (identified : Identified context history server) (stands : server.listener = listener)
    (unfinished : ∀ handle, ¬listener.Finishing handle)
    (quiet : event.Quiet)
    (justified : listener.Justified context (event :: history) server.clientComponents →
      target.Justified context (event :: history) server.clientComponents) :
    Identified context (event :: history)
      { server with components := components, listener := target } := by
  subst stands
  exact ⟨identified.slots.moveFrom quiet unfinished, justified (identified.justified.cons quiet)⟩

theorem Listener.Justified.afterOperation {result : Except GglError Unit} :
    (afterOperation handle result).Justified context history cells := by
  rcases result with error | _
  · cases error <;> trivial
  · trivial

theorem IpcStep.identified (step : IpcStep context server event next)
    (identified : Identified context history server) :
    Identified context (event :: history) next := by
  have slots := identified.slots
  have justified := identified.justified
  cases step with
  | accept fd idle registered reached =>
    rcases gglSocketPoolRegister_cases registered with ⟨index, _, _, rfl, rfl, ⟨⟩⟩
    rw [idle] at slots
    refine ⟨slots.accept fun _ => id, ?_⟩
    rcases reached with rfl | rfl
    · trivial
    · trivial
  | refuse idle refused =>
    rcases gglSocketPoolRegister_cases refused with ⟨rfl, rfl | ⟨_, _, _, ⟨⟩⟩⟩
    exact ⟨slots.move (fun _ => nofun) fun _ => id, justified.cons fun _ => nofun⟩
  | receive handle message idle valid taken decoded =>
    cases validateHandle_eq_ok_iff.mp valid
    rw [idle] at slots
    exact ⟨slots.moveFrom (fun _ => nofun) fun _ => id, slots.received (fun _ => id) taken⟩
  | receiveFailed _ stands | identifyFailed stands | connectInvalid stands
  | connectTokenRefused stands | peerPidFailed stands | registerFailed _ _ stands
  | assignFailed stands | operationZeroStream stands | reply stands | replyFailed stands =>
    exact identified.move stands (fun _ => id) (fun _ => nofun) fun _ => trivial
  | identify received found =>
    refine identified.move received (fun _ => id) (fun _ => nofun) ?_
    rintro ⟨before, receivedBy, admitted⟩
    rcases getConnComponent_eq_ok found with ⟨index, sameSlot, rfl⟩
    split
    · rcases receivedBy with ⟨window, current⟩
      exact ⟨_, current⟩
    next assigned =>
      refine ⟨before, receivedBy, ?_⟩
      intro other otherSlot
      cases slotIndex_inj.mp (otherSlot.trans sameSlot.symm)
      exact admitted _ sameSlot assigned
  | connectAuthenticate stands | peerPid _ stands =>
    exact identified.move stands (fun _ => id) (fun _ => nofun) id
  | connectToken stands | register _ _ stands =>
    rw [stands] at slots justified
    rcases justified with ⟨since, current⟩
    exact ⟨slots.moveFrom (fun _ => nofun) fun _ => id,
      _, current.cons fun _ => nofun, mem_cons_self⟩
  | assign completing valid =>
    cases validateHandle_eq_ok_iff.mp valid
    rw [completing] at slots justified
    exact ⟨slots.assign fun _ => id, justified.assign⟩
  | acknowledge acknowledging valid =>
    rw [acknowledging] at slots justified
    exact ⟨slots.acknowledge justified, trivial⟩
  | acknowledgeFailed acknowledging =>
    rw [acknowledging] at slots
    exact ⟨slots.move (fun _ => nofun) fun _ => id, trivial⟩
  | operationInvalid stands | unhandled stands | lookupFailed stands | dispatch _ stands =>
    exact identified.move stands (fun _ => id) (fun _ => nofun)
      fun _ => Listener.Justified.afterOperation
  | operation operating nonzero request =>
    exact identified.move operating (fun _ => id) (fun _ => nofun) fun served =>
      ⟨served, _, request⟩
  | @close handle closing =>
    rw [closing] at slots
    refine ⟨slots.release handle ?_ ?_, trivial⟩
    · intro other different finishing
      exact different finishing.symm
    · intro error invalid index finishing
      have named : handle = server.pool.handleOf index := finishing
      rw [named, validateHandle_handleOf] at invalid
      cases invalid
  | closeElsewhere handle =>
    refine ⟨slots.release handle (fun _ _ => id) fun _ _ _ => id, ?_⟩
    rw [(ipcRelease server.pool server.clientComponents handle).1]
    exact justified.cons fun _ => nofun

end Preservation

/-! ## Dispatch -/

section Dispatch

variable {context : IpcContext} {history : List IpcEvent} {server : IpcServer maxFds}
  {pool : GglSocketPool maxFds} {handle : UInt32} {component : Nat} {name operation : Buffer}

/-- The server before the first client. -/
def ipcServerInit (pool : GglSocketPool maxFds) : IpcServer maxFds where
  pool := gglSocketPoolInit pool
  clientComponents := fun _ => 0
  components := noComponents
  listener := .idle

theorem Run.identified (run : Run (IpcStep context) (ipcServerInit pool) history server) :
    Identified context history server := by
  apply run.invariant (Identified context)
  · exact ⟨fun index taken => absurd rfl taken, trivial⟩
  · intro _ _ _ _ identified step
    exact step.identified identified

/-- In every run, an operation is dispatched as a component only for a message
of the latest client of the slot, after that client was authenticated as the
component and completed the handshake. -/
theorem dispatched_as_authenticated
    (run : Run (IpcStep context) (ipcServerInit pool)
      (.dispatched handle component name operation :: history) server) :
    ∃ window message before,
      Current history handle (window ++ .received handle message :: before) ∧
      .completed handle component ∈ before ∧ .authenticated handle component ∈ before ∧
      (∃ common args, operationRequest context message common = .ok (operation, args)) ∧
      gglIpcComponentsGetName server.components component = some name := by
  cases run with
  | tail run step =>
    have justified := (Run.identified run).justified
    cases step with
    | dispatch result dispatching known found named =>
      rw [dispatching] at justified
      rcases justified with ⟨⟨before, ⟨window, current⟩, admitted⟩, args, request⟩
      rcases getConnComponent_eq_ok found with ⟨index, sameSlot, rfl⟩
      rcases admitted index sameSlot with ⟨completed, authenticated⟩
      exact ⟨window, _, before, current, completed, authenticated, ⟨_, args, request⟩, named⟩

/-- A client that asks for a secret. -/
def connectMessage : EventStreamMessage where
  headers := [(gglStr ":message-type", .int32 4), (gglStr "authenticate", .int32 1)]
  payload := []

def operationMessage : EventStreamMessage where
  headers := [(gglStr ":message-type", .int32 0), (gglStr ":stream-id", .int32 1),
    (gglStr "operation", .string (gglStr "op"))]
  payload := []

def exampleContext : IpcContext where
  jsonDecode _ := .ok (.map [])
  operations := [gglStr "op"]

/-- A server for one client, and its slot. -/
def oneClientServer : IpcServer 1 :=
  ipcServerInit ⟨fun _ => 0, fun _ => 0⟩

def clientSlot : Fin (UInt16.toNat 1) :=
  ⟨0, Nat.one_pos⟩

/-- The server after the handshake of its client. -/
def connectedServer : IpcServer 1 where
  pool := oneClientServer.pool.setFd clientSlot 5
  clientComponents := update (update (fun _ => 0) clientSlot 0) clientSlot 1
  components := noComponents.add (exampleEntry zeroSvcuid) (by decide)
  listener := .idle

def connectEvents : List IpcEvent :=
  [.completed 1 1, .internal, .authenticated 1 1, .internal, .internal, .internal,
    .received 1 connectMessage, .accepted 1]

theorem connect_run :
    Run (IpcStep exampleContext) oneClientServer connectEvents connectedServer := by
  have accepted : Run (IpcStep exampleContext) oneClientServer [.accepted 1]
      { oneClientServer with
        pool := oneClientServer.pool.setFd clientSlot 5
        clientComponents := update (fun _ => 0) clientSlot 0 } :=
    .tail .refl (.accept 5 rfl rfl (.inl rfl))
  have received := accepted.tail (.receive 1 connectMessage rfl rfl (by decide) rfl)
  have identified := received.tail (.identify rfl rfl)
  have asked := identified.tail (.connectAuthenticate rfl rfl)
  have found := asked.tail (.peerPid 77 rfl rfl)
  have registered := found.tail
    (.register exampleUnit (.filled zeroSvcuid) rfl (register_exampleUnit zeroSvcuid))
  have assigned := registered.tail (.assign rfl rfl)
  exact assigned.tail (.acknowledge rfl rfl)

theorem operation_run :
    Run (IpcStep exampleContext) oneClientServer
      (.dispatched 1 1 (gglStr "com.example") (gglStr "op") :: .internal :: .internal ::
        .received 1 operationMessage :: connectEvents) connectedServer := by
  have received := connect_run.tail (.receive 1 operationMessage rfl rfl (by decide) rfl)
  have identified := received.tail (.identify rfl rfl)
  have requested := identified.tail (.operation rfl (by decide) rfl)
  exact requested.tail (.dispatch (.ok ()) rfl (by decide) rfl rfl)

/-- The operation of the client is dispatched as the component it became. -/
theorem dispatched_example :
    ∃ window message before,
      Current (.internal :: .internal :: .received 1 operationMessage :: connectEvents) 1
        (window ++ .received 1 message :: before) ∧
      .completed 1 1 ∈ before ∧ .authenticated 1 1 ∈ before := by
  rcases dispatched_as_authenticated operation_run with
    ⟨window, message, before, current, completed, authenticated, _⟩
  exact ⟨window, message, before, current, completed, authenticated⟩

end Dispatch

end GreengrassLite

import GreengrassLite.CoreBus.Connections
import Mathlib.Data.List.Count

/-!
# Closing subscriptions

A callback that `ggl_sub_accept` was given is called once, when its connection is
released, provided that the connection has no second subscription with a callback:
a slot has room for one.  A subscription that is accepted after its connection is gone
has its callback called at once.
-/

namespace GreengrassLite

open Library List Function

variable {maxClients : UInt16} {κ σ : Type}

/-! ## Counting callbacks -/

/-- A callback is accepted on the connection. -/
def BusEvent.acceptsOn (connection : Nat) : BusEvent κ → Bool
  | .accepted number (some _) => number = connection
  | .acceptedLate number _ => number = connection
  | _ => false

/-- No connection has a second subscription with a callback. -/
def SingleSubscription (history : List (BusEvent κ)) : Prop :=
  ∀ connection, history.countP (BusEvent.acceptsOn connection) ≤ 1

theorem SingleSubscription.tail {history : List (BusEvent κ)} {event : BusEvent κ}
    (single : SingleSubscription (event :: history)) :
    SingleSubscription history := by
  intro connection
  have bound := single connection
  rw [countP_cons] at bound
  omega

/-- The connection was released. -/
def Released (history : List (BusEvent κ)) (connection : Nat) : Prop :=
  ∃ called, .released connection called ∈ history

section Counts

variable [DecidableEq κ] (history : List (BusEvent κ)) (connection : Nat)

def BusEvent.accepts (onClose : κ) : BusEvent κ → Bool
  | .accepted number (some callback) => number = connection ∧ callback = onClose
  | .acceptedLate number callback => number = connection ∧ callback = onClose
  | _ => false

def BusEvent.calls (onClose : κ) : BusEvent κ → Bool
  | .released number (some callback) => number = connection ∧ callback = onClose
  | .acceptedLate number callback => number = connection ∧ callback = onClose
  | _ => false

/-- How many subscriptions with the callback were accepted on the connection. -/
def acceptsOf (onClose : κ) (history : List (BusEvent κ)) : Nat :=
  history.countP (BusEvent.accepts connection onClose)

/-- How often the callback was called for the connection. -/
def callsOf (onClose : κ) (history : List (BusEvent κ)) : Nat :=
  history.countP (BusEvent.calls connection onClose)

/-- Each accepted callback is called once when its connection is released, and not
before. -/
def ClosedOnce : Prop :=
  ∀ connection onClose,
    (Released history connection →
      callsOf connection onClose history = acceptsOf connection onClose history) ∧
    (¬Released history connection → callsOf connection onClose history = 0)

/-! ## The account of a connection -/

/-- The connection is not released, and no callback but the one in its cell was
accepted. -/
structure OpenAccount (cell : Option κ) : Prop where
  unreleased : ¬Released history connection
  uncalled : ∀ onClose, callsOf connection onClose history = 0
  accepted : ∀ onClose, acceptsOf connection onClose history = if cell = some onClose then 1 else 0

/-- The connection is released, and all its callbacks were called. -/
structure SettledAccount : Prop where
  released : Released history connection
  settled : ∀ onClose, callsOf connection onClose history = acceptsOf connection onClose history

/-- The event is not about the connection. -/
def BusEvent.Spares (event : BusEvent κ) : Prop :=
  (∀ called, event ≠ .released connection called) ∧
    ∀ onClose, event.calls connection onClose = false ∧ event.accepts connection onClose = false

variable {history connection} {event : BusEvent κ} {other : Nat} {cell : Option κ} {onClose : κ}

theorem BusEvent.Spares.released (spares : event.Spares connection) :
    Released (event :: history) connection ↔ Released history connection := by
  constructor
  · rintro ⟨called, occurred⟩
    rcases mem_cons.mp occurred with latest | earlier
    · exact absurd latest.symm (spares.1 called)
    · exact ⟨called, earlier⟩
  · rintro ⟨called, occurred⟩
    exact ⟨called, mem_cons_of_mem _ occurred⟩

theorem BusEvent.Spares.callsOf (spares : event.Spares connection) :
    callsOf connection onClose (event :: history) = callsOf connection onClose history :=
  countP_cons_of_neg (by rw [(spares.2 onClose).1]; exact Bool.false_ne_true)

theorem BusEvent.Spares.acceptsOf (spares : event.Spares connection) :
    acceptsOf connection onClose (event :: history) = acceptsOf connection onClose history :=
  countP_cons_of_neg (by rw [(spares.2 onClose).2]; exact Bool.false_ne_true)

theorem OpenAccount.cons (account : OpenAccount history connection cell)
    (spares : event.Spares connection) : OpenAccount (event :: history) connection cell where
  unreleased := fun released => account.unreleased (spares.released.mp released)
  uncalled := fun onClose => spares.callsOf.trans (account.uncalled onClose)
  accepted := fun onClose => spares.acceptsOf.trans (account.accepted onClose)

theorem SettledAccount.cons (account : SettledAccount history connection)
    (spares : event.Spares connection) : SettledAccount (event :: history) connection where
  released := spares.released.mpr account.released
  settled := fun onClose => by rw [spares.callsOf, spares.acceptsOf, account.settled onClose]

theorem BusEvent.Quiet.spares (quiet : event.Quiet) : event.Spares connection := by
  cases event with
  | requested | internal => exact ⟨nofun, fun _ => ⟨rfl, rfl⟩⟩
  | accepted number callback =>
    cases callback with
    | none => exact ⟨nofun, fun _ => ⟨rfl, rfl⟩⟩
    | some callback => cases quiet
  | connected | acceptedLate | released => cases quiet

theorem spares_connected : (BusEvent.connected other : BusEvent κ).Spares connection :=
  ⟨nofun, fun _ => ⟨rfl, rfl⟩⟩

theorem spares_released {called : Option κ} (different : other ≠ connection) :
    (BusEvent.released other called).Spares connection := by
  refine ⟨fun called same => different (by cases same; rfl), fun onClose => ⟨?_, rfl⟩⟩
  cases called with
  | none => rfl
  | some callback => simp [BusEvent.calls, different]

theorem spares_accepted (different : other ≠ connection) :
    (BusEvent.accepted other (some onClose)).Spares connection :=
  ⟨nofun, fun _ => ⟨rfl, by simp [BusEvent.accepts, different]⟩⟩

theorem spares_acceptedLate (different : other ≠ connection) :
    (BusEvent.acceptedLate other onClose).Spares connection :=
  ⟨nofun, fun _ => ⟨by simp [BusEvent.calls, different], by simp [BusEvent.accepts, different]⟩⟩

/-- A release calls the callback of the cell and settles the account. -/
theorem OpenAccount.release (account : OpenAccount history connection cell) :
    SettledAccount (.released connection cell :: history) connection := by
  refine ⟨⟨cell, mem_cons_self⟩, fun onClose => ?_⟩
  have accepts : acceptsOf connection onClose (.released connection cell :: history)
      = acceptsOf connection onClose history := countP_cons_of_neg (by nofun)
  rw [accepts, account.accepted onClose, callsOf, countP_cons]
  change callsOf connection onClose history + _ = _
  rw [account.uncalled onClose]
  cases cell with
  | none => rfl
  | some callback => simp [BusEvent.calls]

theorem SettledAccount.acceptLate (account : SettledAccount history connection) :
    SettledAccount (.acceptedLate connection onClose :: history) connection := by
  rcases account.released with ⟨called, occurred⟩
  refine ⟨⟨called, mem_cons_of_mem _ occurred⟩, fun callback => ?_⟩
  have settled := account.settled callback
  rw [callsOf, acceptsOf] at settled ⊢
  rw [countP_cons, countP_cons, settled]
  rfl

/-- Before a connection's only callback is accepted, it has none. -/
theorem SingleSubscription.unaccepted {callback : κ}
    (single : SingleSubscription (.accepted connection (some onClose) :: history)) :
    acceptsOf connection callback history = 0 := by
  have bound := single connection
  rw [countP_cons_of_pos (by simp [BusEvent.acceptsOn])] at bound
  have fewer : acceptsOf connection callback history
      ≤ history.countP (BusEvent.acceptsOn connection) := by
    apply countP_mono_left
    intro event _ accepts
    cases event with
    | accepted number onClose =>
      cases onClose with
      | none => cases accepts
      | some onClose =>
        simp only [BusEvent.accepts, decide_eq_true_eq] at accepts
        simp [BusEvent.acceptsOn, accepts.1]
    | acceptedLate number onClose =>
      simp only [BusEvent.accepts, decide_eq_true_eq] at accepts
      simp [BusEvent.acceptsOn, accepts.1]
    | _ => cases accepts
  omega

section

variable (account : OpenAccount history connection cell)
  (single : SingleSubscription (.accepted connection (some onClose) :: history))

include account single

theorem OpenAccount.cell_eq_none : cell = none := by
  cases cell with
  | none => rfl
  | some callback =>
    have accepted := account.accepted callback
    rw [single.unaccepted, if_pos rfl] at accepted
    cases accepted

/-- A first callback goes into the cell. -/
theorem OpenAccount.accept :
    OpenAccount (.accepted connection (some onClose) :: history) connection (some onClose) := by
  refine ⟨?_, ?_, ?_⟩
  · rintro ⟨called, occurred⟩
    rcases mem_cons.mp occurred with latest | earlier
    · cases latest
    · exact account.unreleased ⟨called, earlier⟩
  · intro callback
    exact account.uncalled callback
  · intro callback
    rw [acceptsOf, countP_cons]
    change acceptsOf connection callback history + _ = _
    rw [single.unaccepted]
    simp [BusEvent.accepts]

end

/-! ## All accounts -/

/-- The accounts of all connections. -/
structure Accounted (history : List (BusEvent κ)) (books : BusBooks maxClients κ) : Prop where
  live : ∀ {index}, books.pool.fds index ≠ fdFree →
    OpenAccount history (books.connection index) (books.cleanup index)
  gone : ∀ {connection}, connection < books.connections → books.Gone connection →
    SettledAccount history connection
  ahead : ∀ {connection}, books.connections ≤ connection → OpenAccount history connection none

variable {books after : BusBooks maxClients κ}

theorem Accounted.change (accounted : Accounted history books) (numbered : books.Numbered)
    (change : BookChange books event after) (single : SingleSubscription (event :: history)) :
    Accounted (event :: history) after := by
  cases change with
  | quiet quiet =>
    exact ⟨fun taken => (accounted.live taken).cons quiet.spares,
      fun below gone => (accounted.gone below gone).cons quiet.spares,
      fun ahead => (accounted.ahead ahead).cons quiet.spares⟩
  | @connected added fd free taken =>
    refine ⟨?_, ?_, ?_⟩
    · intro index stillTaken
      dsimp only at stillTaken ⊢
      by_cases same : index = added
      · rw [same, update_self, update_self]
        exact (accounted.ahead (Nat.le_refl _)).cons spares_connected
      · rw [GglSocketPool.setFd_fds, update_of_ne same] at stillTaken
        rw [update_of_ne same, update_of_ne same]
        exact (accounted.live stillTaken).cons spares_connected
    · intro connection below gone
      rcases gone.of_connected free taken with ⟨different, goneBefore⟩
      have belowBefore : connection < books.connections :=
        Nat.lt_of_le_of_ne (Nat.le_of_lt_succ below) different
      exact (accounted.gone belowBefore goneBefore).cons spares_connected
    · intro connection ahead
      exact (accounted.ahead (Nat.le_of_succ_le ahead)).cons spares_connected
  | @released freed taken =>
    refine ⟨?_, ?_, ?_⟩
    · intro index stillTaken
      rcases freed_taken stillTaken with ⟨different, wasTaken⟩
      apply (accounted.live wasTaken).cons
      apply spares_released
      intro agree
      exact different (numbered.distinct wasTaken taken agree.symm)
    · intro connection below gone
      rcases gone.of_released with rfl | goneBefore
      · exact (accounted.live taken).release
      · exact (accounted.gone below goneBefore).cons (spares_released (goneBefore freed taken))
    · intro connection ahead
      apply (accounted.ahead ahead).cons
      apply spares_released
      exact Nat.ne_of_lt (Nat.lt_of_lt_of_le (numbered.below taken) ahead)
  | @accepted target callback taken =>
    refine ⟨?_, ?_, ?_⟩
    · intro index stillTaken
      dsimp only at stillTaken ⊢
      by_cases same : index = target
      · rw [same, update_self]
        exact (accounted.live taken).accept single
      · rw [update_of_ne same]
        apply (accounted.live stillTaken).cons
        apply spares_accepted
        intro agree
        exact same (numbered.distinct stillTaken taken agree.symm)
    · intro connection below gone
      exact (accounted.gone below gone).cons (spares_accepted (gone target taken))
    · intro connection ahead
      apply (accounted.ahead ahead).cons
      apply spares_accepted
      exact Nat.ne_of_lt (Nat.lt_of_lt_of_le (numbered.below taken) ahead)
  | @acceptedLate late callback below gone =>
    refine ⟨?_, ?_, ?_⟩
    · intro index taken
      exact (accounted.live taken).cons (spares_acceptedLate (gone index taken).symm)
    · intro connection belowThis goneThis
      by_cases same : late = connection
      · rw [← same]
        exact (accounted.gone below gone).acceptLate
      · exact (accounted.gone belowThis goneThis).cons (spares_acceptedLate same)
    · intro connection ahead
      apply (accounted.ahead ahead).cons
      apply spares_acceptedLate
      exact Nat.ne_of_lt (Nat.lt_of_lt_of_le below ahead)

/-- With its accounts in order, the server has closed each subscription once. -/
theorem Accounted.closedOnce (accounted : Accounted history books) : ClosedOnce history := by
  intro connection onClose
  have either : (∃ cell, OpenAccount history connection cell) ∨
      SettledAccount history connection := by
    by_cases below : connection < books.connections
    · by_cases gone : books.Gone connection
      · exact .inr (accounted.gone below gone)
      · rcases not_forall.mp gone with ⟨index, connected⟩
        rcases Classical.not_imp.mp connected with ⟨taken, same⟩
        cases not_not.mp same
        exact .inl ⟨_, accounted.live taken⟩
    · exact .inl ⟨none, accounted.ahead (Nat.le_of_not_lt below)⟩
  rcases either with ⟨cell, account⟩ | account
  · exact ⟨fun released => absurd released account.unreleased, fun _ => account.uncalled onClose⟩
  · exact ⟨fun _ => account.settled onClose, fun unreleased => absurd account.released unreleased⟩

theorem BusServer.Fresh.accounted {server : BusServer maxClients κ σ} (fresh : server.Fresh) :
    Accounted [] server.books where
  live := fun taken => absurd (fresh.free _) taken
  gone := by
    intro connection below
    change connection < server.connections at below
    rw [fresh.noConnections] at below
    exact absurd below (Nat.not_lt_zero _)
  ahead := fun _ =>
    { unreleased := fun ⟨_, occurred⟩ => absurd occurred not_mem_nil
      uncalled := fun _ => rfl
      accepted := fun _ => rfl }

theorem Run.accounted {daemon : Daemon κ σ} {start server : BusServer maxClients κ σ}
    (run : Run (BusStep daemon) start history server) (fresh : start.Fresh)
    (single : SingleSubscription history) : Accounted history server.books := by
  induction run with
  | refl => exact fresh.accounted
  | tail earlier step ih =>
    have ordered := Run.inOrder earlier fresh
    exact (ih single.tail).change ordered.numbered (step.change ordered) single

end Counts

end GreengrassLite

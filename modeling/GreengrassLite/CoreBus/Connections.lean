import GreengrassLite.CoreBus.Server

/-!
# The connections of the core bus server

What a step does to the slots, the callbacks and the numbers of the connections is
said once, in `BookChange`.  The request that the server thread handles belongs to
the connection in its slot or, after another thread has closed it, to none: the slot
then stays free, because the thread that would accept the next client is the one
that handles the request.
-/

namespace GreengrassLite

open Library Function GglSocketPool

variable {maxClients : UInt16} {κ σ : Type}

/-- What the server knows about its connections. -/
structure BusBooks (maxClients : UInt16) (κ : Type) where
  pool : GglSocketPool maxClients
  cleanup : Fin maxClients.toNat → Option κ
  connection : Fin maxClients.toNat → Nat
  connections : Nat

def BusServer.books (server : BusServer maxClients κ σ) : BusBooks maxClients κ where
  pool := server.pool
  cleanup := server.clients.cleanup
  connection := server.connection
  connections := server.connections

variable (books : BusBooks maxClients κ)

/-- No client with this number is connected. -/
def BusBooks.Gone (connection : Nat) : Prop :=
  ∀ index, books.pool.fds index ≠ fdFree → books.connection index ≠ connection

/-- The numbers of the connected clients are below the next one and distinct. -/
structure BusBooks.Numbered : Prop where
  below : ∀ {index}, books.pool.fds index ≠ fdFree → books.connection index < books.connections
  distinct : ∀ {first second}, books.pool.fds first ≠ fdFree → books.pool.fds second ≠ fdFree →
    books.connection first = books.connection second → first = second

/-- The request belongs to the connection in its slot, or to one that is gone and has
left the slot free. -/
structure BusBooks.Serves (request : BusRequest maxClients) : Prop where
  named : handleIndex request.handle = slotIndex request.index
  below : request.connection < books.connections
  served : LiveAt books.pool request.handle request.index ∧
      books.connection request.index = request.connection ∨
    books.pool.fds request.index = fdFree ∧
      request.handle ≠ books.pool.handleOf request.index ∧ books.Gone request.connection

/-- An event that neither begins nor ends a connection and accepts no callback. -/
def BusEvent.Quiet : BusEvent κ → Prop
  | .requested _ _ => True
  | .accepted _ none => True
  | .internal => True
  | _ => False

/-- What a step can do to the books. -/
inductive BookChange (books : BusBooks maxClients κ) : BusEvent κ → BusBooks maxClients κ → Prop
  | quiet {event : BusEvent κ} : event.Quiet → BookChange books event books
  | connected {index fd} :
      books.pool.fds index = fdFree → fd ≠ fdFree →
      BookChange books (.connected books.connections)
        { pool := books.pool.setFd index fd
          cleanup := update books.cleanup index none
          connection := update books.connection index books.connections
          connections := books.connections + 1 }
  | released {index} :
      books.pool.fds index ≠ fdFree →
      BookChange books (.released (books.connection index) (books.cleanup index))
        { books with pool := books.pool.freed index }
  | accepted {index onClose} :
      books.pool.fds index ≠ fdFree →
      BookChange books (.accepted (books.connection index) (some onClose))
        { books with cleanup := update books.cleanup index (some onClose) }
  | acceptedLate {connection onClose} :
      connection < books.connections → books.Gone connection →
      BookChange books (.acceptedLate connection onClose) books

/-- The request the server thread handles. -/
def BusPhase.request? : BusPhase maxClients → Option (BusRequest maxClients)
  | .requested request _ => some request
  | .handling request _ => some request
  | .accepting request => some request
  | .failing request => some request
  | .closing request => some request
  | _ => none

/-- The books are in order, and so is the request that is handled. -/
structure BusServer.InOrder (server : BusServer maxClients κ σ) : Prop where
  numbered : server.books.Numbered
  serves : ∀ {request}, server.phase.request? = some request → server.books.Serves request

section Requests

variable {books : BusBooks maxClients κ} {request : BusRequest maxClients}
  {index : Fin maxClients.toNat}

/-- A valid handle of a request names its slot. -/
theorem BusBooks.Serves.live (serves : books.Serves request)
    (valid : request.handle = books.pool.handleOf index) :
    index = request.index ∧ books.pool.fds index ≠ fdFree ∧
      books.connection index = request.connection := by
  have slots : slotIndex request.index = slotIndex index := by
    rw [← serves.named, valid, handleIndex_handleOf]
  cases slotIndex_inj.mp slots
  rcases serves.served with ⟨live, numbered⟩ | ⟨_, stale, _⟩
  · exact ⟨rfl, live.2, numbered⟩
  · exact absurd valid stale

/-- A request whose handle is not valid belongs to a connection that is gone. -/
theorem BusBooks.Serves.gone {error : GglError} (serves : books.Serves request)
    (invalid : validateHandle books.pool request.handle = .error error) :
    books.Gone request.connection := by
  rcases serves.served with ⟨live, _⟩ | ⟨_, _, gone⟩
  · rw [live.1, validateHandle_handleOf] at invalid
    cases invalid
  · exact gone

end Requests

section Closing

variable {daemon : Daemon κ σ} {server : BusServer maxClients κ σ}
  {request : BusRequest maxClients} {index : Fin maxClients.toNat}

theorem BookChange.close_live (taken : server.pool.fds index ≠ fdFree) :
    BookChange server.books (server.closeEvent (server.pool.handleOf index))
      (server.close daemon (server.pool.handleOf index)).books := by
  rcases BusServer.close_valid daemon server index with ⟨closed, event⟩
  rw [closed, event]
  exact .released taken

theorem BookChange.close_request (serves : server.books.Serves request) :
    BookChange server.books (server.closeEvent request.handle)
      (server.close daemon request.handle).books := by
  cases valid : validateHandle server.pool request.handle with
  | ok index =>
    have named := validateHandle_eq_ok_iff.mp valid
    rw [named]
    exact BookChange.close_live (serves.live named).2.1
  | error error =>
    rcases BusServer.close_gone daemon valid with ⟨closed, event⟩
    rw [closed, event]
    exact .quiet trivial

end Closing

section Steps

variable {daemon : Daemon κ σ} {server next : BusServer maxClients κ σ}
  {books after : BusBooks maxClients κ} {event : BusEvent κ} {request : BusRequest maxClients}

/-- What a step does to the books. -/
theorem BusStep.change (step : BusStep daemon server event next) (ordered : server.InOrder) :
    BookChange server.books event next.books := by
  have serves : ∀ {request}, server.phase.request? = some request → server.books.Serves request :=
    ordered.serves
  cases step with
  | connect fd isIdle registered isPhase =>
    rcases busRegister_eq_ok registered with ⟨taken, free, rfl, rfl⟩
    exact .connected free taken
  | refuse | request | reject | dispatch | returnOk | returnError | respondGone | respondAborts
  | acceptSilently | acceptAborts | acceptSent | publishAborts | publishWaits
  | publishElsewhereAborts => exact .quiet trivial
  | failed isPhase | closed isPhase | respond isPhase | acceptNotSent isPhase =>
    exact .close_request (serves (by rw [isPhase]; rfl))
  | accept isHandling _ _ valid =>
    rcases (serves (by rw [isHandling]; rfl)).live (validateHandle_eq_ok_iff.mp valid) with
      ⟨_, taken, numbered⟩
    rw [← numbered]
    exact .accepted taken
  | acceptGone isHandling _ _ invalid =>
    have served := serves (by rw [isHandling]; rfl)
    exact .acceptedLate served.below (served.gone invalid)
  | publishFails _ live _ _ => exact .close_live live.1
  | closeElsewhere taken => exact .close_live taken

/-- What is gone when a client has connected was gone before, and is not the new connection. -/
theorem BusBooks.Gone.of_connected {added : Fin maxClients.toNat} {fd : Int32} {connection : Nat}
    {cleanup : Fin maxClients.toNat → Option κ}
    (free : books.pool.fds added = fdFree) (taken : fd ≠ fdFree)
    (gone : BusBooks.Gone
      ⟨books.pool.setFd added fd, cleanup, update books.connection added books.connections,
        books.connections + 1⟩ connection) :
    connection ≠ books.connections ∧ books.Gone connection := by
  constructor
  · rintro rfl
    refine gone added ?_ (update_self _ _ _)
    rw [setFd_fds, update_self]
    exact taken
  · intro index wasTaken
    have different : index ≠ added := by
      rintro rfl
      exact wasTaken free
    have still := gone index
    dsimp only at still
    rw [setFd_fds, update_of_ne different,
      update_of_ne different] at still
    exact still wasTaken

/-- What is gone when a connection was released is that connection or was gone before. -/
theorem BusBooks.Gone.of_released {freed : Fin maxClients.toNat} {connection : Nat}
    (gone : BusBooks.Gone { books with pool := books.pool.freed freed } connection) :
    books.connection freed = connection ∨ books.Gone connection := by
  by_cases same : books.connection freed = connection
  · exact .inl same
  · right
    intro index wasTaken
    by_cases isFreed : index = freed
    · rw [isFreed]
      exact same
    · apply gone index
      rw [freed_fds, update_of_ne isFreed]
      exact wasTaken

/-- The books stay in order. -/
theorem BusBooks.Numbered.change (numbered : books.Numbered)
    (change : BookChange books event after) : after.Numbered := by
  cases change with
  | quiet | acceptedLate => exact numbered
  | accepted => exact ⟨numbered.below, numbered.distinct⟩
  | released =>
    exact ⟨fun taken => numbered.below (freed_taken taken).2,
      fun first second => numbered.distinct (freed_taken first).2 (freed_taken second).2⟩
  | @connected added fd free taken =>
    have before : ∀ {index}, index ≠ added → (books.pool.setFd added fd).fds index ≠ fdFree →
        books.pool.fds index ≠ fdFree := by
      intro index different taken
      rwa [setFd_fds, update_of_ne different] at taken
    constructor
    · intro index taken
      by_cases same : index = added
      · rw [same]
        simp
      · show update books.connection added books.connections index < books.connections + 1
        rw [update_of_ne same]
        exact Nat.lt_succ_of_lt (numbered.below (before same taken))
    · intro first second firstTaken secondTaken agree
      change update books.connection added books.connections first
        = update books.connection added books.connections second at agree
      by_cases firstAdded : first = added
      · by_cases secondAdded : second = added
        · rw [firstAdded, secondAdded]
        · rw [firstAdded, update_self, update_of_ne secondAdded] at agree
          have below := numbered.below (before secondAdded secondTaken)
          omega
      · by_cases secondAdded : second = added
        · rw [secondAdded, update_self, update_of_ne firstAdded] at agree
          have below := numbered.below (before firstAdded firstTaken)
          omega
        · rw [update_of_ne firstAdded, update_of_ne secondAdded] at agree
          exact numbered.distinct (before firstAdded firstTaken) (before secondAdded secondTaken)
            agree

/-- While no client connects, the request keeps its connection or loses it. -/
theorem BusBooks.Serves.change (serves : books.Serves request) (numbered : books.Numbered)
    (change : BookChange books event after)
    (noClient : ∀ connection, event ≠ .connected connection) :
    after.Serves request := by
  cases change with
  | quiet | acceptedLate => exact serves
  | accepted => exact ⟨serves.named, serves.below, serves.served⟩
  | connected => exact absurd rfl (noClient _)
  | @released freed taken =>
    refine ⟨serves.named, serves.below, ?_⟩
    rcases serves.served with ⟨live, own⟩ | ⟨free, stale, gone⟩
    · by_cases same : request.index = freed
      · refine .inr ⟨?_, ?_, ?_⟩
        · rw [freed_fds, same, update_self]
        · rw [live.1, same]
          exact freed_handleOf_ne.symm
        · intro index stillTaken agree
          rcases freed_taken stillTaken with ⟨different, wasTaken⟩
          exact different ((numbered.distinct wasTaken live.2 (agree.trans own.symm)).trans same)
      · exact .inl ⟨live.freed_of_ne same, own⟩
    · have different : request.index ≠ freed := by
        rintro rfl
        exact taken free
      refine .inr ⟨?_, ?_, ?_⟩
      · rw [freed_fds, update_of_ne different]
        exact free
      · rw [freed_handleOf_of_ne different]
        exact stale
      · intro index stillTaken
        exact gone index (freed_taken stillTaken).2

/-- The request of a client that is connected. -/
theorem BusServer.InOrder.requestAt {index : Fin maxClients.toNat} (ordered : server.InOrder)
    (taken : server.pool.fds index ≠ fdFree) : server.books.Serves (server.requestAt index) :=
  ⟨handleIndex_handleOf, ordered.numbered.below taken, .inl ⟨⟨rfl, taken⟩, rfl⟩⟩

theorem close_noClient (handle : UInt32) (connection : Nat) :
    server.closeEvent handle ≠ .connected connection := by
  rw [BusServer.closeEvent]
  split
  · intro isConnected
    cases isConnected
  · intro isConnected
    cases isConnected

theorem BusStep.inOrder (step : BusStep daemon server event next) (ordered : server.InOrder) :
    next.InOrder := by
  have change := step.change ordered
  refine ⟨ordered.numbered.change change, ?_⟩
  intro request found
  have keeps : server.phase.request? = some request →
      (∀ connection, event ≠ .connected connection) → next.books.Serves request :=
    fun served noClient => (ordered.serves served).change ordered.numbered change noClient
  cases step with
  | connect fd isIdle registered isPhase =>
    rcases busRegister_eq_ok registered with ⟨taken, free, rfl, rfl⟩
    rcases isPhase with rfl | rfl
    · cases found
    · cases found
      refine ⟨handleIndex_handleOf, Nat.lt_succ_self _, .inl ⟨⟨rfl, ?_⟩, ?_⟩⟩
      · simp [BusServer.books, taken]
      · exact update_self _ _ _
  | @refuse index _ taken | @request index _ _ taken =>
    cases found
    have served : server.books.Serves (server.requestAt index) := ordered.requestAt taken
    exact served
  | reject isPhase | dispatch isPhase | accept isPhase | acceptSilently isPhase =>
    cases found
    exact keeps (by rw [isPhase]; rfl) nofun
  | returnOk isConcluded =>
    split at found
    · cases found
    · cases found
  | returnError isHandling =>
    split at found
    · cases found
      exact keeps (by rw [isHandling]; rfl) nofun
    · cases found
  | failed | closed | respond | respondGone | respondAborts | acceptGone | acceptAborts
  | acceptSent | acceptNotSent | publishAborts | publishWaits | publishElsewhereAborts =>
    cases found
  | publishFails | closeElsewhere => exact keeps found (close_noClient _)

/-- A server that has not served anybody. -/
structure BusServer.Fresh (server : BusServer maxClients κ σ) : Prop where
  free : ∀ index, server.pool.fds index = fdFree
  isIdle : server.phase = .idle
  noCurrent : server.currentHandle = 0
  noConnections : server.connections = 0

theorem BusServer.Fresh.inOrder (fresh : server.Fresh) : server.InOrder where
  numbered :=
    { below := fun taken => absurd (fresh.free _) taken
      distinct := fun taken => absurd (fresh.free _) taken }
  serves := by
    intro request found
    rw [fresh.isIdle] at found
    cases found

theorem Run.inOrder {start : BusServer maxClients κ σ} {history : List (BusEvent κ)}
    (run : Run (BusStep daemon) start history server) (fresh : start.Fresh) : server.InOrder :=
  run.invariant (fun _ server => server.InOrder) fresh.inOrder
    fun ordered step => step.inOrder ordered

end Steps

end GreengrassLite

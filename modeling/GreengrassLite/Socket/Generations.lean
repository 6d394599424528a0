import GreengrassLite.Library.Run
import GreengrassLite.Socket.Pool

/-!
# Generations of handles

Along every run of a pool a handle is accepted exactly as long as the generation
of its slot is the one it was issued in.  The generation has sixteen bits and
every release of the slot advances it, so a stale handle is accepted again after
65536 releases.

Nothing is assumed of the callers: any handle may be released, also one that was
never issued, and the slot need not be taken.
-/

namespace GreengrassLite

open Library GglSocketPool

universe u

variable {maxFds : UInt16} {σ : Type u}

/-! ## Runs of a pool -/

/-- A call of a pool with its answer. -/
inductive PoolEvent where
  | register (fd : Int32) (result : Except GglError UInt32)
  | release (handle : UInt32) (result : Except GglError Int32)
  deriving DecidableEq, Repr

/-- The calls that change which descriptors a pool holds. -/
inductive PoolStep (hooks : PoolHooks maxFds σ) :
    GglSocketPool maxFds × σ → PoolEvent → GglSocketPool maxFds × σ → Prop
  | register (pool : GglSocketPool maxFds) (state : σ) (fd : Int32) :
      PoolStep hooks (pool, state)
        (.register fd (gglSocketPoolRegister hooks pool state fd).1)
        (gglSocketPoolRegister hooks pool state fd).2
  | release (pool : GglSocketPool maxFds) (state : σ) (handle : UInt32) :
      PoolStep hooks (pool, state)
        (.release handle (gglSocketPoolRelease hooks pool state handle).1)
        (gglSocketPoolRelease hooks pool state handle).2

/-- Whether a call released the slot `index`. -/
def PoolEvent.releases (index : UInt16) : PoolEvent → Bool
  | .release handle (.ok _) => handleIndex handle = index
  | _ => false

/-- How often the slot `index` was released. -/
def releasesOf (index : UInt16) (events : List PoolEvent) : Nat :=
  events.countP (PoolEvent.releases index)

/-- What a call does to the arrays of the pool. -/
inductive PoolChange (pool : GglSocketPool maxFds) : PoolEvent → GglSocketPool maxFds → Prop
  | registered {index fd} :
      fd ≠ fdFree → pool.fds index = fdFree →
      PoolChange pool (.register fd (.ok (pool.handleOf index))) (pool.setFd index fd)
  | released {index} :
      PoolChange pool (.release (pool.handleOf index) (.ok (pool.fds index)))
        ((pool.bumpGeneration index).setFd index fdFree)
  | registerFailed {fd error} :
      PoolChange pool (.register fd (.error error)) pool
  | releaseFailed {handle error} :
      PoolChange pool (.release handle (.error error)) pool

theorem PoolStep.change {hooks : PoolHooks maxFds σ} {pool nextPool : GglSocketPool maxFds}
    {state next : σ} {event : PoolEvent}
    (step : PoolStep hooks (pool, state) event (nextPool, next)) :
    PoolChange pool event nextPool := by
  generalize before : (pool, state) = source at step
  generalize after : (nextPool, next) = target at step
  cases step with
  | register pool' state' fd =>
    cases before
    rcases outcome : gglSocketPoolRegister hooks pool state fd with ⟨result, found⟩
    rw [outcome] at after
    cases after
    cases result with
    | error error =>
      cases (gglSocketPoolRegister_cases outcome).1
      exact .registerFailed
    | ok handle =>
      rcases gglSocketPoolRegister_cases outcome with ⟨index, taken, free, rfl, rfl, _⟩
      exact .registered taken free
  | release pool' state' handle =>
    cases before
    rcases outcome : gglSocketPoolRelease hooks pool state handle with ⟨result, found⟩
    rw [outcome] at after
    cases after
    cases result with
    | error error =>
      cases gglSocketPoolRelease_cases outcome
      exact .releaseFailed
    | ok fd =>
      rcases gglSocketPoolRelease_cases outcome with ⟨index, rfl, rfl, rfl⟩
      exact .released

section Counting

variable {index other : Fin maxFds.toNat} {pool : GglSocketPool maxFds} {events : List PoolEvent}

@[simp]
theorem releasesOf_nil : releasesOf (slotIndex index) [] = 0 :=
  rfl

@[simp]
theorem releasesOf_register {fd : Int32} {result : Except GglError UInt32} :
    releasesOf (slotIndex index) (.register fd result :: events)
      = releasesOf (slotIndex index) events := by
  simp [releasesOf, PoolEvent.releases]

@[simp]
theorem releasesOf_releaseFailed {handle : UInt32} {error : GglError} :
    releasesOf (slotIndex index) (.release handle (.error error) :: events)
      = releasesOf (slotIndex index) events := by
  simp [releasesOf, PoolEvent.releases]

@[simp]
theorem releasesOf_released_same {fd : Int32} :
    releasesOf (slotIndex index) (.release (pool.handleOf index) (.ok fd) :: events)
      = releasesOf (slotIndex index) events + 1 := by
  simp [releasesOf, PoolEvent.releases]

@[simp]
theorem releasesOf_released_other {fd : Int32} (different : index ≠ other) :
    releasesOf (slotIndex index) (.release (pool.handleOf other) (.ok fd) :: events)
      = releasesOf (slotIndex index) events := by
  simp [releasesOf, PoolEvent.releases, different.symm]

end Counting

/-! ## The history of a slot -/

/-- What the pool knows about an issued handle: its slot has advanced by one
generation for each release since, and keeps the descriptor until the first. -/
structure Issued (pool : GglSocketPool maxFds) (fd : Int32) (handle : UInt32)
    (since : List PoolEvent) (index : Fin maxFds.toNat) : Prop where
  named : handleIndex handle = slotIndex index
  generation : pool.generations index
    = handleGeneration handle + UInt16.ofNat (releasesOf (slotIndex index) since)
  taken : fd ≠ fdFree
  held : releasesOf (slotIndex index) since = 0 → pool.fds index = fd

/-- The pool agrees with its history. -/
structure Recorded (history : List PoolEvent) (pool : GglSocketPool maxFds) : Prop where
  issued : ∀ {fd : Int32} {handle : UInt32} {since : List PoolEvent},
    Since history (.register fd (.ok handle)) since → ∃ index, Issued pool fd handle since index
  occupied : ∀ {index : Fin maxFds.toNat}, pool.fds index ≠ fdFree →
    ∃ since, Since history (.register (pool.fds index) (.ok (pool.handleOf index))) since ∧
      releasesOf (slotIndex index) since = 0

section Preservation

variable {pool next : GglSocketPool maxFds} {event : PoolEvent} {history since : List PoolEvent}
  {fd : Int32} {handle : UInt32} {index : Fin maxFds.toNat}

theorem Issued.change (issued : Issued pool fd handle since index)
    (change : PoolChange pool event next) : Issued next fd handle (event :: since) index := by
  cases change with
  | @registered target newFd newTaken free =>
    refine ⟨issued.named, ?_, issued.taken, ?_⟩
    · exact issued.generation
    · intro unreleased
      have held := issued.held unreleased
      have different : index ≠ target := by
        rintro rfl
        exact issued.taken (held.symm.trans free)
      rw [setFd_fds, Function.update_of_ne different]
      exact held
  | @released target =>
    by_cases same : index = target
    · subst same
      refine ⟨issued.named, ?_, issued.taken, ?_⟩
      · rw [releasesOf_released_same, UInt16.ofNat_add, ← UInt16.add_assoc, ← issued.generation]
        simp
      · intro unreleased
        rw [releasesOf_released_same] at unreleased
        cases unreleased
    · refine ⟨issued.named, ?_, issued.taken, ?_⟩
      · rw [releasesOf_released_other same, ← issued.generation]
        simp [same]
      · intro unreleased
        rw [releasesOf_released_other same] at unreleased
        rw [← issued.held unreleased]
        simp [same]
  | registerFailed | releaseFailed =>
    exact ⟨issued.named, by simpa using issued.generation, issued.taken,
      by simpa using issued.held⟩

/-- A registration is recorded by the pool it leaves. -/
theorem issued_of_registered (taken : fd ≠ fdFree) :
    Issued (pool.setFd index fd) fd (pool.handleOf index) [] index where
  named := handleIndex_handleOf
  generation := by simp
  taken := taken
  held _ := by simp

theorem Recorded.issued_change (recorded : Recorded history pool)
    (change : PoolChange pool event next)
    (occurred : Since (event :: history) (.register fd (.ok handle)) since) :
    ∃ index, Issued next fd handle since index := by
  rcases since_cons_iff.mp occurred with ⟨rfl, latest⟩ | ⟨older, rfl, earlier⟩
  · subst latest
    cases change with
    | registered taken free => exact ⟨_, issued_of_registered taken⟩
  · rcases recorded.issued earlier with ⟨index, issued⟩
    exact ⟨index, issued.change change⟩

theorem Recorded.occupied_change (recorded : Recorded history pool)
    (change : PoolChange pool event next) (occupied : next.fds index ≠ fdFree) :
    ∃ since,
      Since (event :: history) (.register (next.fds index) (.ok (next.handleOf index))) since ∧
        releasesOf (slotIndex index) since = 0 := by
  cases change with
  | @registered target newFd taken free =>
    by_cases same : index = target
    · subst same
      refine ⟨[], ?_, rfl⟩
      simp [setFd, handleOf]
    · have old : (pool.setFd target newFd).fds index = pool.fds index :=
        Function.update_of_ne same _ _
      rw [old] at occupied ⊢
      rcases recorded.occupied occupied with ⟨since, occurred, unreleased⟩
      exact ⟨_, occurred.cons _, by rwa [releasesOf_register]⟩
  | @released target =>
    by_cases same : index = target
    · subst same
      exact absurd (Function.update_self ..) occupied
    · have old : (pool.freed target).fds index = pool.fds index := Function.update_of_ne same _ _
      have sameHandle := @GglSocketPool.freed_handleOf_of_ne _ pool target index same
      rw [freed] at old sameHandle
      rw [old] at occupied ⊢
      rw [sameHandle]
      rcases recorded.occupied occupied with ⟨since, occurred, unreleased⟩
      exact ⟨_, occurred.cons _, by rwa [releasesOf_released_other same]⟩
  | registerFailed =>
    rcases recorded.occupied occupied with ⟨since, occurred, unreleased⟩
    exact ⟨_, occurred.cons _, by rwa [releasesOf_register]⟩
  | releaseFailed =>
    rcases recorded.occupied occupied with ⟨since, occurred, unreleased⟩
    exact ⟨_, occurred.cons _, by rwa [releasesOf_releaseFailed]⟩

theorem Recorded.change (recorded : Recorded history pool) (change : PoolChange pool event next) :
    Recorded (event :: history) next where
  issued := recorded.issued_change change
  occupied := recorded.occupied_change change

/-- The pool agrees with its history at every moment of a run. -/
theorem Run.recorded {hooks : PoolHooks maxFds σ} {state initial : σ}
    (run : Run (PoolStep hooks) (gglSocketPoolInit next, initial) history (pool, state)) :
    Recorded history pool := by
  apply run.invariant fun history reached => Recorded history reached.1
  · exact ⟨fun occurred => absurd occurred not_since_nil, fun taken => absurd rfl taken⟩
  · intro history reached event next recorded step
    exact recorded.change step.change

end Preservation

/-! ## Operations on a handle -/

/-- The calls of a pool that take a handle. -/
inductive PoolOperation (maxFds : UInt16) (σ : Type u) where
  | release
  | close
  | read (length : Nat)
  | write (bytes : Buffer)
  | getPeerPid
  | guarded (action : Fin maxFds.toNat → σ → σ)

namespace PoolOperation

variable {hooks : PoolHooks maxFds σ} {system : SocketSystem σ} {pool : GglSocketPool maxFds}
  {handle : UInt32} {operation : PoolOperation maxFds σ} {error : GglError}
  {index : Fin maxFds.toNat}

/-- The call with whether it succeeded and what it leaves behind.  `none` is a
transfer that is still being retried. -/
def perform (hooks : PoolHooks maxFds σ) (system : SocketSystem σ) (fuel : Nat)
    (pool : GglSocketPool maxFds) (state : σ) (handle : UInt32) :
    PoolOperation maxFds σ → Option (Except GglError Unit × GglSocketPool maxFds × σ)
  | .release =>
    let (result, next) := gglSocketPoolRelease hooks pool state handle
    some (result.map fun _ => (), next)
  | .close => some (gglSocketHandleClose hooks system pool state handle)
  | .read length =>
    (gglSocketHandleRead system pool handle fuel length state).map fun (result, state) =>
      (result.map fun _ => (), pool, state)
  | .write bytes =>
    (gglSocketHandleWrite system pool handle fuel bytes state).map fun (result, state) =>
      (result.map fun _ => (), pool, state)
  | .getPeerPid =>
    let (result, state) := gglSocketHandleGetPeerPid system pool handle state
    some (result.map fun _ => (), pool, state)
  | .guarded action =>
    let (result, state) := gglSocketHandleProtected action pool handle state
    some (result, pool, state)

/-- Whether the call has anything to do: a transfer of no bytes has not. -/
def isEffective : PoolOperation maxFds σ → Bool
  | .read length => 0 < length
  | .write bytes => 0 < bytes.length
  | _ => true

/-- The call fails whatever the hooks and the operating system would do, and
leaves them and the pool alone. -/
def Rejects (operation : PoolOperation maxFds σ) (pool : GglSocketPool maxFds)
    (handle : UInt32) : Prop :=
  ∃ error, ∀ hooks system fuel state,
    operation.perform hooks system (fuel + 1) pool state handle = some (.error error, pool, state)

/-- The call changes neither the pool nor anything else. -/
def ChangesNothing (operation : PoolOperation maxFds σ) (pool : GglSocketPool maxFds)
    (handle : UInt32) : Prop :=
  ∀ hooks system fuel state {result next},
    operation.perform hooks system (fuel + 1) pool state handle = some (result, next) →
    next = (pool, state)

variable {fuel : Nat} {state : σ}

theorem transferLoop_of_invalid {β : Type} {length : β → Nat}
    {movePart : Int32 → β → σ → Except GglError β × σ} {rest : β}
    (invalid : validateHandle pool handle = .error error) (someLeft : 0 < length rest) :
    transferLoop length movePart pool handle (fuel + 1) rest state =
      some (.error error, state) := by
  rw [transferLoop, if_pos someLeft, invalid]

/-- An effective call on an invalid handle is rejected. -/
theorem rejects_of_invalid (effective : operation.isEffective)
    (invalid : validateHandle pool handle = .error error) : operation.Rejects pool handle := by
  refine ⟨error, ?_⟩
  intro hooks system fuel state
  cases operation with
  | release => simp [perform, gglSocketPoolRelease, invalid, Except.map]
  | close => simp [perform, gglSocketHandleClose, gglSocketPoolRelease, invalid]
  | read length =>
    have someLeft : 0 < length := by simpa [isEffective] using effective
    simp [perform, gglSocketHandleRead, transferLoop_of_invalid invalid, someLeft, Except.map]
  | write bytes =>
    have someLeft : 0 < bytes.length := by simpa [isEffective] using effective
    rw [perform, gglSocketHandleWrite, transferLoop_of_invalid invalid someLeft]
    rfl
  | getPeerPid => simp [perform, gglSocketHandleGetPeerPid, invalid, Except.map]
  | guarded action => simp [perform, gglSocketHandleProtected, invalid]

/-- Calls that are not effective succeed without looking at the handle. -/
@[simp]
theorem perform_of_not_effective (idle : ¬operation.isEffective) :
    operation.perform hooks system (fuel + 1) pool state handle = some (.ok (), pool, state) := by
  cases operation with
  | read length =>
    have nothing : length = 0 := by simpa [isEffective] using idle
    subst nothing
    rfl
  | write bytes =>
    have nothing : bytes = [] := by simpa [isEffective] using idle
    subst nothing
    rfl
  | release | close | getPeerPid | guarded => exact absurd rfl idle

theorem changesNothing_of_invalid (invalid : validateHandle pool handle = .error error) :
    operation.ChangesNothing pool handle := by
  intro hooks system fuel state result next performed
  by_cases effective : operation.isEffective
  · rcases rejects_of_invalid effective invalid with ⟨error, rejected⟩
    rw [rejected] at performed
    cases performed
    rfl
  · rw [perform_of_not_effective effective] at performed
    cases performed
    rfl

/-- Hooks and a system that refuse nothing. -/
def acceptingHooks : PoolHooks maxFds σ :=
  ⟨none, none⟩

def acceptingSystem : SocketSystem σ where
  readPartial _ length state := (.ok (List.replicate length 0), state)
  writePartial _ _ state := (.ok [], state)
  peerCred _ state := (some 1, state)
  close _ state := state

/-- A transfer whose first part moves everything succeeds. -/
theorem transferLoop_of_valid {β : Type} {length : β → Nat}
    {movePart : Int32 → β → σ → Except GglError β × σ} {rest : β} (done : β) {next : σ}
    (valid : validateHandle pool handle = .ok index)
    (moved : movePart (pool.fds index) rest state = (.ok done, next))
    (nothingLeft : length done = 0) (someLeft : 0 < length rest) :
    transferLoop length movePart pool handle (fuel + 2) rest state = some (.ok done, next) := by
  rw [transferLoop, if_pos someLeft, valid]
  simp [moved, transferLoop, nothingLeft]

/-- A valid handle passes: some environment lets the call succeed. -/
theorem perform_accepting (operation : PoolOperation maxFds σ)
    (valid : validateHandle pool handle = .ok index) (state : σ) :
    ∃ next, operation.perform acceptingHooks acceptingSystem 2 pool state handle
      = some (.ok (), next) := by
  by_cases effective : operation.isEffective
  · cases operation with
    | release =>
      simp [perform, gglSocketPoolRelease, valid, runHook, acceptingHooks, Except.map]
    | close =>
      simp [perform, gglSocketHandleClose, gglSocketPoolRelease, valid, runHook, acceptingHooks]
    | read length =>
      have someLeft : 0 < length := by simpa [isEffective] using effective
      refine ⟨(pool, state), ?_⟩
      rw [perform, gglSocketHandleRead,
        transferLoop_of_valid (List.replicate length 0, 0) valid]
      · rfl
      · simp [acceptingSystem]
      · rfl
      · exact someLeft
    | write bytes =>
      have someLeft : 0 < bytes.length := by simpa [isEffective] using effective
      refine ⟨(pool, state), ?_⟩
      rw [perform, gglSocketHandleWrite, transferLoop_of_valid [] valid]
      · rfl
      · rfl
      · rfl
      · exact someLeft
    | getPeerPid =>
      simp [perform, gglSocketHandleGetPeerPid, valid, acceptingSystem, Except.map]
    | guarded action => simp [perform, gglSocketHandleProtected, valid]
  · exact ⟨_, perform_of_not_effective effective⟩

/-- Whether an effective call is rejected is decided by `validate_handle`. -/
theorem rejects_iff [Nonempty σ] (effective : operation.isEffective) :
    operation.Rejects pool handle ↔ ∃ error, validateHandle pool handle = .error error := by
  constructor
  · rintro ⟨error, rejected⟩
    rcases validated : validateHandle pool handle with refused | index
    · exact ⟨refused, rfl⟩
    · rcases operation.perform_accepting validated (Classical.arbitrary σ) with ⟨next, accepted⟩
      rw [rejected] at accepted
      cases accepted
  · rintro ⟨error, invalid⟩
    exact rejects_of_invalid effective invalid

end PoolOperation

section Generations

variable {pool start : GglSocketPool maxFds} {history since : List PoolEvent} {fd : Int32}
  {handle : UInt32} {index : Fin maxFds.toNat}

@[simp]
theorem add_ofNat_eq_left_iff {generation : UInt16} {count : Nat} :
    generation + UInt16.ofNat count = generation ↔ 65536 ∣ count := by
  rw [UInt16.add_eq_left, ← UInt16.toNat_inj]
  exact Nat.dvd_iff_mod_eq_zero.symm

/-- An issued handle is the present one of its slot after a multiple of 65536
releases. -/
theorem Issued.eq_handleOf_iff (issued : Issued pool fd handle since index) :
    handle = pool.handleOf index ↔ 65536 ∣ releasesOf (handleIndex handle) since := by
  have small := slotIndex_small index
  have halves : poolHandle (handleGeneration handle) (slotIndex index) = handle := by
    rw [← issued.named] at small ⊢
    exact poolHandle_of_halves small
  rw [issued.named, ← add_ofNat_eq_left_iff, ← issued.generation]
  constructor
  · rintro rfl
    rw [handleGeneration_handleOf]
  · intro current
    rw [handleOf, current, halves]

theorem Issued.invalid_iff (issued : Issued pool fd handle since index) :
    (∃ error, validateHandle pool handle = .error error) ↔
      ¬65536 ∣ releasesOf (handleIndex handle) since := by
  rw [← issued.eq_handleOf_iff]
  constructor
  · rintro ⟨error, invalid⟩ rfl
    rw [validateHandle_handleOf] at invalid
    cases invalid
  · intro stale
    rcases validated : validateHandle pool handle with refused | found
    · exact ⟨refused, rfl⟩
    · exfalso
      apply stale
      have named := validateHandle_eq_ok_iff.mp validated
      have slots : slotIndex found = slotIndex index := by
        rw [← issued.named, named, handleIndex_handleOf]
      rw [← slotIndex_inj.mp slots]
      exact named

/-- At every moment of a run: the taken slots have distinct non-zero handles that
resolve to the descriptor they were issued for, and an issued handle is rejected
by every effective call exactly when the number of releases of its slot since is
not a multiple of 65536.  Calls on a handle that is not valid change nothing. -/
theorem handles_generational {hooks : PoolHooks maxFds σ} {state initial : σ}
    (run : Run (PoolStep hooks) (gglSocketPoolInit start, initial) history (pool, state)) :
    (∀ index, pool.fds index ≠ fdFree →
      pool.handleOf index ≠ 0 ∧ validateHandle pool (pool.handleOf index) = .ok index ∧
        ∃ since, Since history (.register (pool.fds index) (.ok (pool.handleOf index))) since ∧
          releasesOf (slotIndex index) since = 0) ∧
    (∀ first second, first ≠ second → pool.handleOf first ≠ pool.handleOf second) ∧
    (∀ fd handle since, Since history (.register fd (.ok handle)) since →
      (releasesOf (handleIndex handle) since = 0 →
        ∃ index, validateHandle pool handle = .ok index ∧ pool.fds index = fd) ∧
      ∀ operation : PoolOperation maxFds σ, operation.isEffective →
        (operation.Rejects pool handle ↔ ¬65536 ∣ releasesOf (handleIndex handle) since)) ∧
    (∀ handle, (∃ error, validateHandle pool handle = .error error) →
      ∀ operation : PoolOperation maxFds σ, operation.ChangesNothing pool handle) := by
  have recorded := Run.recorded run
  have inhabited : Nonempty σ := ⟨state⟩
  refine ⟨?_, ?_, ?_, ?_⟩
  · intro index taken
    exact ⟨handleOf_ne_zero, validateHandle_handleOf, recorded.occupied taken⟩
  · intro first second different same
    exact different (handleOf_injective same)
  · intro fd handle since occurred
    rcases recorded.issued occurred with ⟨index, issued⟩
    constructor
    · intro unreleased
      refine ⟨index, ?_, ?_⟩
      · rw [validateHandle_eq_ok_iff, issued.eq_handleOf_iff, unreleased]
        exact Nat.dvd_zero _
      · rw [issued.named] at unreleased
        exact issued.held unreleased
    · intro operation effective
      rw [PoolOperation.rejects_iff effective, issued.invalid_iff]
  · rintro handle ⟨error, invalid⟩ operation
    exact PoolOperation.changesNothing_of_invalid invalid

/-- A pool of one slot without hooks. -/
def singleSlotHooks : PoolHooks 1 Unit :=
  ⟨none, none⟩

def singleSlot : GglSocketPool 1 :=
  ⟨fun _ => 0, fun _ => 0⟩

def onlySlot : Fin (UInt16.toNat 1) :=
  ⟨0, Nat.one_pos⟩

/-- The pool of one slot after a registration and the release of its handle. -/
def singleSlotReleased : GglSocketPool 1 :=
  (((gglSocketPoolInit singleSlot).setFd onlySlot 5).bumpGeneration onlySlot).setFd onlySlot fdFree

theorem singleSlot_run :
    Run (PoolStep singleSlotHooks) (gglSocketPoolInit singleSlot, ())
      [.release 1 (.ok 5), .register 5 (.ok 1)] (singleSlotReleased, ()) :=
  .tail (.tail .refl (.register (gglSocketPoolInit singleSlot) () 5))
    (.release ((gglSocketPoolInit singleSlot).setFd onlySlot 5) () 1)

/-- After its release the first handle of the pool is rejected by a read. -/
theorem handles_generational_released :
    (PoolOperation.read 4 : PoolOperation 1 Unit).Rejects singleSlotReleased 1 :=
  (((handles_generational singleSlot_run).2.2.1 5 1 [.release 1 (.ok 5)] ⟨[], rfl⟩).2
    (.read 4) rfl).mpr (by decide)

/-- A read of no bytes succeeds on the same handle. -/
theorem released_handle_read_nothing :
    ∃ history pool,
      Run (PoolStep singleSlotHooks) (gglSocketPoolInit singleSlot, ()) history (pool, ()) ∧
      Since history (.register 5 (.ok 1)) [.release 1 (.ok 5)] ∧
      ¬65536 ∣ releasesOf (handleIndex 1) [.release 1 (.ok 5)] ∧
      ∀ hooks system fuel, (PoolOperation.read 0).perform hooks system (fuel + 1) pool () 1
        = some (.ok (), pool, ()) :=
  ⟨_, _, singleSlot_run, ⟨[], rfl⟩, by decide, fun _ _ _ => rfl⟩

end Generations

end GreengrassLite

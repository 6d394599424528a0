import GreengrassLite.Core.Object
import Mathlib.Algebra.Group.Nat.Defs
import Mathlib.Data.List.FinRange

/-!
# Socket pools

`ggl-socket/src/socket_handle.c` keeps the file descriptors of a server in an
array and hands out 32-bit handles for them: the generation of the slot in the
high half, the index of the slot plus one in the low half.

The arrays `fds` and `generations` are functions on the indices below `max_fds`,
so an index out of bounds cannot be written down.  The two hooks of the pool
act on a state of their own and may fail, and the calls of the operating system
are parameters.  The pool mutex is held during each call, so a call is one step;
the loops of read and write take it anew for every part.
-/

namespace GreengrassLite

open Function

variable {generation : UInt16}

universe u v

/-- `FD_FREE`, the mark of a free slot. -/
def fdFree : Int32 :=
  -0x55555556

/-- The arrays of a `GglSocketPool`. -/
structure GglSocketPool (maxFds : UInt16) where
  fds : Fin maxFds.toNat → Int32
  generations : Fin maxFds.toNat → UInt16

/-- `on_register` and `on_release`, which may be `NULL`. -/
structure PoolHooks (maxFds : UInt16) (σ : Type u) where
  onRegister : Option (UInt32 → Fin maxFds.toNat → σ → Except GglError Unit × σ)
  onRelease : Option (UInt32 → Fin maxFds.toNat → σ → Except GglError Unit × σ)

/-- What the pool asks of the operating system.  A partial write answers the
bytes that remain. -/
structure SocketSystem (σ : Type u) where
  readPartial : Int32 → Nat → σ → Except GglError Buffer × σ
  writePartial : Int32 → Buffer → σ → Except GglError Buffer × σ
  peerCred : Int32 → σ → Option Int32 × σ
  close : Int32 → σ → σ

variable {maxFds : UInt16} {σ : Type u}

/-! ## Handles -/

/-- The handle of the slot `index` in the generation `generation`. -/
def poolHandle (generation index : UInt16) : UInt32 :=
  generation.toUInt32 <<< 16 ||| (index.toUInt32 + 1)

/-- The index a handle names; the handle zero names an index out of bounds. -/
def handleIndex (handle : UInt32) : UInt16 :=
  ((handle &&& 0xFFFF) - 1).toUInt16

/-- The generation a handle names. -/
def handleGeneration (handle : UInt32) : UInt16 :=
  (handle >>> 16).toUInt16

section

variable {index : UInt16} (small : index.toNat < 65535)

include small

@[simp]
theorem poolHandle_toNat :
    (poolHandle generation index).toNat = generation.toNat * 2 ^ 16 + (index.toNat + 1) := by
  have generationBound := generation.toNat_lt
  have low : (index.toUInt32 + 1).toNat = index.toNat + 1 := by
    show (index.toNat + 1) % 2 ^ 32 = index.toNat + 1
    omega
  have high : (generation.toUInt32 <<< 16).toNat = generation.toNat <<< 16 := by
    show generation.toNat <<< 16 % 2 ^ 32 = generation.toNat <<< 16
    omega
  rw [poolHandle, UInt32.toNat_or, low, high, ← Nat.shiftLeft_add_eq_or_of_lt (by omega),
    Nat.shiftLeft_eq]

@[simp]
theorem handleIndex_poolHandle : handleIndex (poolHandle generation index) = index := by
  apply UInt16.toNat.inj
  have low : (poolHandle generation index &&& 0xFFFF).toNat = index.toNat + 1 := by
    rw [UInt32.toNat_and, poolHandle_toNat small]
    show (generation.toNat * 2 ^ 16 + (index.toNat + 1)) &&& (2 ^ 16 - 1) = index.toNat + 1
    rw [Nat.and_two_pow_sub_one_eq_mod]
    omega
  rw [handleIndex, UInt32.toNat_toUInt16, UInt32.toNat_sub, low]
  show (2 ^ 32 - 1 + (index.toNat + 1)) % 2 ^ 32 % 2 ^ 16 = index.toNat
  omega

@[simp]
theorem handleGeneration_poolHandle :
    handleGeneration (poolHandle generation index) = generation := by
  apply UInt16.toNat.inj
  have generationBound := generation.toNat_lt
  rw [handleGeneration, UInt32.toNat_toUInt16, UInt32.toNat_shiftRight, poolHandle_toNat small]
  show (generation.toNat * 2 ^ 16 + (index.toNat + 1)) >>> 16 % 2 ^ 16 = generation.toNat
  omega

end

/-- A handle is what its two halves make, unless its index is out of bounds for
every pool. -/
@[simp]
theorem poolHandle_of_halves {handle : UInt32} (small : (handleIndex handle).toNat < 65535) :
    poolHandle (handleGeneration handle) (handleIndex handle) = handle := by
  apply UInt32.toNat.inj
  rw [poolHandle_toNat small]
  have bound := handle.toNat_lt
  have index : (handleIndex handle).toNat
      = (2 ^ 32 - 1 + handle.toNat % 2 ^ 16) % 2 ^ 32 % 2 ^ 16 := by
    have low : (handle &&& 0xFFFF).toNat = handle.toNat % 2 ^ 16 := by
      exact Nat.and_two_pow_sub_one_eq_mod handle.toNat 16
    rw [handleIndex, UInt32.toNat_toUInt16, UInt32.toNat_sub, low]
    rfl
  have generation : (handleGeneration handle).toNat = handle.toNat / 2 ^ 16 % 2 ^ 16 := by
    rw [handleGeneration, UInt32.toNat_toUInt16, UInt32.toNat_shiftRight,
      ← Nat.shiftRight_eq_div_pow]
    rfl
  omega

theorem poolHandle_ne_zero {index : UInt16} (small : index.toNat < 65535) :
    poolHandle generation index ≠ 0 := by
  intro zero
  have value := congrArg UInt32.toNat zero
  rw [poolHandle_toNat small] at value
  change generation.toNat * 2 ^ 16 + (index.toNat + 1) = 0 at value
  omega

/-! ## The pool -/

/-- An index as the source counts it. -/
def slotIndex (index : Fin maxFds.toNat) : UInt16 :=
  UInt16.ofNat index

@[simp]
theorem slotIndex_toNat (index : Fin maxFds.toNat) : (slotIndex index).toNat = index := by
  have capacity := maxFds.toNat_lt
  exact UInt16.toNat_ofNat_of_lt' (Nat.lt_trans index.isLt capacity)

theorem slotIndex_small (index : Fin maxFds.toNat) : (slotIndex index).toNat < 65535 := by
  have capacity := maxFds.toNat_lt
  rw [slotIndex_toNat]
  omega

@[simp]
theorem slotIndex_inj {first second : Fin maxFds.toNat} :
    slotIndex first = slotIndex second ↔ first = second := by
  rw [← UInt16.toNat_inj, slotIndex_toNat, slotIndex_toNat, Fin.ext_iff]

namespace GglSocketPool

variable (pool : GglSocketPool maxFds) (index : Fin maxFds.toNat)

def setFd (fd : Int32) : GglSocketPool maxFds :=
  { pool with fds := update pool.fds index fd }

def bumpGeneration : GglSocketPool maxFds :=
  { pool with generations := update pool.generations index (pool.generations index + 1) }

/-- The handle of a slot in its present generation. -/
def handleOf : UInt32 :=
  poolHandle (pool.generations index) (slotIndex index)

/-- The first free slot. -/
def firstFree : Option (Fin maxFds.toNat) :=
  (List.finRange maxFds.toNat).find? fun index => pool.fds index = fdFree

variable {pool index} {other : Fin maxFds.toNat}

@[simp]
theorem setFd_fds {fd : Int32} : (pool.setFd index fd).fds = update pool.fds index fd :=
  rfl

@[simp]
theorem setFd_generations {fd : Int32} : (pool.setFd index fd).generations = pool.generations :=
  rfl

@[simp]
theorem bumpGeneration_fds : (pool.bumpGeneration index).fds = pool.fds :=
  rfl

@[simp]
theorem bumpGeneration_generations : (pool.bumpGeneration index).generations
    = update pool.generations index (pool.generations index + 1) :=
  rfl

theorem handleOf_ne_zero : pool.handleOf index ≠ 0 :=
  poolHandle_ne_zero (slotIndex_small index)

@[simp]
theorem handleIndex_handleOf : handleIndex (pool.handleOf index) = slotIndex index :=
  handleIndex_poolHandle (slotIndex_small index)

@[simp]
theorem handleGeneration_handleOf :
    handleGeneration (pool.handleOf index) = pool.generations index :=
  handleGeneration_poolHandle (slotIndex_small index)

@[simp]
theorem handleOf_eq_iff {other : GglSocketPool maxFds} :
    other.handleOf index = pool.handleOf index ↔
      other.generations index = pool.generations index := by
  constructor
  · intro same
    rw [← handleGeneration_handleOf, same, handleGeneration_handleOf]
  · intro same
    rw [handleOf, handleOf, same]

theorem handleOf_injective : Function.Injective pool.handleOf := by
  intro first second same
  have slots := congrArg handleIndex same
  rw [handleIndex_handleOf, handleIndex_handleOf] at slots
  exact slotIndex_inj.mp slots

theorem firstFree_free (found : pool.firstFree = some index) : pool.fds index = fdFree := by
  simpa using List.find?_some found

/-- The pool after the release of a slot. -/
def freed (pool : GglSocketPool maxFds) (index : Fin maxFds.toNat) :
    GglSocketPool maxFds :=
  (pool.bumpGeneration index).setFd index fdFree

@[simp]
theorem freed_fds :
    (pool.freed index).fds = update pool.fds index fdFree :=
  rfl

@[simp]
theorem freed_handleOf_of_ne (different : other ≠ index) :
    (pool.freed index).handleOf other = pool.handleOf other := by
  rw [handleOf_eq_iff]
  exact update_of_ne different _ _

/-- The released handle is not valid any more. -/
theorem freed_handleOf_ne :
    (pool.freed index).handleOf index ≠ pool.handleOf index := by
  rw [Ne, handleOf_eq_iff]
  simp [freed]

end GglSocketPool

theorem freed_taken {pool : GglSocketPool maxFds} {freed index : Fin maxFds.toNat}
    (taken : (pool.freed freed).fds index ≠ fdFree) :
    index ≠ freed ∧ pool.fds index ≠ fdFree := by
  rw [GglSocketPool.freed_fds] at taken
  by_cases same : index = freed
  · rw [same, update_self] at taken
    exact absurd rfl taken
  · rw [update_of_ne same] at taken
    exact ⟨same, taken⟩

/-- The slot is taken, and has this handle. -/
def LiveAt (pool : GglSocketPool maxFds) (handle : UInt32) (index : Fin maxFds.toNat) :
    Prop :=
  handle = pool.handleOf index ∧ pool.fds index ≠ fdFree

instance (pool : GglSocketPool maxFds) (handle : UInt32) (index : Fin maxFds.toNat) :
    Decidable (LiveAt pool handle index) :=
  inferInstanceAs (Decidable (_ ∧ _))

namespace LiveAt

variable {pool : GglSocketPool maxFds} {handle : UInt32} {index other : Fin maxFds.toNat}

theorem setFd_of_ne (live : LiveAt pool handle index) (different : index ≠ other) (fd : Int32) :
    LiveAt (pool.setFd other fd) handle index := by
  refine ⟨live.1, ?_⟩
  rw [GglSocketPool.setFd_fds, update_of_ne different]
  exact live.2

theorem freed_of_ne (live : LiveAt pool handle index) (different : index ≠ other) :
    LiveAt (pool.freed other) handle index := by
  refine ⟨live.1.trans (GglSocketPool.freed_handleOf_of_ne different).symm, ?_⟩
  rw [GglSocketPool.freed_fds, update_of_ne different]
  exact live.2

theorem of_freed (live : LiveAt (pool.freed other) handle index) :
    index ≠ other ∧ LiveAt pool handle index := by
  rcases freed_taken live.2 with ⟨different, taken⟩
  exact ⟨different, live.1.trans (GglSocketPool.freed_handleOf_of_ne different), taken⟩

end LiveAt

/-- `validate_handle`.  It looks at the bounds and the generation, not at
whether the slot is taken. -/
def validateHandle (pool : GglSocketPool maxFds) (handle : UInt32) :
    Except GglError (Fin maxFds.toNat) :=
  if inBounds : (handleIndex handle).toNat < maxFds.toNat then
    if handleGeneration handle ≠ pool.generations ⟨(handleIndex handle).toNat, inBounds⟩ then
      .error .noentry
    else
      .ok ⟨(handleIndex handle).toNat, inBounds⟩
  else
    .error .invalid

/-- `ggl_socket_pool_init`: every slot is free, and the generations stay. -/
def gglSocketPoolInit (pool : GglSocketPool maxFds) : GglSocketPool maxFds :=
  { pool with fds := fun _ => fdFree }

/-- A hook that may be `NULL`. -/
def runHook (hook : Option (UInt32 → Fin maxFds.toNat → σ → Except GglError Unit × σ))
    (handle : UInt32) (index : Fin maxFds.toNat) (state : σ) : Except GglError Unit × σ :=
  match hook with
  | none => (.ok (), state)
  | some hook => hook handle index state

variable (hooks : PoolHooks maxFds σ) (pool : GglSocketPool maxFds)

/-- `ggl_socket_pool_register`. -/
def gglSocketPoolRegister (state : σ) (fd : Int32) :
    Except GglError UInt32 × GglSocketPool maxFds × σ :=
  if fd < 0 then
    (.error .invalid, pool, state)
  else
    match pool.firstFree with
    | none => (.error .nomem, pool, state)
    | some index =>
      let newHandle := pool.handleOf index
      match runHook hooks.onRegister newHandle index state with
      | (.error error, state) =>
        (.error error, (pool.setFd index fd).setFd index fdFree, state)
      | (.ok (), state) => (.ok newHandle, pool.setFd index fd, state)

/-- `ggl_socket_pool_release`. -/
def gglSocketPoolRelease (state : σ) (handle : UInt32) :
    Except GglError Int32 × GglSocketPool maxFds × σ :=
  match validateHandle pool handle with
  | .error error => (.error error, pool, state)
  | .ok index =>
    match runHook hooks.onRelease handle index state with
    | (.error error, state) => (.error error, pool, state)
    | (.ok (), state) =>
      (.ok (pool.fds index), (pool.bumpGeneration index).setFd index fdFree, state)

/-- The loop of read and write: as long as something remains, the handle is
validated and a part is moved.  `none` is a loop still running when the fuel is
used up, as interrupted system calls are retried for ever. -/
def transferLoop {β : Type v} (length : β → Nat)
    (movePart : Int32 → β → σ → Except GglError β × σ) (pool : GglSocketPool maxFds)
    (handle : UInt32) : Nat → β → σ → Option (Except GglError β × σ)
  | 0, _, _ => none
  | fuel + 1, rest, state =>
    if 0 < length rest then
      match validateHandle pool handle with
      | .error error => some (.error error, state)
      | .ok index =>
        match movePart (pool.fds index) rest state with
        | (.error .retry, state) =>
          transferLoop length movePart pool handle fuel rest state
        | (.error error, state) => some (.error error, state)
        | (.ok rest, state) => transferLoop length movePart pool handle fuel rest state
    else
      some (.ok rest, state)

/-- What remains of a read: the bytes read so far and the number still wanted. -/
abbrev ReadRest :=
  Buffer × Nat

variable (system : SocketSystem σ) (pool : GglSocketPool maxFds)

/-- `ggl_socket_handle_read`. -/
def gglSocketHandleRead (handle : UInt32) (fuel length : Nat) (state : σ) :
    Option (Except GglError ReadRest × σ) :=
  transferLoop (fun rest : ReadRest => rest.2)
    (fun fd rest state =>
      match system.readPartial fd rest.2 state with
      | (.error error, state) => (.error error, state)
      | (.ok bytes, state) => (.ok (rest.1 ++ bytes, rest.2 - bytes.length), state))
    pool handle fuel ([], length) state

/-- `ggl_socket_handle_write`. -/
def gglSocketHandleWrite (handle : UInt32) (fuel : Nat) (bytes : Buffer) (state : σ) :
    Option (Except GglError Buffer × σ) :=
  transferLoop List.length system.writePartial pool handle fuel bytes state

/-- `ggl_socket_handle_close`. -/
def gglSocketHandleClose (system : SocketSystem σ) (pool : GglSocketPool maxFds) (state : σ)
    (handle : UInt32) : Except GglError Unit × GglSocketPool maxFds × σ :=
  match gglSocketPoolRelease hooks pool state handle with
  | (.error error, pool, state) => (.error error, pool, state)
  | (.ok fd, pool, state) => (.ok (), pool, system.close fd state)

/-- `ggl_socket_handle_get_peer_pid`. -/
def gglSocketHandleGetPeerPid (handle : UInt32) (state : σ) : Except GglError Int32 × σ :=
  match validateHandle pool handle with
  | .error error => (.error error, state)
  | .ok index =>
    match system.peerCred (pool.fds index) state with
    | (none, state) => (.error .failure, state)
    | (some pid, state) => (.ok pid, state)

/-- `ggl_socket_handle_protected`. -/
def gglSocketHandleProtected (action : Fin maxFds.toNat → σ → σ) (pool : GglSocketPool maxFds)
    (handle : UInt32) (state : σ) : Except GglError Unit × σ :=
  match validateHandle pool handle with
  | .error error => (.error error, state)
  | .ok index => (.ok (), action index state)

/-! ## What the operations can do -/

section Specifications

variable {hooks : PoolHooks maxFds σ} {pool nextPool : GglSocketPool maxFds} {state next : σ}
  {handle : UInt32} {fd : Int32} {index : Fin maxFds.toNat}

@[simp]
theorem handleIndex_handleOf_toNat : (handleIndex (pool.handleOf index)).toNat = index :=
  (congrArg UInt16.toNat GglSocketPool.handleIndex_handleOf).trans (slotIndex_toNat index)

/-- A slot has one valid handle. -/
@[simp]
theorem validateHandle_eq_ok_iff :
    validateHandle pool handle = .ok index ↔ handle = pool.handleOf index := by
  constructor
  · intro valid
    rw [validateHandle] at valid
    split at valid
    next inBounds =>
      split at valid
      · cases valid
      next agreed =>
        cases valid
        have capacity := maxFds.toNat_lt
        have named : slotIndex ⟨(handleIndex handle).toNat, inBounds⟩ = handleIndex handle :=
          UInt16.toNat.inj (slotIndex_toNat _)
        rw [GglSocketPool.handleOf, ← not_not.mp agreed, named, poolHandle_of_halves (by omega)]
    · cases valid
  · rintro rfl
    have inBounds : (handleIndex (pool.handleOf index)).toNat < maxFds.toNat :=
      handleIndex_handleOf_toNat.trans_lt index.isLt
    have slot : (⟨_, inBounds⟩ : Fin maxFds.toNat) = index := Fin.ext handleIndex_handleOf_toNat
    rw [validateHandle, dif_pos inBounds, slot, GglSocketPool.handleGeneration_handleOf,
      if_neg (not_not.mpr rfl)]

@[simp]
theorem validateHandle_handleOf : validateHandle pool (pool.handleOf index) = .ok index :=
  validateHandle_eq_ok_iff.mpr rfl

/-- A registration takes a free slot and answers its handle, or leaves the pool as it was. -/
theorem gglSocketPoolRegister_cases {result : Except GglError UInt32}
    (registered : gglSocketPoolRegister hooks pool state fd = (result, nextPool, next)) :
    match result with
    | .ok handle => ∃ index, fd ≠ fdFree ∧ pool.fds index = fdFree ∧
        handle = pool.handleOf index ∧ nextPool = pool.setFd index fd ∧
        runHook hooks.onRegister handle index state = (.ok (), next)
    | .error _ => nextPool = pool ∧ (next = state ∨
        ∃ handle index error,
          runHook hooks.onRegister handle index state = (.error error, next)) := by
  rw [gglSocketPoolRegister] at registered
  split at registered
  · cases registered
    exact ⟨rfl, .inl rfl⟩
  next nonNegative =>
    split at registered
    · cases registered
      exact ⟨rfl, .inl rfl⟩
    next index found =>
      have isFree := GglSocketPool.firstFree_free found
      dsimp only at registered
      split at registered
      next hooked =>
        cases registered
        refine ⟨?_, .inr ⟨_, _, _, hooked⟩⟩
        simp [GglSocketPool.setFd, ← isFree]
      next hooked =>
        cases registered
        refine ⟨index, ?_, isFree, rfl, rfl, hooked⟩
        rintro rfl
        exact nonNegative (by decide)

/-- A release frees the slot of its handle and starts the next generation, or leaves the pool as
it was. -/
theorem gglSocketPoolRelease_cases {result : Except GglError Int32}
    (released : gglSocketPoolRelease hooks pool state handle = (result, nextPool, next)) :
    match result with
    | .ok fd => ∃ index, handle = pool.handleOf index ∧ fd = pool.fds index ∧
        nextPool = (pool.bumpGeneration index).setFd index fdFree
    | .error _ => nextPool = pool := by
  rw [gglSocketPoolRelease] at released
  split at released
  · cases released
    rfl
  next index valid =>
    split at released
    · cases released
      rfl
    · cases released
      exact ⟨index, validateHandle_eq_ok_iff.mp valid, rfl, rfl⟩

end Specifications

end GreengrassLite

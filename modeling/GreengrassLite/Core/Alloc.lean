import GreengrassLite.Core.Object
import Mathlib.Algebra.Group.Nat.Defs
import Mathlib.Data.List.Induction

/-!
# The bump allocator

`bump_alloc.c` hands out consecutive pieces of one buffer.  Only the index of
the next free byte and the buffer length matter for what it answers.  Sizes are
`size_t` values of `width` bits and their arithmetic wraps.
-/

namespace GreengrassLite

/-- `UINT32_MAX`. -/
def uint32Max : Nat :=
  4294967295

/-- `GglBumpAlloc`: the next free index and the length of the backing buffer. -/
structure BumpAlloc where
  index : Nat
  len : Nat
  deriving DecidableEq, Repr

/-- `ggl_bump_alloc_init`. -/
def gglBumpAllocInit (len : Nat) : BumpAlloc :=
  ⟨0, len⟩

variable (width : Nat) (alloc : BumpAlloc)

/-- `bump_alloc_alloc`, answering the allocator after the piece is taken. -/
def bumpAllocAlloc (size alignment : Nat) : Option BumpAlloc :=
  let pad := (alignment - alloc.index % alignment) % alignment
  let idx := (alloc.index + pad) % 2 ^ width
  if (idx + size) % 2 ^ width > alloc.len then
    none
  else
    some { alloc with index := (idx + size) % 2 ^ width }

/-- `GGL_ALLOCN` for `count` units of a type with this size and alignment. -/
def gglAllocn (size alignment count : Nat) : Option BumpAlloc :=
  bumpAllocAlloc width alloc (count * size % 2 ^ width) alignment

/-- `ggl_buf_clone`, answering the allocator afterwards.  The bytes are those of
the buffer, and an empty buffer takes no memory. -/
def gglBufClone (buf : Buffer) (alloc : BumpAlloc) : Except GglError BumpAlloc :=
  if buf.length = 0 then
    .ok alloc
  else
    match gglAllocn width alloc 1 1 buf.length with
    | none => .error .nomem
    | some taken => .ok taken

/-! ## Copies of objects -/

/-- `sizeof(GglObject)` and `sizeof(GglKV)`; both have the alignment 8. -/
def objectSize : Nat := 24

@[inherit_doc objectSize]
def pairSize : Nat := 40

mutual

/-- `ggl_obj_deep_copy`, answering the allocator afterwards; the copy has the value of the
object. -/
def gglObjDeepCopy : GglObject → BumpAlloc → Except GglError BumpAlloc
  | .buf bytes, alloc => gglBufClone 64 bytes alloc
  | .list items, alloc =>
    if items.length = 0 then .ok alloc
    else
      match gglAllocn 64 alloc objectSize 8 items.length with
      | none => .error .nomem
      | some taken => deepCopyItems items taken
  | .map pairs, alloc =>
    if pairs.length = 0 then .ok alloc
    else
      match gglAllocn 64 alloc pairSize 8 pairs.length with
      | none => .error .nomem
      | some taken => deepCopyPairs pairs taken
  | _, alloc => .ok alloc

/-- The loop of `deep_copy_list`. -/
def deepCopyItems : List GglObject → BumpAlloc → Except GglError BumpAlloc
  | [], alloc => .ok alloc
  | item :: items, alloc =>
    match gglObjDeepCopy item alloc with
    | .error error => .error error
    | .ok taken => deepCopyItems items taken

/-- The loop of `deep_copy_map`. -/
def deepCopyPairs : GglMap → BumpAlloc → Except GglError BumpAlloc
  | [], alloc => .ok alloc
  | (key, value) :: pairs, alloc =>
    match gglAllocn 64 alloc 1 1 key.length with
    | none => .error .nomem
    | some taken =>
      match gglObjDeepCopy value taken with
      | .error error => .error error
      | .ok taken => deepCopyPairs pairs taken

end

/-! ## Requests of memory -/

/-- `GglAlloc`: what an allocator answers to a request for `size` bytes. -/
structure GglAlloc (σ : Type) where
  alloc : σ → (size alignment : Nat) → Option σ

/-- The bump allocator as a `GglAlloc`. -/
def bumpAllocator : GglAlloc BumpAlloc where
  alloc := bumpAllocAlloc 64

/-- The allocator after a sequence of requests, each a size and an alignment. -/
def GglAlloc.allocAll {σ : Type} (allocator : GglAlloc σ) (memory : σ)
    (requests : List (Nat × Nat)) : Option σ :=
  requests.foldlM (fun memory request => allocator.alloc memory request.1 request.2) memory

theorem GglAlloc.allocAll_append {σ : Type} {allocator : GglAlloc σ} {memory left : σ}
    {first second : List (Nat × Nat)}
    (granted : allocator.allocAll memory (first ++ second) = some left) :
    ∃ middle, allocator.allocAll memory first = some middle ∧
      allocator.allocAll middle second = some left := by
  rw [allocAll, List.foldlM_append] at granted
  exact Option.bind_eq_some_iff.mp granted

@[simp]
theorem GglAlloc.allocAll_singleton {σ : Type} (allocator : GglAlloc σ) (memory : σ)
    (request : Nat × Nat) :
    allocator.allocAll memory [request] = allocator.alloc memory request.1 request.2 := by
  simp [allocAll]

/-- The size of a request may also be taken before it wraps. -/
@[simp]
theorem gglAllocn_eq_alloc (alloc : BumpAlloc) (size alignment count : Nat) :
    gglAllocn 64 alloc size alignment count =
      bumpAllocator.alloc alloc (count * size) alignment := by
  simp only [gglAllocn, bumpAllocator, bumpAllocAlloc, Nat.add_mod_mod]

/-- The request for the bytes of a buffer. -/
def bufRequests (copyBufs : Bool) (bytes : Buffer) : List (Nat × Nat) :=
  if copyBufs then [(bytes.length, 1)] else []

/-- The request for the array of a list or a map. -/
def arrayRequests (size : Nat) : Nat → List (Nat × Nat)
  | 0 => []
  | len + 1 => [((len + 1) * size, 8)]

namespace GglObject

mutual

/-- The requests that reading an object makes. -/
def requests (copyBufs : Bool) : GglObject → List (Nat × Nat)
  | .buf bytes => bufRequests copyBufs bytes
  | .list items => arrayRequests objectSize items.length ++ itemRequests copyBufs items
  | .map pairs => arrayRequests pairSize pairs.length ++ pairRequests copyBufs pairs
  | _ => []

def itemRequests (copyBufs : Bool) : List GglObject → List (Nat × Nat)
  | [] => []
  | item :: items => requests copyBufs item ++ itemRequests copyBufs items

def pairRequests (copyBufs : Bool) : GglMap → List (Nat × Nat)
  | [] => []
  | (key, value) :: pairs =>
    bufRequests copyBufs key ++ (requests copyBufs value ++ pairRequests copyBufs pairs)

end

end GglObject

/-! ## Allocations that succeed -/

/-- With room for the units and their padding an allocation succeeds, and moves
the index by no more than that. -/
theorem gglAllocn_of_room {width : Nat} {alloc : BumpAlloc} {size alignment count : Nat}
    (aligned : 0 < alignment) (wide : alloc.len < 2 ^ width)
    (room : alloc.index + (alignment + count * size) ≤ alloc.len) :
    ∃ taken, gglAllocn width alloc size alignment count = some taken ∧
      taken.len = alloc.len ∧ taken.index ≤ alloc.index + (alignment + count * size) := by
  have padLt : (alignment - alloc.index % alignment) % alignment < alignment :=
    Nat.mod_lt _ aligned
  have sizeEq : count * size % 2 ^ width = count * size := Nat.mod_eq_of_lt (by omega)
  have idxEq : (alloc.index + (alignment - alloc.index % alignment) % alignment) % 2 ^ width =
      alloc.index + (alignment - alloc.index % alignment) % alignment :=
    Nat.mod_eq_of_lt (by omega)
  have endEq : (alloc.index + (alignment - alloc.index % alignment) % alignment +
      count * size) % 2 ^ width =
      alloc.index + (alignment - alloc.index % alignment) % alignment + count * size :=
    Nat.mod_eq_of_lt (by omega)
  refine ⟨⟨alloc.index + (alignment - alloc.index % alignment) % alignment + count * size,
    alloc.len⟩, ?_, rfl, ?_⟩
  · simp only [gglAllocn, bumpAllocAlloc, sizeEq, idxEq, endEq]
    rw [if_neg (by omega)]
  · change alloc.index + (alignment - alloc.index % alignment) % alignment + count * size ≤ _
    omega

/-! ## Writing bytes one after the other -/

/-- Bytes written to the next piece of a bump allocator over a buffer of `mem` bytes,
behind those written before. -/
def bumpWrite (mem : Nat) (written bytes : Buffer) : Except GglError Buffer :=
  match gglAllocn 64 ⟨written.length, mem⟩ 1 1 bytes.length with
  | none => .error .nomem
  | some _ => .ok (written ++ bytes)

theorem bumpWrite_eq_ok {mem : Nat} {written bytes after : Buffer}
    (wrote : bumpWrite mem written bytes = .ok after) : after = written ++ bytes := by
  rw [bumpWrite] at wrote
  split at wrote
  · cases wrote
  · cases wrote
    rfl

/-- Bytes need no padding, so what fits is written. -/
theorem bumpWrite_of_fits {mem : Nat} {written bytes : Buffer} (wide : mem < 2 ^ 64)
    (fits : (written ++ bytes).length ≤ mem) :
    bumpWrite mem written bytes = .ok (written ++ bytes) := by
  rw [List.length_append] at fits
  have taken : gglAllocn 64 ⟨written.length, mem⟩ 1 1 bytes.length =
      some ⟨written.length + bytes.length, mem⟩ := by
    have size : bytes.length * 1 % 2 ^ 64 = bytes.length := by omega
    have start : (written.length + (1 - written.length % 1) % 1) % 2 ^ 64 = written.length := by
      omega
    have total : (written.length + bytes.length) % 2 ^ 64 = written.length + bytes.length := by
      omega
    simp only [gglAllocn, bumpAllocAlloc, size, start, total]
    rw [if_neg (by omega)]
  rw [bumpWrite, taken]

/-! ## Blocks -/

/-- Units of a type with a size and an alignment. -/
structure AllocRequest where
  size : Nat
  alignment : Nat
  count : Nat

section Blocks

variable (width : Nat) (alloc : BumpAlloc) (request : AllocRequest)

/-- The next aligned index. -/
def BumpAlloc.aligned : Nat :=
  alloc.index + (request.alignment - alloc.index % request.alignment) % request.alignment

/-- Where the units of a request end from there on. -/
def BumpAlloc.trueEnd : Nat :=
  alloc.aligned request + request.count * request.size

/-- The units do not fit, but the remainder of their end as a `size_t` does. -/
def BumpAlloc.Wraps : Prop :=
  alloc.len < alloc.trueEnd request ∧ alloc.trueEnd request % 2 ^ width ≤ alloc.len

def BumpAlloc.serve : Option BumpAlloc :=
  gglAllocn width alloc request.size request.alignment request.count

theorem BumpAlloc.serve_eq : alloc.serve width request =
    if alloc.trueEnd request % 2 ^ width > alloc.len then none
    else some { alloc with index := alloc.trueEnd request % 2 ^ width } := by
  rw [trueEnd, Nat.add_mod]
  rfl

/-- An allocator with the blocks it has handed out, each with its start and length. -/
structure Heap where
  alloc : BumpAlloc
  blocks : List (Nat × Nat)

def Heap.step (heap : Heap) : Heap :=
  match heap.alloc.serve width request with
  | none => heap
  | some taken => ⟨taken, (heap.alloc.aligned request % 2 ^ width,
      request.count * request.size) :: heap.blocks⟩

/-- The heap after requests to an allocator over `len` bytes. -/
def heapAfter (len : Nat) (requests : List AllocRequest) : Heap :=
  requests.foldl (fun heap request => heap.step width request) ⟨gglBumpAllocInit len, []⟩

/-- A block lies inside the buffer and apart from those before it, and units that do not fit get
no block. -/
def Heap.Serves (heap : Heap) : Prop :=
  (heap.alloc.len < heap.alloc.trueEnd request → heap.alloc.serve width request = none) ∧
  ∀ taken, heap.alloc.serve width request = some taken →
    let start := heap.alloc.aligned request % 2 ^ width
    start + request.count * request.size ≤ heap.alloc.len ∧
      ∀ block ∈ heap.blocks,
        block.1 + block.2 ≤ start ∨ start + request.count * request.size ≤ block.1

/-- The blocks are those up to the index. -/
structure Heap.Packed (heap : Heap) (len : Nat) : Prop where
  len_eq : heap.alloc.len = len
  index_le : heap.alloc.index ≤ len
  below : ∀ block ∈ heap.blocks, block.1 + block.2 ≤ heap.alloc.index

variable {width alloc request} {heap : Heap} {len : Nat}

section

variable (packed : heap.Packed len) (wide : len < 2 ^ width)
  (unwrapped : ¬heap.alloc.Wraps width request)

include packed wide unwrapped

/-- Without wrapping, a block is taken from the index on. -/
theorem Heap.Packed.serve_eq_some {taken : BumpAlloc}
    (served : heap.alloc.serve width request = some taken) :
    heap.alloc.trueEnd request ≤ len ∧ heap.alloc.aligned request % 2 ^ width =
      heap.alloc.aligned request ∧ taken = ⟨heap.alloc.trueEnd request, len⟩ := by
  rw [BumpAlloc.serve_eq, packed.len_eq] at served
  rw [BumpAlloc.Wraps, packed.len_eq] at unwrapped
  split at served
  · cases served
  · have fits : heap.alloc.trueEnd request ≤ len := by omega
    have start : heap.alloc.aligned request ≤ heap.alloc.trueEnd request := Nat.le_add_right _ _
    rw [Nat.mod_eq_of_lt (by omega)] at served
    exact ⟨fits, Nat.mod_eq_of_lt (by omega), (Option.some.inj served).symm⟩

theorem Heap.Packed.step : (heap.step width request).Packed len := by
  unfold Heap.step
  cases served : heap.alloc.serve width request with
  | none => exact packed
  | some taken =>
    obtain ⟨fits, start, rfl⟩ := packed.serve_eq_some wide unwrapped served
    refine ⟨rfl, fits, List.forall_mem_cons.mpr ⟨Nat.le_of_eq (by rw [start]; rfl), ?_⟩⟩
    intro block listed
    have first : heap.alloc.index ≤ heap.alloc.trueEnd request :=
      Nat.le_trans (Nat.le_add_right _ _) (Nat.le_add_right _ _)
    exact Nat.le_trans (packed.below block listed) first

theorem Heap.Packed.serves : heap.Serves width request := by
  constructor
  · intro beyond
    rw [BumpAlloc.serve_eq]
    exact if_pos (Nat.lt_of_not_le fun wraps => unwrapped ⟨beyond, wraps⟩)
  · intro taken served
    obtain ⟨fits, start, -⟩ := packed.serve_eq_some wide unwrapped served
    rw [start, packed.len_eq]
    exact ⟨fits, fun block listed =>
      .inl (Nat.le_trans (packed.below block listed) (Nat.le_add_right _ _))⟩

end

/-- All requests of a sequence are served right exactly if none of them wraps. -/
theorem requests_served_iff (width : Nat) (len : Fin (2 ^ width)) (requests : List AllocRequest) :
    (∀ before request, before ++ [request] <+: requests →
      (heapAfter width len before).Serves width request) ↔
    ∀ before request, before ++ [request] <+: requests →
      ¬(heapAfter width len before).alloc.Wraps width request := by
  constructor
  · rintro served before request begins ⟨beyond, wraps⟩
    have refused := (served before request begins).1 beyond
    rw [BumpAlloc.serve_eq, if_neg (Nat.not_lt.mpr wraps)] at refused
    cases refused
  · intro unwrapped before request begins
    have packed : ∀ before, before <+: requests → (heapAfter width len before).Packed len := by
      intro before begins
      induction before using List.reverseRecOn with
      | nil => exact ⟨rfl, Nat.zero_le _, by simp [heapAfter]⟩
      | append_singleton before request ih =>
        rw [heapAfter, List.foldl_append]
        exact (ih ((List.prefix_append _ _).trans begins)).step len.isLt
          (unwrapped before request begins)
    exact (packed before ((List.prefix_append _ _).trans begins)).serves len.isLt
      (unwrapped before request begins)

/-- Where a `size_t` has 32 bits and an object 16 bytes, a list of 2 ^ 28 objects gets a block
without a byte. -/
theorem huge_list_served : gglAllocn 32 (gglBumpAllocInit 100) 16 8 (2 ^ 28) =
    some (gglBumpAllocInit 100) ∧
    ¬(heapAfter 32 100 []).Serves 32 ⟨16, 8, 2 ^ 28⟩ :=
  ⟨by decide, fun served => absurd (served.1 (by decide)) (by decide)⟩

end Blocks

end GreengrassLite

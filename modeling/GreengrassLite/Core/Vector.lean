import GreengrassLite.Core.Object

/-!
# Bounded vectors

The vectors of `ggl-lib/src/vector.c` are arrays of a fixed capacity together
with a length.  `Vec` carries the bound as a field, so the subtractions of the
source never wrap and an overlong vector cannot be built.

Push and append fail with `GGL_ERR_NOMEM` at the capacity and leave the vector
as it was; several callers ignore that error, which `Vec.keep` models.
-/

namespace GreengrassLite

open List

universe u

/-- A vector holding at most `capacity` items. -/
structure Vec (α : Type u) (capacity : Nat) where
  items : List α
  bounded : items.length ≤ capacity
  deriving Repr

namespace Vec

variable {α : Type u} {capacity : Nat}

@[ext]
theorem ext {first second : Vec α capacity} (items : first.items = second.items) :
    first = second := by
  cases first
  cases second
  simpa using items

/-- The vector the `GGL_*_VEC` macros build over fresh storage. -/
def empty (α : Type u) (capacity : Nat) : Vec α capacity :=
  ⟨[], Nat.zero_le _⟩

@[simp]
theorem empty_items : (empty α capacity).items = [] :=
  rfl

variable (vector : Vec α capacity)

/-- Add one item at the end, or fail at the capacity. -/
def push (item : α) : Except GglError (Vec α capacity) :=
  if room : vector.items.length < capacity then
    .ok ⟨vector.items ++ [item], by
      rw [length_append]
      exact room⟩
  else
    .error .nomem

/-- Remove the last item, or fail on an empty vector. -/
def pop : Except GglError (Vec α capacity) :=
  if vector.items.length = 0 then
    .error .range
  else
    .ok ⟨vector.items.dropLast, by
      have := vector.bounded
      rw [length_dropLast]
      omega⟩

/-- Add a list of items at the end, or fail if they do not all fit. -/
def append (list : List α) : Except GglError (Vec α capacity) :=
  if room : capacity - vector.items.length < list.length then
    .error .nomem
  else
    .ok ⟨vector.items ++ list, by
      have := vector.bounded
      rw [length_append]
      omega⟩

/-- The vector left behind by a caller that ignores the returned error. -/
def keep : Except GglError (Vec α capacity) → Vec α capacity
  | .ok updated => updated
  | .error _ => vector

@[simp]
theorem push_of_lt {vector : Vec α capacity} (item : α)
    (room : vector.items.length < capacity) :
    vector.push item = .ok ⟨vector.items ++ [item], by
      rw [length_append]
      exact room⟩ := by
  rw [push, dif_pos room]

@[simp]
theorem push_of_full {vector : Vec α capacity} (item : α)
    (full : ¬vector.items.length < capacity) : vector.push item = .error .nomem := by
  rw [push, dif_neg full]

theorem items_of_push_eq_ok {vector pushed : Vec α capacity} {item : α}
    (ok : vector.push item = .ok pushed) : pushed.items = vector.items ++ [item] := by
  by_cases room : vector.items.length < capacity
  · rw [push_of_lt item room] at ok
    cases ok
    rfl
  · rw [push_of_full item room] at ok
    cases ok

/-- A push whose error is ignored adds the item exactly when there is room. -/
@[simp]
theorem keep_push_items (vector : Vec α capacity) (item : α) :
    (vector.keep (vector.push item)).items =
      if vector.items.length < capacity then vector.items ++ [item] else vector.items := by
  by_cases room : vector.items.length < capacity
  · rw [push_of_lt item room, if_pos room]
    rfl
  · rw [push_of_full item room, if_neg room]
    rfl

/-- A pop whose error is ignored drops the last item, and an empty vector
stays empty. -/
@[simp]
theorem keep_pop_items (vector : Vec α capacity) :
    (vector.keep vector.pop).items = vector.items.dropLast := by
  by_cases isEmpty : vector.items.length = 0
  · rw [pop, if_pos isEmpty, eq_nil_of_length_eq_zero isEmpty]
    exact eq_nil_of_length_eq_zero isEmpty
  · rw [pop, if_neg isEmpty]
    rfl

/-- Appending succeeds exactly when the result respects the capacity, and then
yields the concatenation. -/
@[simp]
theorem append_eq_ok_iff (vector result : Vec α capacity) (list : List α) :
    vector.append list = .ok result ↔ result.items = vector.items ++ list := by
  have resultBound := result.bounded
  by_cases room : capacity - vector.items.length < list.length
  · simp only [append, dif_pos room, reduceCtorEq, false_iff]
    intro equal
    rw [equal, length_append] at resultBound
    omega
  · simp only [append, dif_neg room, Except.ok.injEq]
    constructor
    · intro equal
      rw [← equal]
    · intro equal
      exact ext equal.symm

end Vec

/-- `ggl_obj_vec_push`. -/
def gglObjVecPush {α : Type u} {capacity : Nat} (vector : Vec α capacity) (object : α) :
    Except GglError (Vec α capacity) :=
  vector.push object

/-- `ggl_obj_vec_pop`, called with a null output. -/
def gglObjVecPop {α : Type u} {capacity : Nat} (vector : Vec α capacity) :
    Except GglError (Vec α capacity) :=
  vector.pop

/-- `ggl_obj_vec_append`. -/
def gglObjVecAppend {α : Type u} {capacity : Nat} (vector : Vec α capacity) (list : List α) :
    Except GglError (Vec α capacity) :=
  vector.append list

/-- `ggl_kv_vec_push`. -/
def gglKvVecPush {α : Type u} {capacity : Nat} (vector : Vec α capacity) (kv : α) :
    Except GglError (Vec α capacity) :=
  vector.push kv

/-- `ggl_buf_vec_push`. -/
def gglBufVecPush {capacity : Nat} (vector : Vec Buffer capacity) (buf : Buffer) :
    Except GglError (Vec Buffer capacity) :=
  vector.push buf

/-- `ggl_buf_vec_append_list`: every item must be a buffer, and the items before
a failing one stay pushed in the source, which no caller observes. -/
def gglBufVecAppendList {capacity : Nat} (vector : Vec Buffer capacity) :
    List GglObject → Except GglError (Vec Buffer capacity)
  | [] => .ok vector
  | .buf bytes :: rest =>
    match gglBufVecPush vector bytes with
    | .ok vector => gglBufVecAppendList vector rest
    | .error error => .error error
  | _ :: _ => .error .invalid

/-- Appending succeeds exactly when the items are buffers that all fit. -/
@[simp]
theorem gglBufVecAppendList_eq_ok_iff {capacity : Nat} (vector result : Vec Buffer capacity)
    (list : List GglObject) :
    gglBufVecAppendList vector list = .ok result ↔
      ∃ keys : List Buffer, list = keys.map .buf ∧ result.items = vector.items ++ keys := by
  fun_induction gglBufVecAppendList vector list with
  | case1 vector =>
    constructor
    · rintro ⟨⟩
      exact ⟨[], rfl, (append_nil _).symm⟩
    · rintro ⟨keys, isNil, items⟩
      rw [eq_nil_of_map_eq_nil isNil.symm, append_nil] at items
      rw [Vec.ext items]
  | case2 vector bytes rest pushed push ih =>
    rw [ih, Vec.items_of_push_eq_ok push]
    constructor
    · rintro ⟨keys, rfl, items⟩
      exact ⟨bytes :: keys, rfl, by rw [items, append_assoc, singleton_append]⟩
    · rintro ⟨_ | ⟨key, keys⟩, list, items⟩
      · cases list
      · cases list
        exact ⟨keys, rfl, by rw [items, append_assoc, singleton_append]⟩
  | case3 vector bytes rest error push =>
    have full : ¬vector.items.length < capacity := fun room => by
      rw [gglBufVecPush, Vec.push_of_lt bytes room] at push
      cases push
    simp only [reduceCtorEq, false_iff]
    rintro ⟨keys, list, items⟩
    have bound := result.bounded
    have length := congrArg length list
    rw [items, length_append] at bound
    rw [length_cons, length_map] at length
    omega
  | case4 vector item rest notBuffer =>
    simp only [reduceCtorEq, false_iff]
    rintro ⟨_ | ⟨key, keys⟩, list, -⟩
    · cases list
    · cases list
      exact notBuffer _ rfl

/-- `ggl_byte_vec_push`. -/
def gglByteVecPush {capacity : Nat} (vector : Vec UInt8 capacity) (byte : UInt8) :
    Except GglError (Vec UInt8 capacity) :=
  vector.push byte

/-- `ggl_byte_vec_append`. -/
def gglByteVecAppend {capacity : Nat} (vector : Vec UInt8 capacity) (buf : Buffer) :
    Except GglError (Vec UInt8 capacity) :=
  vector.append buf

/-- A chain of `ggl_byte_vec_chain_append`: after an error nothing is appended, and the vector
keeps what was appended before. -/
def gglByteVecChain {capacity : Nat} (vector : Vec UInt8 capacity) :
    List Buffer → Except GglError Unit × Vec UInt8 capacity
  | [] => (.ok (), vector)
  | buf :: bufs =>
    match gglByteVecAppend vector buf with
    | .error error => (.error error, vector)
    | .ok appended => gglByteVecChain appended bufs

/-- A chain appends everything, or all before the first buffer that does not fit. -/
theorem gglByteVecChain_cases {capacity : Nat} (vector : Vec UInt8 capacity)
    (bufs : List Buffer) :
    ((gglByteVecChain vector bufs).1 = .ok () ∧
        (gglByteVecChain vector bufs).2.items = vector.items ++ bufs.flatten) ∨
      ∃ done buf rest, bufs = done ++ buf :: rest ∧
        (gglByteVecChain vector bufs).1 = .error .nomem ∧
        (gglByteVecChain vector bufs).2.items = vector.items ++ done.flatten ∧
        capacity < (vector.items ++ done.flatten ++ buf).length := by
  induction bufs generalizing vector with
  | nil => exact .inl ⟨rfl, (append_nil vector.items).symm⟩
  | cons buf bufs ih =>
    rw [gglByteVecChain]
    cases appended : gglByteVecAppend vector buf with
    | error error =>
      rw [gglByteVecAppend, Vec.append] at appended
      split at appended
      next full =>
        cases appended
        refine .inr ⟨[], buf, bufs, rfl, rfl, (append_nil vector.items).symm, ?_⟩
        simp only [flatten_nil, append_nil, length_append]
        omega
      next => cases appended
    | ok result =>
      have items := (Vec.append_eq_ok_iff vector result buf).mp appended
      rcases ih result with ⟨ok, all⟩ | ⟨done, failed, rest, rfl, error, kept, full⟩
      · left
        rw [all, items, append_assoc]
        exact ⟨ok, rfl⟩
      · right
        rw [items, append_assoc vector.items] at kept full
        exact ⟨buf :: done, failed, rest, rfl, error, kept, full⟩

theorem gglByteVecChain_eq_ok {capacity : Nat} {vector result : Vec UInt8 capacity}
    {bufs : List Buffer} (appended : gglByteVecChain vector bufs = (.ok (), result)) :
    result.items = vector.items ++ bufs.flatten := by
  rcases gglByteVecChain_cases vector bufs with ⟨-, all⟩ | ⟨_, _, _, -, failed, -⟩
  · rwa [appended] at all
  · rw [appended] at failed
    cases failed

end GreengrassLite

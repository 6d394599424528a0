import Mathlib.Data.List.Basic
import Mathlib.Data.Nat.ModEq

/-!
# Circular buffers

A ring keeps the entries of a queue in a fixed number of slots, from a start slot on and
around the end of the array.  The slots outside keep whatever they held.  Its contents
are the entries in order, and each operation on the slots is one on that list.
-/

namespace GreengrassLite.Library

open List

universe u

/-- `count` entries in `capacity` slots, the first in the slot `start`. -/
structure Ring (α : Type u) (capacity : Nat) where
  slots : Fin capacity → α
  start : Fin capacity
  count : Nat
  bounded : count ≤ capacity

namespace Ring

variable {α : Type u} {capacity : Nat} (ring : Ring α capacity)

/-- The slot `i` places behind another, around the end of the array. -/
def offset (slot : Fin capacity) (i : Nat) : Fin capacity :=
  ⟨(slot + i) % capacity, Nat.mod_lt _ slot.pos⟩

/-- The slot of the entry at position `i`. -/
def position (i : Nat) : Fin capacity :=
  offset ring.start i

def contents : List α :=
  (range ring.count).map fun i => ring.slots (ring.position i)

/-- One more entry is counted, in whatever state its slot is. -/
def extend (room : ring.count < capacity) : Ring α capacity :=
  { ring with count := ring.count + 1, bounded := room }

def setSlot (slot : Fin capacity) (value : α) : Ring α capacity :=
  { ring with slots := Function.update ring.slots slot value }

/-- The first entry is no longer counted. -/
def advance : Ring α capacity :=
  { ring with
    start := ring.position 1
    count := ring.count - 1
    bounded := Nat.le_trans (Nat.sub_le _ _) ring.bounded }

@[simp]
theorem position_zero : ring.position 0 = ring.start :=
  Fin.ext (Nat.mod_eq_of_lt ring.start.isLt)

theorem position_injective {i j : Nat} (first : i < capacity) (second : j < capacity)
    (same : ring.position i = ring.position j) : i = j := by
  have congruent : i % capacity = j % capacity :=
    Nat.ModEq.add_left_cancel' (ring.start : Nat) (congrArg Fin.val same)
  rwa [Nat.mod_eq_of_lt first, Nat.mod_eq_of_lt second] at congruent

@[simp]
theorem length_contents : ring.contents.length = ring.count := by
  rw [contents, length_map, length_range]

@[simp]
theorem getElem?_contents {i : Nat} (counted : i < ring.count) :
    ring.contents[i]? = some (ring.slots (ring.position i)) := by
  rw [contents, getElem?_map, getElem?_range counted]
  rfl

/-- A slot is written: one entry of the contents changes. -/
@[simp]
theorem contents_setSlot {i : Nat} (counted : i < ring.count) (value : α) :
    (ring.setSlot (ring.position i) value).contents = ring.contents.set i value := by
  apply ext_getElem?
  intro j
  by_cases inside : j < ring.count
  · have read : (ring.setSlot (ring.position i) value).contents[j]? =
        some (Function.update ring.slots (ring.position i) value (ring.position j)) :=
      getElem?_contents (ring.setSlot (ring.position i) value) inside
    by_cases same : i = j
    · subst same
      rw [read, Function.update_self, getElem?_set_self]
      exact counted.trans_eq ring.length_contents.symm
    · have apart : ring.position j ≠ ring.position i := fun equal =>
        same (ring.position_injective (counted.trans_le ring.bounded)
          (inside.trans_le ring.bounded) equal.symm)
      rw [read, Function.update_of_ne apart, getElem?_set_ne same,
        ring.getElem?_contents inside]
  · rw [getElem?_eq_none, getElem?_eq_none]
    · rw [length_set, length_contents]
      exact Nat.le_of_not_lt inside
    · exact (length_contents _).trans_le (Nat.le_of_not_lt inside)

/-- The slot behind the entries is written and counted. -/
@[simp]
theorem contents_extend_setSlot (room : ring.count < capacity) (value : α) :
    ((ring.extend room).setSlot (ring.position ring.count) value).contents =
      ring.contents ++ [value] := by
  have written := (ring.extend room).contents_setSlot (Nat.lt_succ_self ring.count) value
  have grown : (ring.extend room).contents =
      ring.contents ++ [ring.slots (ring.position ring.count)] := by
    change (range (ring.count + 1)).map _ = _
    rw [range_succ, map_append]
    rfl
  refine written.trans ?_
  rw [grown, set_append_right _ _ (ring.length_contents.le), length_contents, Nat.sub_self]
  rfl

@[simp]
theorem contents_advance : ring.advance.contents = ring.contents.tail := by
  apply ext_getElem?
  intro i
  rw [getElem?_tail]
  by_cases inside : i + 1 < ring.count
  · have moved : ring.advance.position i = ring.position (i + 1) := by
      apply Fin.ext
      change ((ring.start + 1) % capacity + i) % capacity = (ring.start + (i + 1)) % capacity
      rw [Nat.mod_add_mod, Nat.add_assoc, Nat.add_comm 1 i]
    rw [getElem?_contents _ (Nat.lt_sub_of_add_lt inside), getElem?_contents _ inside, moved]
    rfl
  · rw [getElem?_eq_none, getElem?_eq_none]
    · rw [length_contents]
      exact Nat.le_of_not_lt inside
    · rw [length_contents]
      exact Nat.sub_le_of_le_add (Nat.le_of_not_lt inside)

end Ring

end GreengrassLite.Library

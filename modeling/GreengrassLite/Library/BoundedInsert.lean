import Mathlib.Data.List.Dedup
import Mathlib.Data.List.Perm.Subperm

/-!
# Sets in bounded arrays

A set kept as an array of a fixed capacity: an element that is there is not
added again, and one that finds the array full is dropped without notice.  The
array ends up with all of the elements when there are no more distinct ones
than it has room for.
-/

namespace GreengrassLite.Library

open List

universe u

variable {α : Type u} [DecidableEq α] {capacity : Nat}

/-- Insert an element unless it is there or the array is full. -/
def insertWithin (capacity : Nat) (items : List α) (item : α) : List α :=
  if item ∈ items then items
  else if items.length < capacity then items ++ [item]
  else items

/-- Insert several elements, one after the other. -/
def insertAllWithin (capacity : Nat) (items added : List α) : List α :=
  added.foldl (insertWithin capacity) items

@[simp]
theorem insertAllWithin_nil (items : List α) : insertAllWithin capacity items [] = items :=
  rfl

variable {items within : List α} {item : α}

@[simp]
theorem insertWithin_of_mem (member : item ∈ items) : insertWithin capacity items item = items :=
  if_pos member

@[simp]
theorem insertWithin_of_notMem (fresh : item ∉ items) :
    insertWithin capacity items item =
      if items.length < capacity then items ++ [item] else items :=
  if_neg fresh

theorem prefix_insertWithin (items : List α) (item : α) :
    items <+: insertWithin capacity items item := by
  by_cases member : item ∈ items
  · exact ⟨[], by rw [append_nil, insertWithin_of_mem member]⟩
  · rw [insertWithin_of_notMem member]
    split
    · exact prefix_append _ _
    · exact prefix_rfl

theorem nodup_insertWithin (distinct : items.Nodup) (item : α) :
    (insertWithin capacity items item).Nodup := by
  by_cases member : item ∈ items
  · rwa [insertWithin_of_mem member]
  · rw [insertWithin_of_notMem member]
    split
    · rw [← concat_eq_append]
      exact distinct.concat member
    · exact distinct

/-- An insertion into distinct elements of a small enough set succeeds. -/
theorem mem_insertWithin (distinct : items.Nodup) (small : within.dedup.length ≤ capacity)
    (isWithin : items ⊆ within) (member : item ∈ within) :
    item ∈ insertWithin capacity items item := by
  by_cases present : item ∈ items
  · rwa [insertWithin_of_mem present]
  · have sub : item :: items ⊆ within.dedup := by
      intro other isOther
      rw [mem_dedup]
      rcases mem_cons.mp isOther with rfl | old
      · exact member
      · exact isWithin old
    have room : (item :: items).length ≤ within.dedup.length :=
      (subperm_of_subset (nodup_cons.mpr ⟨present, distinct⟩) sub).length_le
    rw [insertWithin_of_notMem present, if_pos (Nat.lt_of_lt_of_le room small)]
    simp

theorem insertWithin_subset (isWithin : items ⊆ within) (member : item ∈ within) :
    insertWithin capacity items item ⊆ within := by
  by_cases present : item ∈ items
  · rwa [insertWithin_of_mem present]
  · rw [insertWithin_of_notMem present]
    split
    · exact append_subset.mpr ⟨isWithin, cons_subset.mpr ⟨member, nil_subset _⟩⟩
    · exact isWithin

theorem prefix_insertAllWithin (items added : List α) :
    items <+: insertAllWithin capacity items added := by
  induction added generalizing items with
  | nil => exact prefix_rfl
  | cons item added ih =>
    exact (prefix_insertWithin items item).trans (ih _)

theorem nodup_insertAllWithin (distinct : items.Nodup) (added : List α) :
    (insertAllWithin capacity items added).Nodup := by
  induction added generalizing items with
  | nil => exact distinct
  | cons item added ih =>
    exact ih (nodup_insertWithin distinct item)

/-- Nothing is dropped if the distinct elements fit. -/
theorem subset_insertAllWithin {added : List α} (distinct : items.Nodup)
    (small : within.dedup.length ≤ capacity) (isWithin : items ⊆ within)
    (addedWithin : added ⊆ within) : added ⊆ insertAllWithin capacity items added := by
  induction added generalizing items with
  | nil => exact nil_subset _
  | cons item added ih =>
    rw [cons_subset] at addedWithin
    rw [cons_subset]
    constructor
    · exact (prefix_insertAllWithin _ added).subset
        (mem_insertWithin distinct small isWithin addedWithin.1)
    · exact ih (nodup_insertWithin distinct item)
        (insertWithin_subset isWithin addedWithin.1) addedWithin.2

end GreengrassLite.Library

import Mathlib.Data.List.Basic

/-!
# Regions of a buffer

A buffer is the list of its cells.  Copying writes a run of cells over others and
leaves the length as it is.  A buffer is taken apart where a region starts and
ends, so a write is described by the three parts it leaves.
-/

namespace GreengrassLite.Library

open List

universe u

variable {α : Type u}

/-- The `length` cells from `offset`. -/
def region (cells : List α) (offset length : Nat) : List α :=
  (cells.drop offset).take length

/-- `written` stands at `offset`; the other cells stay. -/
def overwrite (cells : List α) (offset : Nat) (written : List α) : List α :=
  cells.take offset ++ written ++ cells.drop (offset + written.length)

/-- The cells of a region, as they were, are copied to `target`. -/
def memmove (cells : List α) (target source length : Nat) : List α :=
  overwrite cells target (region cells source length)

def memset (cells : List α) (target : Nat) (value : α) (length : Nat) : List α :=
  overwrite cells target (replicate length value)

variable {offset : Nat}

theorem region_append {length : Nat} (before middle after : List α)
    (start : before.length = offset) (size : middle.length = length) :
    region (before ++ (middle ++ after)) offset length = middle := by
  rw [region, drop_left' start, take_left' size]

theorem overwrite_append (before middle after written : List α) (start : before.length = offset)
    (size : written.length = middle.length) :
    overwrite (before ++ (middle ++ after)) offset written = before ++ (written ++ after) := by
  have stop : (before ++ middle).length = offset + written.length := by
    rw [length_append, start, size]
  have behind : (before ++ (middle ++ after)).drop (offset + written.length) = after := by
    rw [← append_assoc, drop_left' stop]
  rw [overwrite, take_left' start, behind, append_assoc]

@[simp]
theorem length_overwrite {cells written : List α} (fits : offset + written.length ≤ cells.length) :
    (overwrite cells offset written).length = cells.length := by
  simp only [overwrite, length_append, length_take, length_drop]
  omega

/-- Writing behind some cells leaves them in front. -/
@[simp]
theorem overwrite_behind (before after written : List α) (behind : before.length ≤ offset) :
    overwrite (before ++ after) offset written =
      before ++ overwrite after (offset - before.length) written := by
  have past : before.length ≤ offset + written.length := Nat.le_add_right_of_le behind
  simp only [overwrite, append_assoc]
  rw [take_append, drop_append, take_of_length_le behind,
    drop_of_length_le past, nil_append, append_assoc,
    Nat.sub_add_comm behind]

/-- The cells behind a gap are moved over it, and as many cells are set at the end. -/
@[simp]
theorem memset_memmove (before gap after : List α) (value : α) :
    memset (memmove (before ++ (gap ++ after)) before.length (before.length + gap.length)
      after.length) (before.length + after.length) value gap.length =
      before ++ (after ++ replicate gap.length value) := by
  have source : region (before ++ (gap ++ after)) (before.length + gap.length) after.length =
      after := by
    have front : (before ++ gap).length = before.length + gap.length := length_append
    have whole := region_append (before ++ gap) after [] front rfl
    rwa [append_nil, append_assoc] at whole
  -- What the move leaves at the end is as long as the gap.
  have moved : ∃ left : List α, left.length = gap.length ∧
      memmove (before ++ (gap ++ after)) before.length (before.length + gap.length)
        after.length = before ++ after ++ left := by
    rw [memmove, source, overwrite, take_left' rfl]
    refine ⟨_, ?_, rfl⟩
    simp only [length_drop, length_append]
    omega
  rcases moved with ⟨left, length, moved⟩
  have cleared := overwrite_append (before ++ after) left [] (replicate gap.length value)
    length_append (length_replicate.trans length.symm)
  rw [append_nil, append_nil] at cleared
  rw [moved, memset, cleared, append_assoc]

end GreengrassLite.Library

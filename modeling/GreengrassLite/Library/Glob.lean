import Mathlib.Data.List.Infix
import Mathlib.Data.Set.Basic

/-!
# Globs

A glob is a sequence of letters and stars; a star stands for any word.  The
words of a glob can be decided segment by segment: taking the leftmost occurrence
of each segment between two stars never loses a word, because what a star may
skip can always be made longer.
-/

namespace GreengrassLite.Library

open List

universe u

variable {α : Type u}

/-- A letter, or a star for any word. -/
inductive GlobToken (α : Type u) where
  | star
  | letter (value : α)
  deriving DecidableEq, Repr

/-- The words of a glob. -/
def globWords : List (GlobToken α) → Set (List α)
  | [] => {word | word = []}
  | .letter value :: rest => {word | ∃ tail ∈ globWords rest, word = value :: tail}
  | .star :: rest => {word | ∃ tail ∈ globWords rest, tail <:+ word}

/-- The letters of a segment. -/
def globLetters (segment : List α) : List (GlobToken α) :=
  segment.map .letter

section Words

variable {rest : List (GlobToken α)} {segment word tail : List α}

@[simp]
theorem mem_globWords_letters : word ∈ globWords (globLetters segment ++ rest) ↔
    ∃ tail ∈ globWords rest, word = segment ++ tail := by
  induction segment generalizing word with
  | nil => simp [globLetters]
  | cons value segment ih =>
    constructor
    · rintro ⟨tail, member, rfl⟩
      rcases ih.mp member with ⟨last, lastMember, rfl⟩
      exact ⟨last, lastMember, rfl⟩
    · rintro ⟨tail, member, rfl⟩
      exact ⟨segment ++ tail, ih.mpr ⟨tail, member, rfl⟩, rfl⟩

/-- Without a star a glob has one word. -/
@[simp]
theorem mem_globWords_segment : word ∈ globWords (globLetters segment) ↔ word = segment := by
  rw [← append_nil (globLetters segment), mem_globWords_letters]
  constructor
  · rintro ⟨tail, rfl, rfl⟩
    exact append_nil segment
  · rintro rfl
    exact ⟨[], rfl, (append_nil word).symm⟩

/-- The first segment is a beginning of the word. -/
@[simp]
theorem mem_globWords_first : word ∈ globWords (globLetters segment ++ .star :: rest) ↔
    segment <+: word ∧ word.drop segment.length ∈ globWords (.star :: rest) := by
  rw [mem_globWords_letters]
  constructor
  · rintro ⟨tail, member, rfl⟩
    rw [drop_left]
    exact ⟨prefix_append .., member⟩
  · rintro ⟨⟨tail, rfl⟩, member⟩
    rw [drop_left] at member
    exact ⟨tail, member, rfl⟩

/-- The last segment is an end of the word. -/
@[simp]
theorem mem_globWords_last : word ∈ globWords (.star :: globLetters segment) ↔
    segment <:+ word := by
  constructor
  · rintro ⟨tail, member, ends⟩
    rwa [mem_globWords_segment.mp member] at ends
  · intro ends
    exact ⟨segment, mem_globWords_segment.mpr rfl, ends⟩

end Words

section Occurrences

variable [DecidableEq α] {rest : List (GlobToken α)} {segment word : List α} {index : Nat}

/-- Where a segment first occurs in a word. -/
def firstOccurrence (segment : List α) : List α → Option Nat
  | [] => if segment = [] then some 0 else none
  | value :: word =>
    if segment <+: value :: word then some 0
    else (firstOccurrence segment word).map (· + 1)

theorem prefix_of_firstOccurrence (found : firstOccurrence segment word = some index) :
    segment <+: word.drop index := by
  induction word generalizing index with
  | nil =>
    rw [firstOccurrence] at found
    split at found
    next empty =>
      rw [empty]
      exact nil_prefix
    · cases found
  | cons value word ih =>
    rw [firstOccurrence] at found
    split at found
    next starts =>
      cases found
      exact starts
    · rcases Option.map_eq_some_iff.mp found with ⟨later, foundLater, rfl⟩
      exact ih foundLater

/-- No occurrence lies before the first. -/
theorem exists_firstOccurrence (occurs : segment <+: word.drop index) :
    ∃ first ≤ index, firstOccurrence segment word = some first := by
  induction word generalizing index with
  | nil =>
    rw [drop_nil, prefix_nil] at occurs
    exact ⟨0, Nat.zero_le _, by simp [firstOccurrence, occurs]⟩
  | cons value word ih =>
    by_cases starts : segment <+: value :: word
    · exact ⟨0, Nat.zero_le _, by simp [firstOccurrence, starts]⟩
    · cases index with
      | zero => exact absurd occurs starts
      | succ index =>
        rcases ih occurs with ⟨first, before, found⟩
        exact ⟨first + 1, Nat.succ_le_succ before, by simp [firstOccurrence, starts, found]⟩

/-- A segment between two stars may be taken at its first occurrence. -/
@[simp]
theorem mem_globWords_middle :
    word ∈ globWords (.star :: (globLetters segment ++ .star :: rest)) ↔
      ∃ index, firstOccurrence segment word = some index ∧
        word.drop (index + segment.length) ∈ globWords (.star :: rest) := by
  constructor
  · rintro ⟨tail, member, skipped, rfl⟩
    rcases mem_globWords_letters.mp member with ⟨last, lastMember, rfl⟩
    have occurs : segment <+: (skipped ++ (segment ++ last)).drop skipped.length := by
      rw [drop_left]
      exact prefix_append ..
    rcases exists_firstOccurrence occurs with ⟨first, before, found⟩
    refine ⟨first, found, ?_⟩
    rcases lastMember with ⟨word, ended, shorter⟩
    refine ⟨word, ended, shorter.trans ?_⟩
    -- the first occurrence leaves at least as much of the word as this one
    have later : skipped.length + segment.length
        = first + segment.length + (skipped.length - first) := by
      omega
    have left : last = ((skipped ++ (segment ++ last)).drop (first + segment.length)).drop
        (skipped.length - first) := by
      rw [drop_drop, ← later, ← drop_drop, drop_left, drop_left]
    have suffix := drop_suffix (skipped.length - first)
      ((skipped ++ (segment ++ last)).drop (first + segment.length))
    rwa [← left] at suffix
  · rintro ⟨index, found, member⟩
    refine ⟨word.drop index, ?_, drop_suffix index word⟩
    rw [mem_globWords_first]
    refine ⟨prefix_of_firstOccurrence found, ?_⟩
    rwa [drop_drop]

end Occurrences

end GreengrassLite.Library

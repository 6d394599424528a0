import Mathlib.Data.List.Pairwise
import GreengrassLite.Core.Object
import GreengrassLite.Library.PrefixMap

/-!
# The sequence numbers of fleet status updates

`publish_fleet_status_update` keeps the number of its updates in the configuration, always with
the timestamp zero.  It takes every failure to read the number for a number that is not there,
and begins again.
-/

namespace GreengrassLite.Fleet

open List Library.PrefixMap

/-- `fleetStatusSequenceNum` in the configuration, with its timestamp. -/
abbrev SequenceStore := Option (GglObject × Int)

/-- The errors of the calls of an update: of all up to the topic, and of the others in turn.  A
write may report an error though the value was stored. -/
structure UpdateErrors where
  prepare : Option GglError := none
  read : Option GglError := none
  write : Option (GglError × Bool) := none
  encode : Option GglError := none
  publish : Option GglError := none

/-- The number is an `int64_t`; the sum of the greatest one, which the source leaves open, wraps
here. -/
def nextSequence : Option GglError → SequenceStore → Int
  | none, some (.i64 sequence, _) => (sequence + 1).bmod 18446744073709551616
  | _, _ => 1

/-- `publish_fleet_status_update`, with the sequence number of the update. -/
def publishFleetStatusUpdate (errors : UpdateErrors) (store : SequenceStore) :
    Except GglError Int × SequenceStore :=
  match errors.prepare with
  | some error => (.error error, store)
  | none =>
    let sequence := nextSequence errors.read store
    let stored := overwrite (.i64 sequence) 0 store
    match errors.write with
    | some (error, reached) => (.error error, if reached then stored else store)
    | none =>
      match errors.encode.or errors.publish with
      | some error => (.error error, stored)
      | none => (.ok sequence, stored)

/-- The numbers of the updates that are published, one after the other. -/
def published : List UpdateErrors → SequenceStore → List Int
  | [], _ => []
  | errors :: later, store =>
    match publishFleetStatusUpdate errors store with
    | (.ok sequence, stored) => sequence :: published later stored
    | (.error _, stored) => published later stored

/-- The last number is stored, if there is one. -/
def Counted (store : SequenceStore) (sequence : Int) : Prop :=
  store = none ∧ sequence = 0 ∨ store = some (.i64 sequence, 0)

variable {store : SequenceStore} {sequence : Int}

/-- An update ends before the number is written, or behind it. -/
theorem publishFleetStatusUpdate_cases (errors : UpdateErrors) (store : SequenceStore) :
    let sequence := nextSequence errors.read store
    let result := publishFleetStatusUpdate errors store
    result = (.ok sequence, overwrite (.i64 sequence) 0 store) ∨
      ∃ error, result = (.error error, store) ∨
        result = (.error error, overwrite (.i64 sequence) 0 store) := by
  unfold publishFleetStatusUpdate
  cases errors.prepare with
  | some error => exact .inr ⟨error, .inl rfl⟩
  | none =>
    rcases errors.write with _ | ⟨error, _ | _⟩
    · cases errors.encode.or errors.publish with
      | some error => exact .inr ⟨error, .inr rfl⟩
      | none => exact .inl rfl
    · exact .inr ⟨error, .inl rfl⟩
    · exact .inr ⟨error, .inr rfl⟩

theorem nextSequence_of_le (natural : 0 ≤ sequence) (fits : sequence + 1 < 9223372036854775808)
    (time : Int) :
    nextSequence none (some (.i64 sequence, time)) = sequence + 1 :=
  Int.bmod_eq_of_le (by omega) (by omega)

theorem Counted.overwrite_eq (counted : Counted store sequence) (value : GglObject) :
    overwrite value 0 store = some (value, 0) := by
  rcases counted with ⟨rfl, -⟩ | rfl <;> rfl

/-- The next number is the first one, or the one that follows. -/
theorem Counted.nextSequence_bounds (counted : Counted store sequence) (natural : 0 ≤ sequence)
    (fits : sequence + 1 < 9223372036854775808) (failure : Option GglError) :
    1 ≤ nextSequence failure store ∧ nextSequence failure store ≤ sequence + 1 := by
  have first : 1 ≤ (1 : Int) ∧ (1 : Int) ≤ sequence + 1 := by omega
  cases failure with
  | some error => exact first
  | none =>
    rcases counted with ⟨rfl, -⟩ | rfl
    · exact first
    · rw [nextSequence_of_le natural fits]
      omega

/-- As long as the number is read, the numbers grow. -/
theorem Counted.increasing {run : List UpdateErrors} (counted : Counted store sequence)
    (natural : 0 ≤ sequence) (fits : sequence + run.length < 9223372036854775808)
    (reads : ∀ errors ∈ run, errors.read = none) :
    (sequence :: published run store).Pairwise (· < ·) := by
  induction run generalizing store sequence with
  | nil => exact pairwise_singleton _ _
  | cons errors run ih =>
    rw [length_cons] at fits
    rcases forall_mem_cons.mp reads with ⟨read, others⟩
    have number : nextSequence errors.read store = sequence + 1 := by
      rcases counted with ⟨rfl, rfl⟩ | rfl <;> rw [read]
      · rfl
      · exact nextSequence_of_le natural (by omega) 0
    have stored : Counted (overwrite (.i64 (sequence + 1)) 0 store) (sequence + 1) :=
      .inr (counted.overwrite_eq _)
    have later := pairwise_cons_cons_iff_of_trans.mpr ⟨Int.lt_succ sequence,
      ih stored (by omega) (by omega) others⟩
    have result := publishFleetStatusUpdate_cases errors store
    dsimp only at result
    rw [number] at result
    rw [published]
    rcases result with result | ⟨error, result | result⟩ <;> rw [result]
    · exact later
    · exact ih counted natural (by omega) others
    · exact later.sublist (by simp)

/-- After a number, a failure to read it makes the next number a one. -/
theorem not_increasing {reads : List (Option GglError)} {error : GglError}
    (fails : some error ∈ reads) (positive : 1 ≤ sequence)
    (fits : sequence + reads.length < 9223372036854775808) :
    ¬(sequence :: published (reads.map fun failure => { read := failure })
      (some (.i64 sequence, 0))).Pairwise (· < ·) := by
  induction reads generalizing sequence with
  | nil => cases fails
  | cons failure reads ih =>
    intro increasing
    rw [length_cons] at fits
    cases failure with
    | some _ =>
      have less : sequence < 1 := rel_of_pairwise_cons increasing mem_cons_self
      omega
    | none =>
      have grows := increasing.of_cons
      rw [map_cons, published, publishFleetStatusUpdate] at grows
      dsimp only at grows
      rw [nextSequence_of_le (by omega) (by omega)] at grows
      exact ih ((mem_cons.mp fails).resolve_left (by simp)) (by omega) (by omega) grows

/-- Given the number stored at the beginning and which reads of the number fail, the numbers of
published updates grow whatever the other calls answer exactly if no read but the first one
fails. -/
theorem published_increasing_iff (counted : Counted store sequence) (natural : 0 ≤ sequence)
    (reads : List (Option GglError)) (fits : sequence + reads.length < 9223372036854775808) :
    (∀ run : List UpdateErrors, run.map UpdateErrors.read = reads →
      (published run store).Pairwise (· < ·)) ↔ ∀ failure ∈ reads.tail, failure = none := by
  constructor
  · intro increasing failure later
    cases reads with
    | nil => cases later
    | cons first reads =>
      rw [length_cons] at fits
      cases failure with
      | none => rfl
      | some error =>
        have grows := increasing ((first :: reads).map fun failure => { read := failure })
          (by simp [Function.comp_def])
        have bounds := counted.nextSequence_bounds natural (by omega) first
        rw [map_cons, published, publishFleetStatusUpdate] at grows
        dsimp only at grows
        rw [counted.overwrite_eq] at grows
        exact absurd grows (not_increasing later bounds.1 (by omega))
  · rintro others run rfl
    cases run with
    | nil => exact .nil
    | cons errors run =>
      rw [length_map, length_cons] at fits
      have reads : ∀ errors ∈ run, errors.read = none :=
        fun other listed => others _ (mem_map_of_mem listed)
      have bounds := counted.nextSequence_bounds natural (by omega) errors.read
      -- The number of the first update is stored, and those behind it are greater.
      have stored : Counted (overwrite (.i64 (nextSequence errors.read store)) 0 store)
          (nextSequence errors.read store) := .inr (counted.overwrite_eq _)
      have later := stored.increasing (by omega) (by omega) reads
      rw [published]
      rcases publishFleetStatusUpdate_cases errors store with result | ⟨error, result | result⟩ <;>
        rw [result]
      · exact later
      · exact (counted.increasing natural (by omega) reads).of_cons
      · exact later.of_cons

/-- Where the read of the first update fails, the numbers grow from one. -/
theorem published_increasing_iff_first :
    (published [{ read := some .failure }, {}] (some (.i64 5, 0))).Pairwise (· < ·) :=
  (published_increasing_iff (.inr rfl) (by decide) [some .failure, none] (by decide)).mpr
    (by simp) _ rfl

/-- Where the read of the second update fails, the number one is published again. -/
theorem number_published_again :
    published [{}, { read := some .failure }] none = [1, 1] :=
  rfl

end GreengrassLite.Fleet

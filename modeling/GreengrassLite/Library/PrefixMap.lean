import Mathlib.Data.List.Infix
import Mathlib.Order.Lattice

/-!
# Prefix-free maps with timestamps

A map from paths to values in which no stored path is a proper prefix of
another, as the leaves of a tree are addressed.  Values carry a timestamp from
a linear order, and a write with an older timestamp than the stored one is
ignored.

The main fact is that a family of compatible writes ends in the same map in
every order: each path keeps the entry with the greatest timestamp.
-/

namespace GreengrassLite.Library

open List Function

universe u v w

/-- A partial map on paths whose domain is prefix free. -/
structure PrefixMap (κ : Type u) (α : Type v) where
  lookup : List κ → Option α
  prefixFree : ∀ {first second : List κ}, lookup first ≠ none → lookup second ≠ none →
    first <+: second → first = second

/-- What a path of a prefix-free map leads to. -/
inductive Reading (κ : Type u) (α : Type v) where
  /-- The entry stored at the path itself. -/
  | value (entry : α)
  /-- Everything stored below the path, addressed from it. -/
  | below (contents : List κ → Option α)
  /-- Nothing is stored at or below the path. -/
  | missing

namespace PrefixMap

variable {κ : Type u} {α : Type v} {τ : Type w}
  {map : PrefixMap κ (α × τ)} {path : List κ} {time : τ} {value : α}

/-- The map that stores nothing. -/
def empty (κ : Type u) (α : Type v) : PrefixMap κ α where
  lookup _ := none
  prefixFree stored := absurd rfl stored

@[simp]
theorem lookup_empty (path : List κ) : (empty κ α).lookup path = none :=
  rfl

/-- Some stored path is a proper prefix or a proper extension of `path`. -/
def Conflict (map : PrefixMap κ α) (path : List κ) : Prop :=
  ∃ other, map.lookup other ≠ none ∧ (other <+: path ∨ path <+: other) ∧ other ≠ path

theorem not_conflict_of_stored {map : PrefixMap κ α} (stored : map.lookup path ≠ none) :
    ¬map.Conflict path := by
  rintro ⟨other, otherStored, isPrefix | isPrefix, different⟩
  · exact different (map.prefixFree otherStored stored isPrefix)
  · exact different (map.prefixFree stored otherStored isPrefix).symm

section Set

variable [DecidableEq κ]

/-- Store an entry at a path without conflict. -/
def set (map : PrefixMap κ α) (path : List κ) (entry : α) (compatible : ¬map.Conflict path) :
    PrefixMap κ α where
  lookup := update map.lookup path (some entry)
  prefixFree := by
    intro first second firstStored secondStored isPrefix
    by_cases firstHere : first = path
    · by_cases secondHere : second = path
      · rw [firstHere, secondHere]
      · rw [update_of_ne secondHere] at secondStored
        subst firstHere
        by_contra different
        exact compatible ⟨second, secondStored, .inr isPrefix, Ne.symm different⟩
    · rw [update_of_ne firstHere] at firstStored
      by_cases secondHere : second = path
      · subst secondHere
        by_contra different
        exact compatible ⟨first, firstStored, .inl isPrefix, different⟩
      · rw [update_of_ne secondHere] at secondStored
        exact map.prefixFree firstStored secondStored isPrefix

@[simp]
theorem lookup_set_self {map : PrefixMap κ α} {entry : α} {compatible : ¬map.Conflict path} :
    (map.set path entry compatible).lookup path = some entry :=
  update_self ..

theorem lookup_set_of_ne {map : PrefixMap κ α} {other : List κ} {entry : α}
    {compatible : ¬map.Conflict path} (different : other ≠ path) :
    (map.set path entry compatible).lookup other = map.lookup other :=
  update_of_ne different ..

end Set

open scoped Classical in
/-- What a path leads to. -/
noncomputable def read (map : PrefixMap κ α) (path : List κ) : Reading κ α :=
  match map.lookup path with
  | some entry => .value entry
  | none =>
    if ∃ rest, map.lookup (path ++ rest) ≠ none then
      .below fun rest => map.lookup (path ++ rest)
    else
      .missing

/-! ## Timestamped writes -/

/-- A write of a value with a timestamp to a path. -/
structure Entry (κ : Type u) (α : Type v) (τ : Type w) where
  path : List κ
  value : α
  time : τ

section Write

variable [DecidableEq κ] [LinearOrder τ]

open scoped Classical in
/-- Write a value with a timestamp: insert it where nothing conflicts, replace
an entry that is not newer, ignore the write below a newer entry, and reject it
on a conflict.  The flag tells whether the write was accepted. -/
noncomputable def write (map : PrefixMap κ (α × τ)) (path : List κ) (value : α) (time : τ) :
    Bool × PrefixMap κ (α × τ) :=
  match stored : map.lookup path with
  | some (_, storedTime) =>
    if storedTime ≤ time then
      (true, map.set path (value, time) (not_conflict_of_stored (by simp [stored])))
    else
      (true, map)
  | none =>
    if compatible : ¬map.Conflict path then
      (true, map.set path (value, time) compatible)
    else
      (false, map)

@[simp]
theorem write_of_conflict (value : α) (time : τ) (conflict : map.Conflict path) :
    map.write path value time = (false, map) := by
  unfold write
  split
  · rename_i stored
    exact absurd conflict (not_conflict_of_stored (by simp [stored]))
  · rw [dif_neg (not_not.mpr conflict)]

theorem write_of_newer {storedValue : α} {storedTime : τ} (value : α)
    (stored : map.lookup path = some (storedValue, storedTime)) (newer : time < storedTime) :
    map.write path value time = (true, map) := by
  unfold write
  split
  · rename_i found
    rw [stored] at found
    obtain ⟨rfl, rfl⟩ := Prod.mk.inj (Option.some.inj found)
    rw [if_neg (not_le.mpr newer)]
  · rename_i found
    rw [stored] at found
    cases found

theorem write_of_not_newer (value : α) (compatible : ¬map.Conflict path)
    (notNewer : ∀ storedValue storedTime, map.lookup path = some (storedValue, storedTime) →
      storedTime ≤ time) :
    map.write path value time = (true, map.set path (value, time) compatible) := by
  unfold write
  split
  · rename_i storedValue storedTime stored
    rw [if_pos (notNewer storedValue storedTime stored)]
  · rw [dif_pos compatible]

/-- The entry a write to its own path leaves behind. -/
theorem exists_write_of_compatible (map : PrefixMap κ (α × τ)) (entry : Entry κ α τ)
    (compatible : ¬map.Conflict entry.path) :
    ∃ written, map.write entry.path entry.value entry.time = (true, written) ∧
      (∀ other, other ≠ entry.path → written.lookup other = map.lookup other) ∧
      ((written.lookup entry.path = some (entry.value, entry.time) ∧
          ∀ storedValue storedTime,
            map.lookup entry.path = some (storedValue, storedTime) →
              storedTime ≤ entry.time) ∨
        ∃ storedValue storedTime, written = map ∧
          map.lookup entry.path = some (storedValue, storedTime) ∧ entry.time < storedTime) := by
  by_cases newer : ∃ storedValue storedTime,
      map.lookup entry.path = some (storedValue, storedTime) ∧ entry.time < storedTime
  · obtain ⟨storedValue, storedTime, stored, later⟩ := newer
    exact ⟨map, write_of_newer entry.value stored later, fun _ _ => rfl,
      Or.inr ⟨storedValue, storedTime, rfl, stored, later⟩⟩
  · push Not at newer
    exact ⟨_, write_of_not_newer entry.value compatible newer,
      fun other different => lookup_set_of_ne different, .inl ⟨lookup_set_self, newer⟩⟩

/-- A write leaves every other path as it was. -/
@[simp]
theorem lookup_write_of_ne (map : PrefixMap κ (α × τ)) {other : List κ} (value : α) (time : τ)
    (different : other ≠ path) : (map.write path value time).2.lookup other = map.lookup other := by
  by_cases conflict : map.Conflict path
  · rw [write_of_conflict value time conflict]
  · obtain ⟨written, equal, unchanged, _⟩ :=
      map.exists_write_of_compatible ⟨path, value, time⟩ conflict
    rw [equal]
    exact unchanged other different

/-- A write that is refused changes nothing. -/
@[simp]
theorem write_of_refused (refused : (map.write path value time).1 = false) :
    (map.write path value time).2 = map := by
  by_cases conflict : map.Conflict path
  · rw [write_of_conflict value time conflict]
  · obtain ⟨written, equal, -⟩ := map.exists_write_of_compatible ⟨path, value, time⟩ conflict
    rw [equal] at refused
    cases refused

/-- An accepted write to a path that holds nothing newer is recorded. -/
theorem lookup_write_self (accepted : (map.write path value time).1 = true)
    (notNewer : ∀ storedValue storedTime, map.lookup path = some (storedValue, storedTime) →
      storedTime ≤ time) :
    (map.write path value time).2.lookup path = some (value, time) := by
  by_cases conflict : map.Conflict path
  · rw [write_of_conflict value time conflict] at accepted
    cases accepted
  · rw [write_of_not_newer value conflict notNewer, lookup_set_self]

end Write

section Overwrite

variable [LinearOrder τ]

/-- What a path holds after it accepted a write: an entry that is newer stays. -/
def overwrite (value : α) (time : τ) : Option (α × τ) → Option (α × τ)
  | some (storedValue, storedTime) =>
    if time < storedTime then some (storedValue, storedTime) else some (value, time)
  | none => some (value, time)

@[simp]
theorem overwrite_of_newer (value : α) {storedValue : α} {storedTime : τ}
    (newer : time < storedTime) :
    overwrite value time (some (storedValue, storedTime)) = some (storedValue, storedTime) :=
  if_pos newer

@[simp]
theorem overwrite_of_not_newer (value : α) {stored : Option (α × τ)}
    (notNewer : ∀ storedValue storedTime, stored = some (storedValue, storedTime) →
      storedTime ≤ time) :
    overwrite value time stored = some (value, time) := by
  rcases stored with _ | ⟨storedValue, storedTime⟩
  · rfl
  · exact if_neg (not_lt.mpr (notNewer storedValue storedTime rfl))

theorem overwrite_eq_or (value : α) (time : τ) (stored : Option (α × τ)) :
    overwrite value time stored = stored ∨ overwrite value time stored = some (value, time) := by
  rcases stored with _ | ⟨storedValue, storedTime⟩
  · exact .inr rfl
  · rw [overwrite]
    split_ifs
    · exact .inl rfl
    · exact .inr rfl

/-- Of two writes of one age the second decides. -/
@[simp]
theorem overwrite_overwrite (first second : α) (time : τ) (stored : Option (α × τ)) :
    overwrite second time (overwrite first time stored) = overwrite second time stored := by
  rcases stored with _ | ⟨storedValue, storedTime⟩
  · exact overwrite_of_not_newer second fun _ _ found => by cases found; exact le_rfl
  · by_cases newer : time < storedTime
    · rw [overwrite_of_newer first newer]
    · rw [overwrite, if_neg newer, overwrite, overwrite, if_neg newer, if_neg (lt_irrefl time)]

/-- Two writes leave the value of the later one in both orders exactly when what was stored and
is newer than both has that value, and otherwise their ages or their values tell them apart. -/
theorem overwrite_both_iff {first second : α} {firstTime secondTime : τ}
    (ordered : firstTime ≤ secondTime) (stored : Option (α × τ)) :
    ((∃ time, overwrite second secondTime (overwrite first firstTime stored) =
          some (second, time)) ∧
        ∃ time, overwrite first firstTime (overwrite second secondTime stored) =
          some (second, time)) ↔
      (∀ value time, stored = some (value, time) → secondTime < time → value = second) ∧
        (firstTime < secondTime ∨ first = second ∨
          ∃ value time, stored = some (value, time) ∧ secondTime < time) := by
  by_cases newer : ∃ value time, stored = some (value, time) ∧ secondTime < time
  · rcases newer with ⟨value, time, rfl, later⟩
    rw [overwrite_of_newer first (ordered.trans_lt later), overwrite_of_newer second later,
      overwrite_of_newer first (ordered.trans_lt later)]
    simp [later]
  · have notNewer : ∀ value time, stored = some (value, time) → time ≤ secondTime :=
      fun value time found => le_of_not_gt fun later => newer ⟨value, time, found, later⟩
    have afterFirst : ∀ value time, overwrite first firstTime stored = some (value, time) →
        time ≤ secondTime := by
      intro value time found
      rcases overwrite_eq_or first firstTime stored with kept | written
      · exact notNewer value time (kept.symm.trans found)
      · cases written.symm.trans found
        exact ordered
    have noNewer : ∀ value time, stored = some (value, time) → secondTime < time →
        value = second :=
      fun value time found later => absurd ⟨value, time, found, later⟩ newer
    rw [overwrite_of_not_newer second notNewer, overwrite_of_not_newer second afterFirst,
      overwrite, and_iff_right ⟨secondTime, rfl⟩, and_iff_right noNewer, or_iff_left newer]
    by_cases apart : firstTime < secondTime
    · simp [apart]
    · simp [apart]

end Overwrite

section Write

variable [DecidableEq κ] [LinearOrder τ]

/-- An accepted write overwrites what its path held. -/
@[simp]
theorem lookup_write_of_accepted (accepted : (map.write path value time).1 = true) :
    (map.write path value time).2.lookup path = overwrite value time (map.lookup path) := by
  by_cases newer : ∃ storedValue storedTime,
      map.lookup path = some (storedValue, storedTime) ∧ time < storedTime
  · rcases newer with ⟨storedValue, storedTime, stored, later⟩
    rw [write_of_newer value stored later, stored, overwrite_of_newer value later]
  · have notNewer : ∀ storedValue storedTime,
        map.lookup path = some (storedValue, storedTime) → storedTime ≤ time :=
      fun storedValue storedTime stored =>
        le_of_not_gt fun later => newer ⟨storedValue, storedTime, stored, later⟩
    rw [lookup_write_self accepted notNewer, overwrite_of_not_newer value notNewer]

end Write

/-! ## Families of writes -/

/-- The writes agree on what is a leaf: their paths are equal or incomparable,
none conflicts with a stored path, and no two writes to one path carry the
same timestamp. -/
structure Mergeable (map : PrefixMap κ (α × τ)) (entries : List (Entry κ α τ)) : Prop where
  incomparable : ∀ first ∈ entries, ∀ second ∈ entries,
    first.path <+: second.path → first.path = second.path
  compatible : ∀ entry ∈ entries, ¬map.Conflict entry.path
  distinct : entries.Pairwise fun first second =>
    first.path = second.path → first.time ≠ second.time

theorem Mergeable.perm {first second : List (Entry κ α τ)} (mergeable : map.Mergeable first)
    (perm : first.Perm second) : map.Mergeable second where
  incomparable left leftMember right rightMember :=
    mergeable.incomparable left (perm.mem_iff.mpr leftMember) right
      (perm.mem_iff.mpr rightMember)
  compatible entry member := mergeable.compatible entry (perm.mem_iff.mpr member)
  distinct := by
    refine (perm.pairwise_iff ?_).mp mergeable.distinct
    intro left right apart samePath sameTime
    exact apart samePath.symm sameTime.symm

/-- After one write of a mergeable family the rest is still mergeable. -/
theorem Mergeable.rest {written : PrefixMap κ (α × τ)} {entry : Entry κ α τ}
    {entries : List (Entry κ α τ)} (mergeable : map.Mergeable (entry :: entries))
    (unchanged : ∀ other, other ≠ entry.path → written.lookup other = map.lookup other) :
    written.Mergeable entries where
  incomparable first firstMember second secondMember :=
    mergeable.incomparable first (mem_cons_of_mem _ firstMember) second
      (mem_cons_of_mem _ secondMember)
  compatible other member := by
    have otherMember := mem_cons_of_mem entry member
    rintro ⟨path, stored, comparable, different⟩
    by_cases here : path = entry.path
    · subst here
      rcases comparable with isPrefix | isPrefix
      · exact different (mergeable.incomparable entry mem_cons_self other otherMember
          isPrefix)
      · exact different (mergeable.incomparable other otherMember entry mem_cons_self
          isPrefix).symm
    · rw [unchanged path here] at stored
      exact mergeable.compatible other otherMember ⟨path, stored, comparable, different⟩
  distinct := (pairwise_cons.mp mergeable.distinct).2

section Latest

variable [LinearOrder τ]

/-- A path ends with this value: it is the latest of the writes and not older
than what was stored, or it was stored and is newer than every write. -/
def Latest (map : PrefixMap κ (α × τ)) (entries : List (Entry κ α τ))
    (path : List κ) (value : α) (time : τ) : Prop :=
  (⟨path, value, time⟩ ∈ entries ∧
      (∀ entry ∈ entries, entry.path = path → entry.time ≤ time) ∧
      ∀ storedValue storedTime,
        map.lookup path = some (storedValue, storedTime) → storedTime ≤ time) ∨
    (map.lookup path = some (value, time) ∧
      ∀ entry ∈ entries, entry.path = path → entry.time < time)

theorem latest_perm {first second : List (Entry κ α τ)} (perm : first.Perm second) :
    map.Latest first path value time ↔ map.Latest second path value time := by
  simp only [Latest, perm.mem_iff]

variable {map written : PrefixMap κ (α × τ)} {entry : Entry κ α τ}
  {entries : List (Entry κ α τ)}

theorem latest_cons_of_ne
    (unchanged : ∀ other, other ≠ entry.path → written.lookup other = map.lookup other)
    (different : path ≠ entry.path) :
    written.Latest entries path value time ↔
      map.Latest (entry :: entries) path value time := by
  have notHere : ⟨path, value, time⟩ ≠ entry := by
    rintro rfl
    exact different rfl
  simp only [Latest, unchanged path different, forall_mem_cons, different.symm,
    false_implies, true_and]
  simp [notHere]

/-- At its own path, a write that is stored becomes the entry to beat. -/
theorem latest_cons_of_stored
    (distinct : ∀ other ∈ entries, entry.path = other.path → entry.time ≠ other.time)
    (stored : written.lookup entry.path = some (entry.value, entry.time))
    (notNewer : ∀ storedValue storedTime,
      map.lookup entry.path = some (storedValue, storedTime) → storedTime ≤ entry.time) :
    written.Latest entries entry.path value time ↔
      map.Latest (entry :: entries) entry.path value time := by
  simp only [Latest, stored, Option.some.injEq, Prod.mk.injEq, forall_mem_cons,
    true_implies]
  simp only [mem_cons]
  constructor
  · rintro (⟨member, greatest, later⟩ | ⟨⟨rfl, rfl⟩, greatest⟩)
    · refine Or.inl ⟨.inr member, ⟨later _ _ ⟨rfl, rfl⟩, greatest⟩, ?_⟩
      intro storedValue storedTime old
      exact (notNewer storedValue storedTime old).trans (later _ _ ⟨rfl, rfl⟩)
    · exact .inl ⟨.inl rfl,
        ⟨le_rfl, fun other member here => (greatest other member here).le⟩, notNewer⟩
  · rintro (⟨here | member, ⟨later, greatest⟩, _⟩ | ⟨old, later, _⟩)
    · obtain rfl : value = entry.value := congrArg Entry.value here
      obtain rfl : time = entry.time := congrArg Entry.time here
      refine Or.inr ⟨⟨rfl, rfl⟩, fun other member same => ?_⟩
      exact lt_of_le_of_ne (greatest other member same)
        (distinct other member same.symm).symm
    · refine Or.inl ⟨member, greatest, ?_⟩
      rintro _ _ ⟨_, rfl⟩
      exact later
    · exact absurd later (not_lt.mpr (notNewer value time old))

/-- A write below a newer entry changes nothing. -/
theorem latest_cons_of_newer {storedValue : α} {storedTime : τ}
    (stored : map.lookup entry.path = some (storedValue, storedTime))
    (newer : entry.time < storedTime) :
    map.Latest entries entry.path value time ↔
      map.Latest (entry :: entries) entry.path value time := by
  simp only [Latest, stored, Option.some.injEq, Prod.mk.injEq, forall_mem_cons,
    true_implies]
  simp only [mem_cons]
  constructor
  · rintro (⟨member, greatest, later⟩ | ⟨⟨rfl, rfl⟩, greatest⟩)
    · exact .inl ⟨.inr member,
        ⟨newer.le.trans (later _ _ ⟨rfl, rfl⟩), greatest⟩, later⟩
    · exact .inr ⟨⟨rfl, rfl⟩, newer, greatest⟩
  · rintro (⟨here | member, ⟨_, greatest⟩, later⟩ | ⟨same, _, greatest⟩)
    · obtain rfl : time = entry.time := congrArg Entry.time here
      exact absurd newer (not_lt.mpr (later _ _ ⟨rfl, rfl⟩))
    · exact .inl ⟨member, greatest, later⟩
    · exact .inr ⟨same, greatest⟩

end Latest

section WriteAll

variable [DecidableEq κ] [LinearOrder τ]

/-- Apply writes in order, collecting whether each was accepted. -/
noncomputable def writeAll (map : PrefixMap κ (α × τ)) :
    List (Entry κ α τ) → List Bool × PrefixMap κ (α × τ)
  | [] => ([], map)
  | entry :: entries =>
    let written := map.write entry.path entry.value entry.time
    let rest := written.2.writeAll entries
    (written.1 :: rest.1, rest.2)

/-- Every write of a mergeable family is accepted, and each path ends with the
latest of its entries, whatever the order of the writes. -/
theorem writeAll_latest {entries : List (Entry κ α τ)} (mergeable : map.Mergeable entries) :
    (∀ accepted ∈ (map.writeAll entries).1, accepted = true) ∧
      ∀ path value time, (map.writeAll entries).2.lookup path = some (value, time) ↔
        map.Latest entries path value time := by
  induction entries generalizing map with
  | nil => simp [writeAll, Latest]
  | cons entry entries ih =>
    obtain ⟨written, wrote, unchanged, outcome⟩ := exists_write_of_compatible map entry
      (mergeable.compatible entry mem_cons_self)
    obtain ⟨accepted, latest⟩ := ih (mergeable.rest unchanged)
    simp only [writeAll, wrote]
    refine ⟨by simpa using accepted, fun path value time => ?_⟩
    rw [latest]
    by_cases here : path = entry.path
    · subst here
      rcases outcome with ⟨stored, notNewer⟩ | ⟨storedValue, storedTime, rfl, stored, newer⟩
      · exact latest_cons_of_stored (pairwise_cons.mp mergeable.distinct).1 stored
          notNewer
      · exact latest_cons_of_newer stored newer
    · exact latest_cons_of_ne unchanged here

end WriteAll

end PrefixMap

end GreengrassLite.Library

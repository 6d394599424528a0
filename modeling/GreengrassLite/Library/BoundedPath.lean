import Mathlib.Data.List.Infix

/-!
# Traversals with a bounded path

A depth first traversal of nested maps keeps the keys that lead to the current
place in one path.  It is recorded here as the list of its visits: going down
along a key, reaching a value, coming back up.

The path may live in a vector of fixed capacity whose overflow is ignored: a
key that does not fit is dropped, but coming back up still removes a key.  Such
a traversal is compared with the one that has no bound.

* The two reach every value at the same path exactly when, up to the last
  value, no path is longer than the capacity.
* The bounded traversal stays below its base path exactly when the traversal
  never climbs back further than the room above the base.
-/

namespace GreengrassLite.Library

open List

universe u v

/-- One visit of a traversal. -/
inductive Visit (κ : Type u) (ν : Type v) where
  /-- Going down along a key. -/
  | enter (key : κ)
  /-- Reaching a value at the current path. -/
  | leaf (value : ν)
  /-- Coming back up. -/
  | leave

namespace Visit

variable {κ : Type u} {ν : Type v}

/-! ## Paths and reached values -/

variable (push : List κ → κ → List κ)

/-- The path after one visit, where `push` says how a key is added. -/
def path (current : List κ) : Visit κ ν → List κ
  | enter key => push current key
  | leaf _ => current
  | leave => current.dropLast

/-- The path after the visits of a trace. -/
def pathAfter (base : List κ) (trace : List (Visit κ ν)) : List κ :=
  trace.foldl (path push) base

/-- The values of a trace, each with the path at which it is reached. -/
def reached : List κ → List (Visit κ ν) → List (List κ × ν)
  | _, [] => []
  | current, enter key :: rest => reached (push current key) rest
  | current, leaf value :: rest => (current, value) :: reached current rest
  | current, leave :: rest => reached current.dropLast rest

/-- The level after one visit. -/
def rise (current : Nat) : Visit κ ν → Nat
  | enter _ => current + 1
  | leaf _ => current
  | leave => current - 1

/-- How many keys deep the visits of a trace end. -/
def level (trace : List (Visit κ ν)) : Nat :=
  trace.foldl rise 0

@[simp]
theorem level_concat (trace : List (Visit κ ν)) (visit : Visit κ ν) :
    level (trace ++ [visit]) = visit.rise (level trace) :=
  foldl_append

/-- Add a key at the end of a path. -/
def snoc (current : List κ) (key : κ) : List κ :=
  current ++ [key]

/-- Add a key at the end of a path, unless the path is full. -/
def snocWithin (capacity : Nat) (current : List κ) (key : κ) : List κ :=
  if current.length < capacity then current ++ [key] else current

section Push

variable {push : List κ → κ → List κ} {base : List κ}

@[simp]
theorem pathAfter_nil : pathAfter push base ([] : List (Visit κ ν)) = base :=
  rfl

@[simp]
theorem pathAfter_cons (visit : Visit κ ν) (trace : List (Visit κ ν)) :
    pathAfter push base (visit :: trace) = pathAfter push (visit.path push base) trace :=
  rfl

@[simp]
theorem pathAfter_append (first second : List (Visit κ ν)) :
    pathAfter push base (first ++ second) = pathAfter push (pathAfter push base first) second :=
  foldl_append

@[simp]
theorem pathAfter_concat (trace : List (Visit κ ν)) (visit : Visit κ ν) :
    pathAfter push base (trace ++ [visit]) = visit.path push (pathAfter push base trace) :=
  pathAfter_append trace [visit]

@[simp]
theorem reached_append (first second : List (Visit κ ν)) :
    reached push base (first ++ second) =
      reached push base first ++ reached push (pathAfter push base first) second := by
  induction first generalizing base with
  | nil => rfl
  | cons visit first ih =>
    cases visit with
    | enter | leave => exact ih
    | leaf value => exact congrArg ((base, value) :: ·) ih

variable {place : List κ}

/-- A reached value marks a place in the trace. -/
theorem exists_split_of_reached {trace : List (Visit κ ν)} {first last : List (List κ × ν)}
    {value : ν} (split : reached push base trace = first ++ (place, value) :: last) :
    ∃ before after, trace = before ++ leaf value :: after ∧
      place = pathAfter push base before ∧ first = reached push base before := by
  induction trace generalizing base first with
  | nil => simp [reached] at split
  | cons visit rest ih =>
    cases visit with
    | enter | leave =>
      rcases ih split with ⟨before, after, rfl, placed, earlier⟩
      exact ⟨_ :: before, after, rfl, placed, earlier⟩
    | leaf other =>
      rw [reached] at split
      cases first with
      | nil =>
        cases split
        exact ⟨[], rest, rfl, rfl, rfl⟩
      | cons head first =>
        rw [cons_append, cons.injEq] at split
        rcases ih split.2 with ⟨before, after, rfl, placed, earlier⟩
        refine ⟨leaf other :: before, after, rfl, placed, ?_⟩
        rw [reached, split.1, earlier]

theorem mem_reached_iff {trace : List (Visit κ ν)} {value : ν} :
    (place, value) ∈ reached push base trace ↔
      ∃ before after, trace = before ++ leaf value :: after ∧
        place = pathAfter push base before := by
  constructor
  · intro member
    rcases append_of_mem member with ⟨first, last, split⟩
    rcases exists_split_of_reached split with ⟨before, after, traceSplit, placed, _⟩
    exact ⟨before, after, traceSplit, placed⟩
  · rintro ⟨before, after, rfl, rfl⟩
    rw [reached_append]
    exact mem_append_right _ (mem_cons_self ..)

/-- Which values a trace reaches does not depend on how keys are added. -/
theorem map_snd_reached (push other : List κ → κ → List κ) (base otherBase : List κ)
    (trace : List (Visit κ ν)) :
    (reached push base trace).map Prod.snd = (reached other otherBase trace).map Prod.snd := by
  induction trace generalizing base otherBase with
  | nil => rfl
  | cons visit rest ih =>
    cases visit with
    | enter | leave => exact ih _ _
    | leaf value => exact congrArg (value :: ·) (ih _ _)

/-- Two ways to keep the path reach the same values at the same paths exactly
when the paths agree at every value. -/
theorem reached_eq_iff {other : List κ → κ → List κ} {otherBase : List κ}
    {trace : List (Visit κ ν)} :
    reached push base trace = reached other otherBase trace ↔
      ∀ before value after, trace = before ++ leaf value :: after →
        pathAfter push base before = pathAfter other otherBase before := by
  constructor
  · rintro equal before value after rfl
    rw [reached_append, reached_append] at equal
    have sameLength : (reached push base before).length =
        (reached other otherBase before).length := by
      simpa using congrArg length (map_snd_reached push other base otherBase before)
    have tails := append_inj_right equal sameLength
    rw [reached, reached, cons.injEq, Prod.mk.injEq] at tails
    exact tails.1.1
  · intro agree
    induction trace generalizing base otherBase with
    | nil => rfl
    | cons visit rest ih =>
      have later : ∀ before value after, rest = before ++ leaf value :: after →
          pathAfter push (visit.path push base) before =
            pathAfter other (visit.path other otherBase) before := by
        rintro before value after rfl
        exact agree (visit :: before) value after rfl
      cases visit with
      | enter | leave => exact ih later
      | leaf value =>
        have here : base = otherBase := agree [] value rest rfl
        have tails : reached push base rest = reached other otherBase rest := ih later
        rw [reached, reached, tails, here]

end Push

/-! ## Nested traversals -/

/-- A trace that never climbs above its start and ends where it started. -/
structure Nested (trace : List (Visit κ ν)) : Prop where
  below : ∀ (base : List κ) {taken : List (Visit κ ν)}, taken <+: trace →
    base <+: pathAfter snoc base taken
  settled : ∀ base : List κ, pathAfter snoc base trace = base

theorem Nested.nil : Nested ([] : List (Visit κ ν)) where
  below base taken isPrefix := by
    rw [prefix_nil.mp isPrefix]
    exact prefix_rfl
  settled _ := rfl

theorem Nested.leaf (value : ν) : Nested [(Visit.leaf value : Visit κ ν)] where
  below base taken isPrefix := by
    rcases prefix_cons_iff.mp isPrefix with rfl | ⟨rest, rfl, restPrefix⟩
    · exact prefix_rfl
    · rw [prefix_nil.mp restPrefix]
      exact prefix_rfl
  settled _ := rfl

theorem Nested.append {first second : List (Visit κ ν)} (nestedFirst : Nested first)
    (nestedSecond : Nested second) : Nested (first ++ second) where
  below base taken isPrefix := by
    rcases isPrefix with ⟨remaining, split⟩
    rcases append_eq_append_iff.mp split with ⟨inside, rfl, _⟩ | ⟨rest, rfl, rfl⟩
    · exact nestedFirst.below base (prefix_append taken inside)
    · rw [pathAfter_append, nestedFirst.settled]
      exact nestedSecond.below base (prefix_append rest remaining)
  settled base := by
    rw [pathAfter_append, nestedFirst.settled, nestedSecond.settled]

/-- Going down along a key, traversing what is there and coming back up. -/
theorem Nested.branch {inner : List (Visit κ ν)} (nested : Nested inner) (key : κ) :
    Nested (enter key :: (inner ++ [leave])) where
  below base taken isPrefix := by
    have entered : base <+: base ++ [key] := prefix_append base [key]
    rcases prefix_cons_iff.mp isPrefix with rfl | ⟨rest, rfl, restPrefix⟩
    · exact prefix_rfl
    rcases prefix_concat_iff.mp restPrefix with rfl | inside
    · rw [pathAfter_cons, pathAfter_concat, path, snoc, nested.settled, path,
        dropLast_concat]
    · exact entered.trans (nested.below (base ++ [key]) inside)
  settled base := by
    rw [pathAfter_cons, pathAfter_concat, path, snoc, nested.settled, path, dropLast_concat]

/-! ## The bounded path -/

section Bounded

variable {capacity : Nat} {base : List κ} {trace taken : List (Visit κ ν)}

/-- The length of a bounded path after one visit. -/
def riseWithin (capacity current : Nat) : Visit κ ν → Nat
  | enter _ => if current < capacity then current + 1 else current
  | leaf _ => current
  | leave => current - 1

@[simp]
theorem length_snoc_concat (visit : Visit κ ν) :
    (pathAfter snoc base (taken ++ [visit])).length =
      visit.rise (pathAfter snoc base taken).length := by
  cases visit <;> simp [path, snoc, rise]

@[simp]
theorem length_within_concat (visit : Visit κ ν) :
    (pathAfter (snocWithin capacity) base (taken ++ [visit])).length =
      visit.riseWithin capacity (pathAfter (snocWithin capacity) base taken).length := by
  rw [pathAfter_concat]
  cases visit with
  | enter key =>
    rw [path, snocWithin, riseWithin, apply_ite length, length_append, length_singleton]
  | leaf value => rfl
  | leave => exact length_dropLast

theorem length_pathAfter_within_le (room : base.length ≤ capacity) :
    (pathAfter (snocWithin capacity) base taken).length ≤ capacity := by
  induction taken using reverseRecOn with
  | nil => exact room
  | append_singleton earlier visit ih =>
    rw [length_within_concat]
    cases visit with
    | enter key =>
      rw [riseWithin]
      split <;> omega
    | leaf value => exact ih
    | leave => exact (Nat.sub_le ..).trans ih

/-- While the unbounded path fits, the bounded one is the same. -/
@[simp]
theorem pathAfter_within_of_fits
    (fits : ∀ entered, entered <+: taken → (pathAfter snoc base entered).length ≤ capacity) :
    pathAfter (snocWithin capacity) base taken = pathAfter snoc base taken := by
  induction taken using reverseRecOn with
  | nil => rfl
  | append_singleton earlier visit ih =>
    have same := ih fun entered isPrefix =>
      fits entered (isPrefix.trans (prefix_append earlier [visit]))
    have here := fits _ prefix_rfl
    rw [pathAfter_concat] at here
    rw [pathAfter_concat, pathAfter_concat, same]
    cases visit with
    | enter key =>
      rw [path, snoc, length_append] at here
      exact if_pos (Nat.lt_of_succ_le here)
    | leaf | leave => rfl

variable {earlier : List (Visit κ ν)}

section

variable (nested : Nested trace)

include nested

/-- The unbounded path of a nested traversal is as long as its base and its
level together. -/
theorem Nested.length_pathAfter (isPrefix : taken <+: trace) :
    (pathAfter snoc base taken).length = base.length + level taken := by
  induction taken using reverseRecOn with
  | nil => rfl
  | append_singleton earlier visit ih =>
    have before := ih ((prefix_append earlier [visit]).trans isPrefix)
    have longer := (nested.below base isPrefix).length_le
    rw [length_snoc_concat] at longer ⊢
    rw [level_concat]
    cases visit <;>
      rw [rise] at longer ⊢ <;>
      rw [rise] <;>
      omega

variable (nonempty : base ≠ [])

include nonempty

/-- The unbounded path of a nested traversal loses one key when it comes back
up, and is never shorter than its base. -/
theorem Nested.length_leave (isPrefix : earlier ++ [leave] <+: trace) :
    (pathAfter snoc base (earlier ++ [leave])).length + 1 =
        (pathAfter snoc base earlier).length ∧
      0 < (pathAfter snoc base (earlier ++ [leave])).length := by
  have longer := (nested.below base isPrefix).length_le
  have positive := length_pos_iff.mpr nonempty
  rw [length_snoc_concat, rise] at longer ⊢
  omega

/-- Once the bounded path is too short, it stays too short. -/
theorem Nested.shorter_append {entered : List (Visit κ ν)}
    (shorter : (pathAfter (snocWithin capacity) base entered).length <
      (pathAfter snoc base entered).length) (later : List (Visit κ ν))
    (isPrefix : entered ++ later <+: trace) :
    (pathAfter (snocWithin capacity) base (entered ++ later)).length <
      (pathAfter snoc base (entered ++ later)).length := by
  induction later using reverseRecOn with
  | nil => rwa [append_nil]
  | append_singleton earlier visit ih =>
    rw [← append_assoc] at isPrefix ⊢
    have before := ih ((prefix_append _ _).trans isPrefix)
    cases visit with
    | enter key =>
      rw [length_within_concat, length_snoc_concat, riseWithin, rise]
      split <;> omega
    | leaf value =>
      rw [length_within_concat, length_snoc_concat]
      exact before
    | leave =>
      have step := nested.length_leave nonempty isPrefix
      rw [length_within_concat, riseWithin]
      omega

/-- At a place of a nested traversal the bounded path is the unbounded one, and
fits, exactly when every path up to there fits. -/
theorem Nested.pathAfter_within_iff (room : base.length ≤ capacity) (isPrefix : taken <+: trace) :
    (pathAfter (snocWithin capacity) base taken = pathAfter snoc base taken ∧
        (pathAfter snoc base taken).length ≤ capacity) ↔
      ∀ entered, entered <+: taken → (pathAfter snoc base entered).length ≤ capacity := by
  constructor
  · rintro ⟨same, _⟩ entered ⟨later, rfl⟩
    by_contra overflow
    have bounded : (pathAfter (snocWithin capacity) base entered).length ≤ capacity :=
      length_pathAfter_within_le room
    have shorter := nested.shorter_append nonempty
      (bounded.trans_lt (Nat.lt_of_not_le overflow)) later isPrefix
    rw [same] at shorter
    exact Nat.lt_irrefl _ shorter
  · intro fits
    exact ⟨pathAfter_within_of_fits fits, fits taken prefix_rfl⟩

end

/-- Up to the last value of the trace, no path that starts with a base of this
size is longer than the capacity. -/
def Fits (capacity size : Nat) (trace : List (Visit κ ν)) : Prop :=
  ∀ before value after, trace = before ++ leaf value :: after →
    ∀ entered, entered <+: before → size + level entered ≤ capacity

/-- A bounded traversal reaches every value where the unbounded one does, at a
path that fits, exactly when every path up to the last value fits. -/
theorem Nested.reached_within_iff (nested : Nested trace) (nonempty : base ≠ [])
    (room : base.length ≤ capacity) :
    (reached (snocWithin capacity) base trace = reached snoc base trace ∧
        ∀ place value, (place, value) ∈ reached snoc base trace → place.length ≤ capacity) ↔
      Fits capacity base.length trace := by
  constructor
  · rintro ⟨same, short⟩ before value after split entered enteredPrefix
    have isPrefix : before <+: trace := ⟨_, split.symm⟩
    rw [← nested.length_pathAfter (enteredPrefix.trans isPrefix)]
    apply (nested.pathAfter_within_iff nonempty room isPrefix).mp _ entered enteredPrefix
    exact ⟨reached_eq_iff.mp same before value after split,
      short _ value (mem_reached_iff.mpr ⟨before, after, split, rfl⟩)⟩
  · intro fits
    have lengths : ∀ before value after, trace = before ++ .leaf value :: after →
        ∀ entered, entered <+: before → (pathAfter snoc base entered).length ≤ capacity := by
      intro before value after split entered enteredPrefix
      rw [nested.length_pathAfter (enteredPrefix.trans ⟨_, split.symm⟩)]
      exact fits before value after split entered enteredPrefix
    constructor
    · apply reached_eq_iff.mpr
      intro before value after split
      exact pathAfter_within_of_fits (lengths before value after split)
    · intro place value member
      rcases mem_reached_iff.mp member with ⟨before, after, split, rfl⟩
      exact lengths before value after split before prefix_rfl

/-- No path of the trace is longer than the capacity. -/
def Stays (capacity : Nat) (base : List κ) (trace : List (Visit κ ν)) : Prop :=
  ∀ entered, entered <+: trace → (pathAfter snoc base entered).length ≤ capacity

theorem stays_nil (room : base.length ≤ capacity) :
    Stays capacity base ([] : List (Visit κ ν)) := by
  intro entered isPrefix
  rw [prefix_nil.mp isPrefix]
  exact room

theorem Stays.cons {visit : Visit κ ν} (room : base.length ≤ capacity)
    (stays : Stays capacity (visit.path snoc base) trace) :
    Stays capacity base (visit :: trace) := by
  intro entered isPrefix
  rcases prefix_cons_iff.mp isPrefix with rfl | ⟨rest, rfl, restPrefix⟩
  · exact room
  · exact stays rest restPrefix

theorem Stays.append {first second : List (Visit κ ν)} (staysFirst : Stays capacity base first)
    (staysSecond : Stays capacity (pathAfter snoc base first) second) :
    Stays capacity base (first ++ second) := by
  rintro entered ⟨remaining, split⟩
  rcases append_eq_append_iff.mp split with ⟨inside, rfl, _⟩ | ⟨rest, rfl, rfl⟩
  · exact staysFirst entered (prefix_append entered inside)
  · rw [pathAfter_append]
    exact staysSecond rest (prefix_append rest remaining)

theorem Stays.fits (stays : Stays capacity base trace) (nested : Nested trace) :
    Fits capacity base.length trace := by
  intro before value after split entered isPrefix
  have within : entered <+: trace := isPrefix.trans ⟨_, split.symm⟩
  rw [← nested.length_pathAfter within]
  exact stays entered within

/-- The paths of a bounded traversal are never longer than the capacity. -/
theorem length_of_mem_reached (room : base.length ≤ capacity) {place : List κ} {value : ν}
    (member : (place, value) ∈ reached (snocWithin capacity) base trace) :
    place.length ≤ capacity := by
  rcases mem_reached_iff.mp member with ⟨before, after, -, rfl⟩
  exact length_pathAfter_within_le room

/-! ## Staying below the base -/

/-- Between two moments of the trace the level never falls by more than the
room the capacity leaves above a base of this size. -/
def ClimbsWithin (capacity size : Nat) (taken : List (Visit κ ν)) : Prop :=
  ∀ high low, high <+: low → low <+: taken → size + level high ≤ capacity + level low

theorem ClimbsWithin.mono {size : Nat} (climbs : ClimbsWithin capacity size taken)
    (isPrefix : earlier <+: taken) : ClimbsWithin capacity size earlier :=
  fun high low inLow inEarlier => climbs high low inLow (inEarlier.trans isPrefix)

/-- The bounded path has the length of the unbounded one, or has lost what the
unbounded path climbed since a moment at which the bounded one was full. -/
def Tracks (capacity : Nat) (base : List κ) (taken : List (Visit κ ν)) : Prop :=
  (pathAfter (snocWithin capacity) base taken).length = (pathAfter snoc base taken).length ∨
    ∃ high, high <+: taken ∧
      (pathAfter (snocWithin capacity) base taken).length + (pathAfter snoc base high).length =
        capacity + (pathAfter snoc base taken).length

theorem Tracks.base_le (tracks : Tracks capacity base taken) (nested : Nested trace)
    (isPrefix : taken <+: trace)
    (climbs : ClimbsWithin capacity base.length taken) :
    base.length ≤ (pathAfter (snocWithin capacity) base taken).length := by
  rcases tracks with same | ⟨high, highPrefix, lost⟩
  · rw [same]
    exact (nested.below base isPrefix).length_le
  · have climbed := climbs high taken highPrefix prefix_rfl
    rw [nested.length_pathAfter isPrefix,
      nested.length_pathAfter (highPrefix.trans isPrefix)] at lost
    omega

/-- A visit that changes both lengths alike keeps them in step. -/
theorem Tracks.concat {visit : Visit κ ν} (tracks : Tracks capacity base taken)
    (alike : (pathAfter (snocWithin capacity) base (taken ++ [visit])).length +
        (pathAfter snoc base taken).length =
      (pathAfter (snocWithin capacity) base taken).length +
        (pathAfter snoc base (taken ++ [visit])).length) :
    Tracks capacity base (taken ++ [visit]) := by
  rcases tracks with same | ⟨high, highPrefix, lost⟩
  · apply Or.inl
    omega
  · apply Or.inr
    refine ⟨high, highPrefix.trans (prefix_append taken [visit]), ?_⟩
    omega

section

variable (nested : Nested trace) (nonempty : base ≠ [])

include nested nonempty

section

variable (room : base.length ≤ capacity) (isPrefix : taken <+: trace)
  (climbs : ClimbsWithin capacity base.length taken)

include room isPrefix climbs

theorem Nested.tracks : Tracks capacity base taken := by
  induction taken using reverseRecOn with
  | nil => exact .inl rfl
  | append_singleton earlier visit ih =>
    have inside : earlier <+: earlier ++ [visit] := prefix_append earlier [visit]
    have before := ih (inside.trans isPrefix) (climbs.mono inside)
    cases visit with
    | enter key =>
      by_cases free : (pathAfter (snocWithin capacity) base earlier).length < capacity
      · apply before.concat
        rw [length_within_concat, length_snoc_concat, riseWithin, rise, if_pos free]
        omega
      · have full : (pathAfter (snocWithin capacity) base earlier).length ≤ capacity :=
          length_pathAfter_within_le room
        apply Or.inr
        refine ⟨earlier ++ [enter key], prefix_rfl, ?_⟩
        rw [length_within_concat, riseWithin, if_neg free]
        omega
    | leaf value =>
      apply before.concat
      rw [length_within_concat, length_snoc_concat]
      rfl
    | leave =>
      apply before.concat
      have kept := before.base_le nested (inside.trans isPrefix) (climbs.mono inside)
      have positive := length_pos_iff.mpr nonempty
      have step := nested.length_leave nonempty isPrefix
      rw [length_within_concat, riseWithin]
      omega

/-- A traversal that does not climb too far stays below its base. -/
theorem Nested.base_prefix_within : base <+: pathAfter (snocWithin capacity) base taken := by
  induction taken using reverseRecOn with
  | nil => exact prefix_rfl
  | append_singleton earlier visit ih =>
    have inside : earlier <+: earlier ++ [visit] := prefix_append earlier [visit]
    have before := ih (inside.trans isPrefix) (climbs.mono inside)
    have kept := (nested.tracks nonempty room isPrefix climbs).base_le nested
      isPrefix climbs
    rw [pathAfter_concat] at kept ⊢
    cases visit with
    | enter key =>
      rw [path, snocWithin]
      split
      · exact before.trans (prefix_append _ _)
      · exact before
    | leaf value => exact before
    | leave => exact prefix_of_prefix_length_le before ( dropLast_prefix _) kept

end

/-- From any moment on, the bounded path is shorter than the base at some point,
or gains no more than the unbounded one. -/
theorem Nested.short_or_gains_le (high later : List (Visit κ ν))
    (isPrefix : high ++ later <+: trace) :
    (∃ entered, entered <+: high ++ later ∧
        (pathAfter (snocWithin capacity) base entered).length < base.length) ∨
      (pathAfter (snocWithin capacity) base (high ++ later)).length +
          (pathAfter snoc base high).length ≤
        (pathAfter (snocWithin capacity) base high).length +
          (pathAfter snoc base (high ++ later)).length := by
  induction later using reverseRecOn with
  | nil =>
    rw [append_nil]
    exact .inr (Nat.le_refl _)
  | append_singleton earlier visit ih =>
    rw [← append_assoc] at isPrefix ⊢
    have inside : high ++ earlier <+: high ++ earlier ++ [visit] := prefix_append _ _
    rcases ih (inside.trans isPrefix) with ⟨entered, enteredPrefix, short⟩ | gains
    · exact .inl ⟨entered, enteredPrefix.trans inside, short⟩
    cases visit with
    | enter key =>
      apply Or.inr
      rw [length_within_concat, length_snoc_concat, riseWithin, rise]
      split <;> omega
    | leaf value =>
      apply Or.inr
      rw [length_within_concat, length_snoc_concat]
      exact gains
    | leave =>
      by_cases short : (pathAfter (snocWithin capacity) base (high ++ earlier)).length <
          base.length
      · exact .inl ⟨high ++ earlier, inside, short⟩
      · apply Or.inr
        have positive := length_pos_iff.mpr nonempty
        have step := nested.length_leave nonempty isPrefix
        rw [length_within_concat, riseWithin]
        omega

/-- If the unbounded path climbs further than the room above the base, then at
some moment the bounded one is shorter than the base. -/
theorem Nested.exists_short (room : base.length ≤ capacity) (isPrefix : taken <+: trace)
    (climbs : ¬ClimbsWithin capacity base.length taken) :
    ∃ entered, entered <+: taken ∧
      (pathAfter (snocWithin capacity) base entered).length < base.length := by
  unfold ClimbsWithin at climbs
  push Not at climbs
  rcases climbs with ⟨high, low, ⟨later, rfl⟩, lowPrefix, climbed⟩
  have full : (pathAfter (snocWithin capacity) base high).length ≤ capacity :=
    length_pathAfter_within_le room
  rcases nested.short_or_gains_le nonempty high later (lowPrefix.trans isPrefix) with
    ⟨entered, enteredPrefix, short⟩ | gains
  · exact ⟨entered, enteredPrefix.trans lowPrefix, short⟩
  · refine ⟨high ++ later, lowPrefix, ?_⟩
    have inTrace := lowPrefix.trans isPrefix
    rw [nested.length_pathAfter inTrace,
      nested.length_pathAfter ((prefix_append high later).trans inTrace)] at gains
    omega

end

/-- Once the path is shorter than some length, a key found at the end of that
length is one entered later. -/
theorem key_entered {current : List κ} {size : Nat} (short : current.length < size)
    {later : List (Visit κ ν)} {key : κ}
    (found : (pathAfter (snocWithin capacity) current later)[size - 1]? = some key) :
    enter key ∈ later := by
  induction later using reverseRecOn generalizing key with
  | nil =>
    rw [pathAfter_nil, getElem?_eq_none (by omega)] at found
    cases found
  | append_singleton earlier visit ih =>
    rw [pathAfter_concat] at found
    rw [mem_append, mem_singleton]
    cases visit with
    | enter other =>
      rw [path, snocWithin] at found
      split at found
      · rw [getElem?_append] at found
        split at found
        · exact .inl (ih found)
        · rw [getElem?_singleton] at found
          split at found
          · cases found
            exact .inr rfl
          · cases found
      · exact .inl (ih found)
    | leaf value => exact .inl (ih found)
    | leave =>
      rw [path, getElem?_dropLast] at found
      split at found
      · exact .inl (ih found)
      · cases found

/-- A bounded traversal that never enters the last key of its base stays below
the base exactly when it does not climb too far. -/
theorem Nested.base_prefix_within_iff (nested : Nested trace) {above : List κ} {last : κ}
    (room : above.length < capacity) (isPrefix : taken <+: trace) (fresh : enter last ∉ taken) :
    above ++ [last] <+: pathAfter (snocWithin capacity) (above ++ [last]) taken ↔
      ClimbsWithin capacity (above ++ [last]).length taken := by
  have nonempty : above ++ [last] ≠ [] := by simp
  have fits : (above ++ [last]).length ≤ capacity := by
    rw [length_append]
    exact room
  constructor
  · intro extended
    by_contra climbs
    rcases nested.exists_short nonempty fits isPrefix climbs with
      ⟨entered, ⟨later, rfl⟩, short⟩
    apply fresh
    apply mem_append_right
    apply key_entered short
    rw [← pathAfter_append]
    rcases extended with ⟨rest, equal⟩
    rw [← equal]
    simp
  · exact nested.base_prefix_within nonempty fits isPrefix

end Bounded

end Visit

end GreengrassLite.Library

import GreengrassLite.Config.Merge

/-!
# Where a merge writes

A request to merge a value at a key path should only change keys at or below
that path.  Here the single write is any function that changes nothing but the
path it is handed, and the store any state with a content for each path.

The walk stays below the key path exactly when it never comes back up further
than the room the fifteen keys leave above the path.  Once it does, keys of the
path are gone, and the next keys of the value take their places.
-/

namespace GreengrassLite

open Library List Visit

variable {timestamp : Int}
  {key : List Buffer}

namespace Config

universe u v

variable {σ : Type u} {α : Type v} {printG : UInt64 → Buffer} {write : WriteValue σ}

/-- The text of a value fits the buffer of `process_nonmap`. -/
def Encodes (printG : UInt64 → Buffer) (value : GglObject) : Prop :=
  ∃ text, Json.gglJsonEncode 1024 printG value = .ok text

/-- A write changes the content of no path but the one it is handed. -/
def WritesOnly (content : σ → List Buffer → α) (write : WriteValue σ) : Prop :=
  ∀ store keyPath value timestamp other, other ≠ keyPath →
    content (write store keyPath value timestamp).2 other = content store other

/-- Before each leaf the traversal gets to, it has not come back up further
than the room above a key path of this size.  It does not get past a leaf whose
text does not fit. -/
def Roomy (printG : UInt64 → Buffer) (size : Nat) (value : GglObject) : Prop :=
  ∀ before leaf after, value.visits = before ++ .leaf leaf :: after →
    (∀ other, .leaf other ∈ before → Encodes printG other) → Encodes printG leaf →
    Visit.ClimbsWithin maxObjectDepth size before

variable {content : σ → List Buffer → α} {leaves : List (List Buffer × GglObject)} {params : GglMap}
  {value : GglObject}

/-- What the writing of leaves changes is the path of a leaf that was got to. -/
theorem WritesOnly.exists_leaf (only : WritesOnly content write) {store : σ}
    (changed : content (writeLeaves printG write timestamp leaves store).2 key ≠
      content store key) :
    ∃ first value last, leaves = first ++ (key, value) :: last ∧
      (∀ leaf ∈ first, Encodes printG leaf.2) ∧ Encodes printG value := by
  induction leaves generalizing store with
  | nil => exact absurd rfl changed
  | cons leaf rest ih =>
    rw [writeLeaves, processNonmap] at changed
    cases encoded : Json.gglJsonEncode 1024 printG leaf.2 with
    | error error =>
      rw [encoded] at changed
      exact absurd rfl changed
    | ok text =>
      by_cases here : key = leaf.1
      · exact ⟨[], leaf.2, rest, by rw [here]; rfl, by simp, text, encoded⟩
      · have kept := only store leaf.1 text timestamp key here
        rw [encoded] at changed
        dsimp only at changed
        generalize write store leaf.1 text timestamp = outcome at changed kept
        rcases outcome with ⟨error | ok, next⟩
        · exact absurd kept changed
        · rw [← kept] at changed
          rcases ih changed with ⟨first, value, last, rfl, earlier, fits⟩
          refine ⟨leaf :: first, value, last, rfl, ?_, fits⟩
          rw [forall_mem_cons]
          exact ⟨⟨text, encoded⟩, earlier⟩

/-- A merge of a value that leaves enough room changes only keys at or below
its key path. -/
theorem Requests.keys_prefix_of_changed (only : WritesOnly content write) {now : Int}
    {keys : List Buffer} (request : Requests now params keys value timestamp)
    (nonempty : keys ≠ []) (short : keys.length ≤ maxObjectDepth)
    (roomy : Roomy printG keys.length value) {store : σ}
    (changed : content (rpcWrite printG write now params store).2 key ≠ content store key) :
    keys <+: key := by
  rw [request.rpcWrite_eq short] at changed
  rcases only.exists_leaf changed with ⟨first, leaf, last, split, earlier, fits⟩
  rcases exists_split_of_reached split with ⟨before, after, traceSplit, rfl, rfl⟩
  apply value.visits_nested.base_prefix_within nonempty short ⟨_, traceSplit.symm⟩
  apply roomy before leaf after traceSplit _ fits
  intro other member
  rcases append_of_mem member with ⟨upto, onwards, otherSplit⟩
  exact earlier (_, other) (mem_reached_iff.mpr ⟨upto, onwards, otherSplit, rfl⟩)

/-! ## A store of paths -/

/-- The store that maps each path to what was last written there. -/
def updateWrite : WriteValue (List Buffer → Option Buffer) :=
  fun store keyPath value _ =>
    (.ok (), fun other => if other = keyPath then some value else store other)

/-- What is stored stays stored. -/
theorem writeLeaves_update_kept {store : List Buffer → Option Buffer} (stored : store key ≠ none) :
    (writeLeaves printG updateWrite timestamp leaves store).2 key ≠ none := by
  induction leaves generalizing store with
  | nil => exact stored
  | cons leaf rest ih =>
    rw [writeLeaves, processNonmap]
    cases encoded : Json.gglJsonEncode 1024 printG leaf.2 with
    | error error => exact stored
    | ok text =>
      apply ih
      split
      · simp
      · exact stored

/-- A leaf that is got to is stored. -/
theorem writeLeaves_update_stored {first last : List (List Buffer × GglObject)}
    {store : List Buffer → Option Buffer} (earlier : ∀ leaf ∈ first, Encodes printG leaf.2)
    (fits : Encodes printG value) :
    (writeLeaves printG updateWrite timestamp (first ++ (key, value) :: last) store).2 key ≠
      none := by
  induction first generalizing store with
  | nil =>
    rcases fits with ⟨text, encoded⟩
    rw [nil_append, writeLeaves, processNonmap, encoded]
    apply writeLeaves_update_kept
    simp
  | cons leaf rest ih =>
    rw [forall_mem_cons] at earlier
    rcases earlier.1 with ⟨text, encoded⟩
    rw [cons_append, writeLeaves, processNonmap, encoded]
    exact ih earlier.2

/-- A merge that does not leave enough room changes a key elsewhere, if the last
key of its key path does not happen to be a key of the value. -/
theorem Requests.exists_changed_elsewhere {now : Int} {above : List Buffer} {last : Buffer}
    (request : Requests now params (above ++ [last]) value timestamp)
    (short : above.length < maxObjectDepth) (fresh : .enter last ∉ value.visits)
    (tight : ¬Roomy printG (above ++ [last]).length value) :
    ∃ key, (rpcWrite printG updateWrite now params fun _ => none).2 key ≠ none ∧
      ¬above ++ [last] <+: key := by
  unfold Roomy at tight
  push Not at tight
  rcases tight with ⟨before, leaf, after, split, earlier, fits, climbs⟩
  have isPrefix : before <+: value.visits := ⟨_, split.symm⟩
  refine ⟨pathAfter (snocWithin maxObjectDepth) (above ++ [last]) before, ?_, ?_⟩
  · rw [request.rpcWrite_eq (by rw [length_append]; exact short), split,
      reached_append, reached]
    apply writeLeaves_update_stored _ fits
    intro other member
    rcases mem_reached_iff.mp member with ⟨upto, onwards, rfl, _⟩
    exact earlier other.2 (by simp)
  · intro extended
    apply climbs
    apply (value.visits_nested.base_prefix_within_iff short isPrefix _).mp extended
    intro member
    exact fresh (isPrefix.subset member)

end Config

end GreengrassLite

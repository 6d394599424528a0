import GreengrassLite.Config.StoredText

/-!
# The contents of the configuration

At a path the configuration holds the value of a text, a map if something is stored
further below, or nothing.  An answer of `rpc_read` is compared with that path by
path: a complete answer has the content of the configuration at every path.
-/

namespace GreengrassLite.Config

open GreengrassLite.Library List GglObject Database

/-! ## Contents -/

/-- This is what the configuration holds at a path: a value of which the text decodes to this one,
a map where something is stored further below, or nothing. -/
def ContentIs (decoder : JsonDecoder) (database : Database) (path : List Buffer) :
    Option GglObject.Content → Prop
  | some (.leaf value) =>
    ∃ text time, database.Stored path text time ∧ Decodes decoder text value
  | some .map => ∃ more text time, more ≠ [] ∧ database.Stored (path ++ more) text time
  | none => ∀ more text time, ¬database.Stored (path ++ more) text time

section Contents

variable {decoder : JsonDecoder} {database : Database} {path : List Buffer} {text : Buffer}

/-- Nothing is stored below a key with a value. -/
theorem not_stored_below (wf : database.Wf) {other : Buffer} {time otherTime : Int}
    {more : List Buffer} (stored : database.Stored path text time) (nonempty : more ≠ []) :
    ¬database.Stored (path ++ more) other otherTime := by
  intro below
  have same := stored.eq_of_isPrefix wf below (prefix_append path more)
  exact nonempty (self_eq_append_right.mp same)

/-- What is stored at a path is its content. -/
theorem content_of_stored (wf : database.Wf) {time : Int}
    (stored : database.Stored path text time) {content : Option GglObject.Content}
    (isContent : ContentIs decoder database path content) :
    ∃ value, content = some (.leaf value) ∧ Decodes decoder text value := by
  cases content with
  | none =>
    rw [← append_nil path] at stored
    exact absurd stored (isContent [] text time)
  | some content =>
    cases content with
    | leaf value =>
      obtain ⟨other, otherTime, otherStored, decodes⟩ := isContent
      obtain ⟨rfl, -⟩ := stored.unique wf otherStored
      exact ⟨value, rfl, decodes⟩
    | map =>
      obtain ⟨more, other, otherTime, nonempty, below⟩ := isContent
      exact absurd below (not_stored_below wf stored nonempty)

theorem contentIs_unique (unique : OneValue decoder) (wf : database.Wf)
    {first second : Option GglObject.Content} (isFirst : ContentIs decoder database path first)
    (isSecond : ContentIs decoder database path second) : first = second := by
  have leaf : ∀ {value other}, ContentIs decoder database path (some (.leaf value)) →
      ContentIs decoder database path other → some (.leaf value) = other := by
    rintro value other ⟨text, time, stored, decodes⟩ isOther
    obtain ⟨otherValue, rfl, otherDecodes⟩ := content_of_stored wf stored isOther
    rw [unique decodes otherDecodes]
  have apart : ContentIs decoder database path none →
      ¬ContentIs decoder database path (some .map) := by
    rintro nothing ⟨more, text, time, -, stored⟩
    exact nothing more text time stored
  match first, second with
  | some (.leaf _), _ => exact leaf isFirst isSecond
  | _, some (.leaf _) => exact (leaf isSecond isFirst).symm
  | none, none | some .map, some .map => rfl
  | none, some .map => exact absurd isSecond (apart isFirst)
  | some .map, none => exact absurd isFirst (apart isSecond)

/-- A complete answer has the content of the configuration at every path. -/
theorem contentIs_of_complete {answer : GglObject} (wellNested : answer.WellNested)
    (complete : Complete decoder database path answer) (rest : List Buffer) :
    ContentIs decoder database (path ++ rest) (answer.contentAt rest) := by
  have distinct := wellNested.distinctKeys
  cases found : answer.objectAt rest with
  | none =>
    rw [contentAt, found]
    intro more text time stored
    rw [append_assoc] at stored
    obtain ⟨value, -, member⟩ := complete.appears _ text time stored
    have there := (objectAt_of_mem_leaves distinct member).1
    rw [objectAt_append, found] at there
    cases there
  | some object =>
    rw [contentAt, found]
    cases object using map_cases with
    | leaf object isLeaf =>
      rw [Option.map_some, content_of_not_map isLeaf]
      exact complete.only rest object (mem_leaves_of_leafAt found isLeaf)
    | map pairs =>
      obtain ⟨⟨more, leaf⟩, member⟩ := exists_mem_leaves (wellNested_of_objectAt wellNested found)
      obtain ⟨text, time, stored, -⟩ := complete.only _ leaf (mem_leaves_of_objectAt found member)
      rw [← append_assoc] at stored
      exact ⟨more, text, time, ne_nil_of_mem_pairsLeaves member, stored⟩

end Contents

end GreengrassLite.Config

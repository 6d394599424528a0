import GreengrassLite.Core.Map
import Mathlib.Data.List.Nodup

/-!
# What stands at a path

An object is followed along keys with `ggl_map_get`.  At the end of a path stands
a map, a value that is no map, or nothing; objects whose maps have the same
content at every path differ at most in the order of pairs and in pairs that are
hidden behind an earlier one of the same key.
-/

namespace GreengrassLite

open List

variable {key : Buffer} {value leaf : GglObject} {rest : List Buffer}

theorem mem_of_gglMapGet {pairs : GglMap} (found : gglMapGet pairs key = some value) :
    (key, value) ∈ pairs := by
  obtain ⟨pair, first, rfl⟩ := Option.map_eq_some_iff.mp found
  have same : pair.1 = key := by simpa using find?_some first
  rw [← same]
  exact mem_of_find?_eq_some first

theorem gglMapGet_of_mem {pairs : GglMap} (distinct : (pairs.map Prod.fst).Nodup)
    (member : (key, value) ∈ pairs) : gglMapGet pairs key = some value := by
  cases found : gglMapGet pairs key with
  | none =>
    have missing := find?_eq_none.mp (Option.map_eq_none_iff.mp found) _ member
    exact absurd (decide_eq_true rfl) missing
  | some other =>
    have same := inj_on_of_nodup_map distinct member (mem_of_gglMapGet found) rfl
    cases same
    rfl

namespace GglObject

/-- What stands at a path: a map, or a value that is no map. -/
inductive Content where
  | leaf (value : GglObject)
  | map

def content : GglObject → Content
  | map _ => .map
  | value => .leaf value

/-- The object that the keys of a path lead to. -/
def objectAt : GglObject → List Buffer → Option GglObject
  | object, [] => some object
  | map pairs, key :: rest => (gglMapGet pairs key).bind fun value => value.objectAt rest
  | _, _ :: _ => none

def contentAt (object : GglObject) (path : List Buffer) : Option Content :=
  (object.objectAt path).map content

mutual

/-- No map in the object has a key twice. -/
def DistinctKeys : GglObject → Prop
  | map pairs => (pairs.map Prod.fst).Nodup ∧ PairsDistinctKeys pairs
  | _ => True

/-- No map in the values has a key twice. -/
def PairsDistinctKeys : GglMap → Prop
  | [] => True
  | (_, value) :: rest => DistinctKeys value ∧ PairsDistinctKeys rest

end

variable {object : GglObject} {pairs : GglMap} {path : List Buffer}

@[simp]
theorem content_of_not_map (isLeaf : object.isMap = false) : object.content = .leaf object := by
  cases object with
  | map pairs => cases isLeaf
  | _ => rfl

@[simp]
theorem objectAt_nil (object : GglObject) : object.objectAt [] = some object := by
  cases object <;> rfl

/-- A path with a key leads somewhere only through a pair of a map. -/
theorem objectAt_cons_eq_some {inner : GglObject}
    (found : object.objectAt (key :: rest) = some inner) :
    ∃ pairs value, object = map pairs ∧ gglMapGet pairs key = some value ∧
      value.objectAt rest = some inner := by
  cases object with
  | map pairs =>
    obtain ⟨value, got, later⟩ := Option.bind_eq_some_iff.mp found
    exact ⟨pairs, value, rfl, got, later⟩
  | _ => cases found

@[simp]
theorem objectAt_append (object : GglObject) (first second : List Buffer) :
    object.objectAt (first ++ second) =
      (object.objectAt first).bind fun inner => inner.objectAt second := by
  induction first generalizing object with
  | nil => rw [objectAt_nil, nil_append, Option.bind_some]
  | cons key first ih =>
    cases object with
    | map pairs =>
      rw [cons_append, objectAt, objectAt]
      cases gglMapGet pairs key with
      | none => rfl
      | some value => exact ih value
    | _ => rfl

/-- The leaves of an inner object are leaves of the whole, behind its path. -/
theorem mem_leaves_of_objectAt {inner : GglObject} (found : object.objectAt path = some inner)
    (member : (rest, leaf) ∈ inner.leaves) : (path ++ rest, leaf) ∈ object.leaves := by
  induction path generalizing object with
  | nil =>
    cases found
    exact member
  | cons key path ih =>
    rcases objectAt_cons_eq_some found with ⟨pairs, value, rfl, got, later⟩
    exact mem_pairsLeaves_iff.mpr ⟨_, mem_of_gglMapGet got, _, rfl, ih later⟩

theorem mem_leaves_of_leafAt (found : object.objectAt path = some leaf)
    (noMap : leaf.isMap = false) : (path, leaf) ∈ object.leaves := by
  have here : ([], leaf) ∈ leaf.leaves := by
    rw [leaves_of_not_map noMap]
    exact mem_cons_self
  simpa using mem_leaves_of_objectAt found here

theorem distinctKeys_of_mem {pair : Buffer × GglObject} (distinct : PairsDistinctKeys pairs)
    (member : pair ∈ pairs) : pair.2.DistinctKeys := by
  induction pairs with
  | nil => cases member
  | cons first rest ih =>
    rcases mem_cons.mp member with rfl | later
    · exact distinct.1
    · exact ih distinct.2 later

/-- With distinct keys every leaf is found at its path. -/
theorem objectAt_of_mem_leaves (distinct : object.DistinctKeys)
    (member : (path, leaf) ∈ object.leaves) :
    object.objectAt path = some leaf ∧ leaf.isMap = false := by
  induction path generalizing object with
  | nil =>
    cases object using map_cases with
    | leaf object isLeaf =>
      cases eq_of_nil_mem_leaves member
      exact ⟨objectAt_nil _, isLeaf⟩
    | map pairs => exact absurd rfl (ne_nil_of_mem_pairsLeaves member)
  | cons key path ih =>
    cases object using map_cases with
    | leaf object isLeaf =>
      rw [leaves_of_not_map isLeaf] at member
      simp at member
    | map pairs =>
      rcases mem_pairsLeaves_iff.mp member with ⟨pair, inside, rest, same, below⟩
      cases same
      obtain ⟨found, isLeaf⟩ := ih (distinctKeys_of_mem distinct.2 inside) below
      rw [objectAt, gglMapGet_of_mem distinct.1 inside]
      exact ⟨found, isLeaf⟩

theorem distinctKeys_of_pairsWellNested (pairs : GglMap) (wellNested : PairsWellNested pairs) :
    PairsDistinctKeys pairs := by
  induction pairs using pairs_induction with
  | nil => trivial
  | nested key pairs rest ihPairs ihRest =>
    exact ⟨⟨wellNested.1.2.1, ihPairs wellNested.1.2.2⟩, ihRest wellNested.2⟩
  | leaf key value rest isLeaf ihRest =>
    refine ⟨?_, ihRest wellNested.2⟩
    cases value with
    | map pairs => cases isLeaf
    | _ => trivial

theorem WellNested.distinctKeys (wellNested : object.WellNested) : object.DistinctKeys := by
  cases object with
  | map pairs => exact ⟨wellNested.2.1, distinctKeys_of_pairsWellNested pairs wellNested.2.2⟩
  | _ => trivial

theorem wellNested_of_objectAt {inner : GglObject} (wellNested : object.WellNested)
    (found : object.objectAt path = some inner) : inner.WellNested := by
  induction path generalizing object with
  | nil =>
    cases found
    exact wellNested
  | cons key path ih =>
    rcases objectAt_cons_eq_some found with ⟨pairs, value, rfl, got, later⟩
    exact ih (wellNested_of_mem wellNested.2.2 (mem_of_gglMapGet got)) later

end GglObject

end GreengrassLite

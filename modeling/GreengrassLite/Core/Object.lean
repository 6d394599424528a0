import Mathlib.Data.List.Basic

/-!
# Buffers, errors and dynamic objects

The data every daemon exchanges: byte buffers, the error codes of `ggl/error.h`
and the tagged union `GglObject`.  `GGL_ERR_OK` has no constructor here, because
a fallible function returns an `Except GglError` whose `ok` branch plays that
role.

Maps nest through lists of pairs, so Lean generates one recursor with four
motives.  The single principle `GglObject.pairs_induction` packages the shape
every function over a map actually recurses on: a pair is either a map, whose
own pairs are visited first, or a leaf.
-/

namespace GreengrassLite

open List

variable {motive : GglMap → Prop} {pairs : GglMap}

universe u

/-- A `GglBuffer`: only its bytes matter, never their address. -/
abbrev Buffer := List UInt8

/-- `GGL_STR` of an ASCII string literal. -/
def gglStr (literal : String) : Buffer :=
  literal.toList.map fun char => UInt8.ofNat char.toNat

/-- `ggl_buffer_substr`. -/
def gglBufferSubstr (buf : Buffer) (start stop : Nat) : Buffer :=
  (buf.take stop).drop start

/-- `GGL_MAX_OBJECT_DEPTH`. -/
def maxObjectDepth : Nat := 15

/-- The failing error codes of `ggl/error.h`. -/
inductive GglError where
  | failure
  | retry
  | busy
  | fatal
  | invalid
  | unsupported
  | parse
  | range
  | nomem
  | noconn
  | nodata
  | noentry
  | config
  | remote
  | expected
  deriving DecidableEq, Repr

/-- A fallible computation succeeds when both of its parts do. -/
theorem except_bind_eq_ok_iff {ε α β : Type u} {first : Except ε α} {next : α → Except ε β}
    {result : β} :
    first >>= next = .ok result ↔ ∃ middle, first = .ok middle ∧ next middle = .ok result := by
  cases first with
  | error | ok => simp [bind, Except.bind]

/-- What every round of a loop keeps holds when the loop ends without error. -/
theorem foldlM_invariant {ε α β : Type u} {step : β → α → Except ε β} (holds : β → Prop)
    {items : List α}
    (kept : ∀ item ∈ items, ∀ {state next : β}, step state item = .ok next → holds state →
      holds next)
    {state final : β} (ended : items.foldlM step state = .ok final) (initial : holds state) :
    holds final := by
  induction items generalizing state with
  | nil =>
    cases ended
    exact initial
  | cons item rest ih =>
    rw [foldlM_cons, except_bind_eq_ok_iff] at ended
    rcases ended with ⟨middle, first, later⟩
    apply ih (fun other member => kept other (mem_cons_of_mem _ member)) later
    exact kept item mem_cons_self first initial

/-- `GglObject`.  A double is kept as its bit pattern. -/
inductive GglObject where
  | null
  | boolean (value : Bool)
  | i64 (value : Int)
  | f64 (bits : UInt64)
  | buf (bytes : Buffer)
  | list (items : List GglObject)
  | map (pairs : List (Buffer × GglObject))
  deriving Repr, Inhabited

/-- `GglMap`: the pairs in the order they are stored, duplicates included. -/
abbrev GglMap := List (Buffer × GglObject)

/-- `GglObjectType`, the union tag of a `GglObject`. -/
inductive GglObjectType where
  | null
  | boolean
  | i64
  | f64
  | buf
  | list
  | map
  deriving DecidableEq, Repr

namespace GglObject

/-- The `type` field of an object. -/
def type : GglObject → GglObjectType
  | null => .null
  | boolean _ => .boolean
  | i64 _ => .i64
  | f64 _ => .f64
  | buf _ => .buf
  | list _ => .list
  | map _ => .map

/-- Whether an object is of `GGL_TYPE_MAP`. -/
def isMap : GglObject → Bool
  | map _ => true
  | _ => false

/-- An object is a map, or a leaf. -/
@[elab_as_elim]
theorem map_cases {motive : GglObject → Prop} (object : GglObject)
    (leaf : ∀ value, value.isMap = false → motive value) (map : ∀ pairs, motive (.map pairs)) :
    motive object := by
  cases object with
  | map pairs => exact map pairs
  | _ => exact leaf _ rfl

/-- Induction over the pairs of a map.  A pair holding a map brings an
induction hypothesis for the nested pairs. -/
@[elab_as_elim]
theorem pairs_induction (nil : motive [])
    (nested : ∀ key pairs rest, motive pairs → motive rest → motive ((key, map pairs) :: rest))
    (leaf : ∀ key value rest, value.isMap = false → motive rest → motive ((key, value) :: rest)) :
    ∀ pairs : GglMap, motive pairs
  | [] => nil
  | (key, map pairs) :: rest =>
    nested key pairs rest (pairs_induction nil nested leaf pairs)
      (pairs_induction nil nested leaf rest)
  | (key, null) :: rest | (key, boolean _) :: rest | (key, i64 _) :: rest
  | (key, f64 _) :: rest | (key, buf _) :: rest | (key, list _) :: rest =>
    leaf key _ rest rfl (pairs_induction nil nested leaf rest)

/-- Induction over objects.  A list and a map bring a hypothesis for each item and value. -/
@[elab_as_elim]
theorem members_induction {motive : GglObject → Prop} (null : motive null)
    (boolean : ∀ value, motive (boolean value)) (i64 : ∀ value, motive (i64 value))
    (f64 : ∀ bits, motive (f64 bits)) (buf : ∀ bytes, motive (buf bytes))
    (list : ∀ items, (∀ item ∈ items, motive item) → motive (list items))
    (map : ∀ pairs : GglMap, (∀ pair ∈ pairs, motive pair.2) → motive (map pairs))
    (object : GglObject) : motive object :=
  @GglObject.rec motive (fun items => ∀ item ∈ items, motive item)
    (fun pairs => ∀ pair ∈ pairs, motive pair.2) (fun pair => motive pair.2)
    null boolean i64 f64 buf list map (by simp)
    (fun _ _ item items => forall_mem_cons.mpr ⟨item, items⟩) (by simp)
    (fun _ _ pair pairs => forall_mem_cons.mpr ⟨pair, pairs⟩) (fun _ _ value => value) object

mutual

/-- Number of container levels of an object, a scalar having none.  This is
what `NestingState` counts while an object is serialised. -/
def depth : GglObject → Nat
  | list items => 1 + listDepth items
  | map pairs => 1 + pairsDepth pairs
  | _ => 0

/-- Greatest container depth among the items of a list. -/
def listDepth : List GglObject → Nat
  | [] => 0
  | item :: rest => max (depth item) (listDepth rest)

/-- Greatest container depth among the values of a map. -/
def pairsDepth : GglMap → Nat
  | [] => 0
  | (_, value) :: rest => max (depth value) (pairsDepth rest)

end

mutual

/-- The leaves of an object in traversal order, each with the keys that lead
to it.  An object that is not a map is its own leaf. -/
def leaves : GglObject → List (List Buffer × GglObject)
  | map pairs => pairsLeaves pairs
  | leaf => [([], leaf)]

/-- The leaves of the values of a map, each with the keys that lead to it. -/
def pairsLeaves : GglMap → List (List Buffer × GglObject)
  | [] => []
  | (key, value) :: rest =>
    (leaves value).map (fun leaf => (key :: leaf.1, leaf.2)) ++ pairsLeaves rest

end

@[simp]
theorem leaves_of_not_map {value : GglObject} (isLeaf : value.isMap = false) :
    value.leaves = [([], value)] := by
  cases value with
  | map pairs => cases isLeaf
  | null | boolean | i64 | f64 | buf | list => rfl

variable {path : List Buffer} {leaf : GglObject}

theorem ne_nil_of_mem_pairsLeaves (member : (path, leaf) ∈ pairsLeaves pairs) : path ≠ [] := by
  induction pairs with
  | nil => simp [pairsLeaves] at member
  | cons pair rest ih =>
    rw [pairsLeaves, mem_append, mem_map] at member
    rcases member with ⟨below, _, equal⟩ | later
    · simp only [Prod.mk.injEq] at equal
      rw [← equal.1]
      simp
    · exact ih later

/-- An object is a leaf at its own path only if it is not a map. -/
theorem eq_of_nil_mem_leaves {object : GglObject} (member : ([], leaf) ∈ object.leaves) :
    object = leaf := by
  cases object using map_cases with
  | leaf object isLeaf =>
    rw [leaves_of_not_map isLeaf, mem_singleton, Prod.mk.injEq] at member
    exact member.2.symm
  | map pairs => exact absurd rfl (ne_nil_of_mem_pairsLeaves member)

mutual

/-- Every map in the object has a pair, and no key twice. -/
def WellNested : GglObject → Prop
  | map pairs => pairs ≠ [] ∧ (pairs.map Prod.fst).Nodup ∧ PairsWellNested pairs
  | _ => True

/-- Every value of the map is well nested. -/
def PairsWellNested : GglMap → Prop
  | [] => True
  | (_, value) :: rest => WellNested value ∧ PairsWellNested rest

end

/-- A well nested map has a leaf. -/
theorem exists_mem_pairsLeaves (nonempty : pairs ≠ []) (wellNested : PairsWellNested pairs) :
    ∃ leaf, leaf ∈ pairsLeaves pairs := by
  induction pairs using pairs_induction with
  | nil => exact absurd rfl nonempty
  | nested key pairs rest ihPairs _ =>
    obtain ⟨leaf, member⟩ := ihPairs wellNested.1.1 wellNested.1.2.2
    refine ⟨(key :: leaf.1, leaf.2), mem_append_left _ ?_⟩
    exact mem_map.mpr ⟨leaf, member, rfl⟩
  | leaf key value rest isLeaf _ =>
    rw [pairsLeaves, leaves_of_not_map isLeaf]
    exact ⟨_, mem_cons_self⟩

theorem exists_mem_leaves {object : GglObject} (wellNested : object.WellNested) :
    ∃ leaf, leaf ∈ object.leaves := by
  cases object using map_cases with
  | leaf object isLeaf =>
    rw [leaves_of_not_map isLeaf]
    exact ⟨_, mem_cons_self⟩
  | map pairs =>
    exact exists_mem_pairsLeaves wellNested.1 wellNested.2.2

theorem mem_pairsLeaves_iff :
    (path, leaf) ∈ pairsLeaves pairs ↔
      ∃ pair ∈ pairs, ∃ rest, path = pair.1 :: rest ∧ (rest, leaf) ∈ pair.2.leaves := by
  induction pairs with
  | nil => simp [pairsLeaves]
  | cons pair others ih =>
    rw [pairsLeaves, mem_append, ih, exists_mem_cons_iff]
    apply or_congr_left
    constructor
    · intro member
      obtain ⟨below, belowMember, equal⟩ := mem_map.mp member
      obtain ⟨rfl, rfl⟩ := Prod.mk.inj equal
      exact ⟨below.1, rfl, belowMember⟩
    · rintro ⟨rest, rfl, member⟩
      exact mem_map.mpr ⟨(rest, leaf), member, rfl⟩

theorem wellNested_of_mem {pair : Buffer × GglObject} (wellNested : PairsWellNested pairs)
    (member : pair ∈ pairs) : pair.2.WellNested := by
  induction pairs with
  | nil => cases member
  | cons first rest ih =>
    rcases mem_cons.mp member with rfl | later
    · exact wellNested.1
    · exact ih wellNested.2 later

end GglObject

end GreengrassLite

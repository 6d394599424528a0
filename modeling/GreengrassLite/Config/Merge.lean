import GreengrassLite.Config.Store
import GreengrassLite.Core.Map
import GreengrassLite.Json.Encode
import GreengrassLite.Library.BoundedPath

/-!
# Merging a value into the configuration

`rpc_write` of `ggconfigd/src/db_corebus.c` writes a value that is not a map to
the given key path, and walks a map: `process_map` pushes each key onto one
shared path vector, recurses, and pops.  The vector holds at most fifteen keys.
A push that fails is ignored while the matching pop is not, so a key that does
not fit is missing from the path of its own values, and costs the path one of
its other keys afterwards.

The functions take the single write as a parameter, so that the same model runs
over the store, over a store that records its writes, and over an abstract one.
The walk is related to `Visit.reached` with a bounded path: it writes the values
that the bounded traversal reaches, in order, until one fails.
-/

namespace GreengrassLite

open Library List GglObject
open Visit hiding leaf

variable {value : GglObject} {timestamp : Int}

namespace GglObject

mutual

/-- The traversal of an object by `process_map`. -/
def visits : GglObject → List (Visit Buffer GglObject)
  | map pairs => pairsVisits pairs
  | leaf => [.leaf leaf]

/-- The traversal of the pairs of a map. -/
def pairsVisits : GglMap → List (Visit Buffer GglObject)
  | [] => []
  | (key, value) :: rest => .enter key :: (visits value ++ [.leave]) ++ pairsVisits rest

end

theorem visits_of_not_map (isLeaf : value.isMap = false) : value.visits = [.leaf value] := by
  cases value with
  | map pairs => cases isLeaf
  | null | boolean | i64 | f64 | buf | list => rfl

theorem pairsVisits_nested (pairs : GglMap) : Nested (pairsVisits pairs) := by
  induction pairs using pairs_induction with
  | nil => exact .nil
  | nested key pairs rest ihPairs ihRest => exact (ihPairs.branch key).append ihRest
  | leaf key value rest isLeaf ihRest =>
    rw [pairsVisits, visits_of_not_map isLeaf]
    exact ((Nested.leaf value).branch key).append ihRest

theorem visits_nested (value : GglObject) : Nested value.visits := by
  cases value using map_cases with
  | leaf value isLeaf =>
    rw [visits_of_not_map isLeaf]
    exact Nested.leaf value
  | map pairs => exact pairsVisits_nested pairs

/-- Without a bound the traversal reaches every leaf at its own path. -/
@[simp]
theorem reached_pairsVisits (pairs : GglMap) (base : List Buffer) :
    reached snoc base (pairsVisits pairs) =
      (pairsLeaves pairs).map fun leaf => (base ++ leaf.1, leaf.2) := by
  induction pairs using pairs_induction generalizing base with
  | nil => rfl
  | nested key pairs rest ihPairs ihRest =>
    have back := (pairsVisits_nested pairs).settled (base ++ [key])
    simp only [pairsVisits, visits, pairsLeaves, leaves, cons_append, append_assoc,
      reached, reached_append, snoc, map_append, map_map] at back ⊢
    rw [ihPairs, back, ihRest]
    simp [Function.comp_def]
  | leaf key value rest isLeaf ihRest =>
    simp only [pairsVisits, visits_of_not_map isLeaf, pairsLeaves, leaves_of_not_map isLeaf,
      cons_append, nil_append, reached, snoc, dropLast_concat,
      ihRest, map_cons, map_nil]

@[simp]
theorem reached_visits (value : GglObject) (base : List Buffer) :
    reached snoc base value.visits =
      value.leaves.map fun leaf => (base ++ leaf.1, leaf.2) := by
  cases value using map_cases with
  | leaf value isLeaf =>
    rw [visits_of_not_map isLeaf, leaves_of_not_map isLeaf]
    simp [reached]
  | map pairs => exact reached_pairsVisits pairs base

end GglObject

namespace Config

universe u

/-- The interface of `ggconfig_write_value_at_key` over a store. -/
abbrev WriteValue (σ : Type u) :=
  σ → List Buffer → Buffer → Int → Except GglError Unit × σ

variable {σ : Type u} (printG : UInt64 → Buffer) (write : WriteValue σ)

/-- `process_nonmap`. -/
def processNonmap (keyPath : List Buffer) (value : GglObject) (timestamp : Int) (store : σ) :
    Except GglError Unit × σ :=
  match Json.gglJsonEncode 1024 printG value with
  | .error error => (.error error, store)
  | .ok valueBuffer => write store keyPath valueBuffer timestamp

mutual

/-- The branch on the type of a value that `process_map` and `rpc_write` share. -/
def processValue (timestamp : Int) :
    GglObject → Vec Buffer maxObjectDepth → σ →
      Except GglError Unit × Vec Buffer maxObjectDepth × σ
  | .map pairs, keyPath, store => processMap timestamp pairs keyPath store
  | value, keyPath, store =>
    let (error, store) := processNonmap printG write keyPath.items value timestamp store
    (error, keyPath, store)

/-- `process_map`.  The results of the push and of the pop are ignored. -/
def processMap (timestamp : Int) :
    GglMap → Vec Buffer maxObjectDepth → σ →
      Except GglError Unit × Vec Buffer maxObjectDepth × σ
  | [], keyPath, store => (.ok (), keyPath, store)
  | (key, value) :: rest, keyPath, store =>
    match processValue timestamp value (keyPath.keep (gglObjVecPush keyPath key)) store with
    | (.error error, keyPath, store) => (.error error, keyPath, store)
    | (.ok (), keyPath, store) =>
      processMap timestamp rest (keyPath.keep (gglObjVecPop keyPath)) store

end

/-- The schema of the parameters of `rpc_write`. -/
def writeSchema : List GglMapSchemaEntry :=
  [⟨gglStr "key_path", true, .list⟩, ⟨gglStr "value", true, .null⟩,
    ⟨gglStr "timestamp", false, .i64⟩]

/-- `rpc_write`, where `now` is the current time in milliseconds. -/
def rpcWrite (now : Int) (params : GglMap) (store : σ) : Except GglError Unit × σ :=
  match gglMapValidate params writeSchema with
  | .ok [some (.list keyPathList), some value, timestampObj] =>
    match gglListTypeCheck keyPathList .buf with
    | .error _ => (.error .range, store)
    | .ok () =>
      match gglObjVecAppend (Vec.empty Buffer maxObjectDepth) (bufferItems keyPathList) with
      | .error _ => (.error .range, store)
      | .ok keyPath =>
        let timestamp :=
          match timestampObj with
          | some (.i64 timestamp) => timestamp
          | _ => now
        let (error, _, store) := processValue printG write timestamp value keyPath store
        (error, store)
  | _ => (.error .invalid, store)

/-! ## Writing leaves -/

/-- Write a list of values at their paths, in order, until one fails. -/
def writeLeaves (timestamp : Int) :
    List (List Buffer × GglObject) → σ → Except GglError Unit × σ
  | [], store => (.ok (), store)
  | (keyPath, value) :: rest, store =>
    match processNonmap printG write keyPath value timestamp store with
    | (.error error, store) => (.error error, store)
    | (.ok (), store) => writeLeaves timestamp rest store

variable {store final : σ} {first : List (List Buffer × GglObject)} {now : Int} {params : GglMap}
  {keys : List Buffer}

/-- Values that are all written have a text each, which the write takes. -/
theorem writeLeaves_cons_eq_ok {printG : UInt64 → Buffer} {write : WriteValue σ}
    {leaf : List Buffer × GglObject} {rest : List (List Buffer × GglObject)}
    (written : writeLeaves printG write timestamp (leaf :: rest) store = (.ok (), final)) :
    ∃ text middle, Json.gglJsonEncode 1024 printG leaf.2 = .ok text ∧
      write store leaf.1 text timestamp = (.ok (), middle) ∧
      writeLeaves printG write timestamp rest middle = (.ok (), final) := by
  rw [writeLeaves, processNonmap] at written
  cases encoded : Json.gglJsonEncode 1024 printG leaf.2 with
  | error error => simp [encoded] at written
  | ok text =>
    simp only [encoded] at written
    split at written
    · cases written
    next middle accepted => exact ⟨text, middle, rfl, accepted, written⟩

theorem writeLeaves_append (second : List (List Buffer × GglObject)) :
    writeLeaves printG write timestamp (first ++ second) store =
      match writeLeaves printG write timestamp first store with
      | (.error error, store) => (.error error, store)
      | (.ok (), store) => writeLeaves printG write timestamp second store := by
  induction first generalizing store with
  | nil => rfl
  | cons leaf rest ih =>
    rw [cons_append, writeLeaves, writeLeaves]
    split
    · rfl
    · exact ih

/-! ## The walk of a map -/

/-- The result of walking over a trace: the values the bounded traversal reaches
are written in order, and a walk without error leaves the path of the
traversal. -/
structure Walks (timestamp : Int) (trace : List (Visit Buffer GglObject))
    (keyPath : Vec Buffer maxObjectDepth) (store : σ)
    (outcome : Except GglError Unit × Vec Buffer maxObjectDepth × σ) : Prop where
  written : (outcome.1, outcome.2.2) = writeLeaves printG write timestamp
    (reached (snocWithin maxObjectDepth) keyPath.items trace) store
  path : outcome.1 = .ok () → outcome.2.1.items =
    pathAfter (snocWithin maxObjectDepth) keyPath.items trace

variable {printG write}

/-- A value and the pairs after it walk over their traces one after the other. -/
theorem processMap_cons_walks {key : Buffer} {rest : GglMap}
    (valueWalks : ∀ keyPath store, Walks printG write timestamp value.visits keyPath store
      (processValue printG write timestamp value keyPath store))
    (restWalks : ∀ keyPath store, Walks printG write timestamp (pairsVisits rest) keyPath store
      (processMap printG write timestamp rest keyPath store))
    (keyPath : Vec Buffer maxObjectDepth) (store : σ) :
    Walks printG write timestamp (pairsVisits ((key, value) :: rest)) keyPath store
      (processMap printG write timestamp ((key, value) :: rest) keyPath store) := by
  have pushed : (keyPath.keep (gglObjVecPush keyPath key)).items =
      snocWithin maxObjectDepth keyPath.items key := keyPath.keep_push_items key
  have here := valueWalks (keyPath.keep (gglObjVecPush keyPath key)) store
  rw [processMap]
  generalize processValue printG write timestamp value
    (keyPath.keep (gglObjVecPush keyPath key)) store = outcome at here ⊢
  rcases outcome with ⟨error | ok, inside, middle⟩
  · refine ⟨?_, fun succeeded => by cases succeeded⟩
    rw [pairsVisits, cons_append, reached, append_assoc, reached_append, ← pushed,
      writeLeaves_append, ← here.written]
  · have popped : (inside.keep (gglObjVecPop inside)).items =
        (pathAfter (snocWithin maxObjectDepth)
          (snocWithin maxObjectDepth keyPath.items key) value.visits).dropLast := by
      rw [← pushed, ← here.path rfl]
      exact inside.keep_pop_items
    have later := restWalks (inside.keep (gglObjVecPop inside)) middle
    constructor
    · rw [later.written, pairsVisits, cons_append, reached, append_assoc, reached_append, popped,
        ← pushed, writeLeaves_append, ← here.written]
      rfl
    · intro succeeded
      rw [later.path succeeded, popped, pairsVisits, cons_append,
        pathAfter_cons, append_assoc, pathAfter_append]
      rfl

theorem processValue_walks_of_not_map (isLeaf : value.isMap = false)
    (keyPath : Vec Buffer maxObjectDepth) (store : σ) :
    Walks printG write timestamp value.visits keyPath store
      (processValue printG write timestamp value keyPath store) := by
  have unfolded : processValue printG write timestamp value keyPath store =
      ((processNonmap printG write keyPath.items value timestamp store).1, keyPath,
        (processNonmap printG write keyPath.items value timestamp store).2) := by
    cases value with
    | map pairs => cases isLeaf
    | _ => rfl
  rw [unfolded, visits_of_not_map isLeaf]
  refine ⟨?_, fun _ => rfl⟩
  rw [reached, reached, writeLeaves]
  split
  · rename_i error final failed
    rw [failed]
  · rename_i final succeeded
    rw [succeeded, writeLeaves]

theorem processMap_walks (timestamp : Int) (pairs : GglMap) :
    ∀ (keyPath : Vec Buffer maxObjectDepth) (store : σ),
      Walks printG write timestamp (pairsVisits pairs) keyPath store
        (processMap printG write timestamp pairs keyPath store) := by
  induction pairs using pairs_induction with
  | nil => exact fun keyPath store => ⟨rfl, fun _ => rfl⟩
  | nested key pairs rest ihPairs ihRest => exact processMap_cons_walks ihPairs ihRest
  | leaf key value rest isLeaf ihRest =>
    exact processMap_cons_walks (processValue_walks_of_not_map isLeaf) ihRest

/-! ## Requests -/

/-- The parameters ask to merge a value at a key path with a timestamp, which
is the current time if they have none. -/
structure Requests (now : Int) (params : GglMap) (keys : List Buffer) (value : GglObject)
    (timestamp : Int) : Prop where
  keyPath : gglMapGet params (gglStr "key_path") = some (.list (keys.map .buf))
  value : gglMapGet params (gglStr "value") = some value
  timestamp : gglMapGet params (gglStr "timestamp") = some (.i64 timestamp) ∨
    gglMapGet params (gglStr "timestamp") = none ∧ timestamp = now

section

variable (request : Requests now params keys value timestamp)

include request

/-- The parameters of a request pass the validation. -/
theorem Requests.validated :
    ∃ timestampObj,
      gglMapValidate params writeSchema =
          .ok [some (.list (keys.map .buf)), some value, timestampObj] ∧
        (match timestampObj with
          | some (.i64 timestamp) => timestamp
          | _ => now) = timestamp := by
  rcases request.timestamp with found | ⟨missing, isNow⟩
  · refine ⟨some (.i64 timestamp), ?_, rfl⟩
    simp [gglMapValidate, writeSchema, gglMapValidateEntry, request.keyPath, request.value,
      found, type]
  · refine ⟨none, ?_, isNow.symm⟩
    simp [gglMapValidate, writeSchema, gglMapValidateEntry, request.keyPath, request.value,
      missing, type]

/-- A request with a path of at most fifteen keys writes the values the bounded
traversal reaches. -/
theorem Requests.rpcWrite_eq (short : keys.length ≤ maxObjectDepth) (store : σ) :
    rpcWrite printG write now params store = writeLeaves printG write timestamp
      (reached (snocWithin maxObjectDepth) keys value.visits) store := by
  rcases request.validated with ⟨timestampObj, validated, isTimestamp⟩
  have appended : gglObjVecAppend (Vec.empty Buffer maxObjectDepth) keys = .ok ⟨keys, short⟩ :=
    (Vec.append_eq_ok_iff _ _ _).mpr rfl
  have walks : Walks printG write timestamp value.visits ⟨keys, short⟩ store
      (processValue printG write timestamp value ⟨keys, short⟩ store) := by
    cases value using map_cases with
    | leaf value isLeaf => exact processValue_walks_of_not_map isLeaf _ store
    | map pairs => exact processMap_walks timestamp pairs _ store
  simp only [rpcWrite, validated, gglListTypeCheck_map_buf, bufferItems_map_buf, appended,
    isTimestamp]
  exact walks.written

/-- A request with a longer path is refused. -/
theorem Requests.short_of_rpcWrite
    (succeeded : rpcWrite printG write now params store = (.ok (), final)) :
    keys.length ≤ maxObjectDepth := by
  rcases request.validated with ⟨timestampObj, validated, -⟩
  simp only [rpcWrite, validated, gglListTypeCheck_map_buf, bufferItems_map_buf] at succeeded
  split at succeeded
  · cases succeeded
  next keyPath appended =>
    have items := (Vec.append_eq_ok_iff _ _ _).mp appended
    have fits := keyPath.bounded
    rw [items] at fits
    exact fits

end

/-! ## The merge law -/

/-- A store together with the writes it was asked for. -/
abbrev Logged (σ : Type u) :=
  σ × List (List Buffer × Buffer × Int)

/-- Record every write next to the store. -/
def logged (write : WriteValue σ) : WriteValue (Logged σ) :=
  fun store keyPath value timestamp =>
    let (error, next) := write store.1 keyPath value timestamp
    (error, next, store.2 ++ [(keyPath, value, timestamp)])

/-- When every leaf is written, the record shows the paths of the leaves. -/
theorem writeLeaves_logged_paths {leaves : List (List Buffer × GglObject)} {store : Logged σ}
    (succeeded : (writeLeaves printG (logged write) timestamp leaves store).1 = .ok ()) :
    (writeLeaves printG (logged write) timestamp leaves store).2.2.map Prod.fst =
      store.2.map Prod.fst ++ leaves.map Prod.fst := by
  induction leaves generalizing store with
  | nil => simp [writeLeaves]
  | cons leaf rest ih =>
    rw [writeLeaves] at succeeded ⊢
    unfold processNonmap at succeeded ⊢
    cases encoded : Json.gglJsonEncode 1024 printG leaf.2 with
    | error error => simp [encoded] at succeeded
    | ok valueBuffer =>
      simp only [encoded, logged] at succeeded ⊢
      cases outcome : write store.1 leaf.1 valueBuffer timestamp with
      | mk error next =>
        cases error with
        | error error => simp [outcome] at succeeded
        | ok done =>
          simp only [outcome] at succeeded ⊢
          rw [ih succeeded]
          simp

/-- A list of pairs is determined by its components. -/
theorem eq_of_map_fst_snd {α β : Type*} {first second : List (α × β)}
    (fsts : first.map Prod.fst = second.map Prod.fst)
    (snds : first.map Prod.snd = second.map Prod.snd) : first = second := by
  rw [← zip_unzip first, ← zip_unzip second, unzip_fst, unzip_snd,
    unzip_fst, unzip_snd, fsts, snds]

/-- The leaves of a map that is merged at a key path, each with the path it
belongs to. -/
def mergeLeaves (keys : List Buffer) (pairs : GglMap) : List (List Buffer × GglObject) :=
  (pairsLeaves pairs).map fun leaf => (keys ++ leaf.1, leaf.2)

/-- A successful `rpc_write` of a map has written exactly the leaves of the map
to their own paths, all of at most fifteen keys, if and only if the path never
outgrows the fifteen keys before the last leaf of the traversal. -/
theorem rpcWrite_merges_iff (fault : Fault) (daemon : Ggconfigd) {now : Int} {params : GglMap}
    {keys : List Buffer} {pairs : GglMap} {timestamp : Int}
    (request : Requests now params keys (.map pairs) timestamp) (nonempty : keys ≠ [])
    (short : keys.length ≤ maxObjectDepth)
    (succeeded : (rpcWrite printG (logged (ggconfigWriteValueAtKey fault)) now params
      (daemon, [])).1 = .ok ()) :
    (rpcWrite printG (logged (ggconfigWriteValueAtKey fault)) now params (daemon, []) =
          writeLeaves printG (logged (ggconfigWriteValueAtKey fault)) timestamp
            (mergeLeaves keys pairs) (daemon, []) ∧
        ∀ leaf ∈ mergeLeaves keys pairs, leaf.1.length ≤ maxObjectDepth) ↔
      Fits maxObjectDepth keys.length (pairsVisits pairs) := by
  rw [request.rpcWrite_eq short, visits] at succeeded ⊢
  rw [mergeLeaves, ← reached_pairsVisits,
    ← (pairsVisits_nested pairs).reached_within_iff nonempty short]
  constructor
  · rintro ⟨sameRun, fits⟩
    have paths := writeLeaves_logged_paths succeeded
    rw [sameRun] at succeeded
    rw [sameRun, writeLeaves_logged_paths succeeded] at paths
    refine ⟨eq_of_map_fst_snd paths.symm (map_snd_reached ..), ?_⟩
    intro place value member
    exact fits _ member
  · rintro ⟨sameLeaves, fits⟩
    rw [sameLeaves]
    exact ⟨rfl, fun leaf member => fits leaf.1 leaf.2 member⟩

/-- A key below a path of fifteen keys is dropped: the request succeeds and its
value replaces the value of the path itself. -/
theorem rpcWrite_not_merges_deep :
    let keys := replicate 15 (gglStr "p")
    let params : GglMap :=
      [(gglStr "key_path", .list (keys.map .buf)),
        (gglStr "value", .map [(gglStr "x", .boolean true)]),
        (gglStr "timestamp", .i64 5)]
    let outcome := rpcWrite (fun _ => []) (logged (ggconfigWriteValueAtKey noFault)) 0 params
      (Ggconfigd.opened, [])
    outcome.1 = .ok () ∧ outcome.2.2 = [(keys, gglStr "true", 5)] ∧
      mergeLeaves keys [(gglStr "x", .boolean true)] =
        [(keys ++ [gglStr "x"], .boolean true)] := by
  refine ⟨by decide, by decide, rfl⟩

/-- A map of two levels merged at a short path. -/
theorem rpcWrite_merges_iff_nested :
    let keys := [gglStr "a"]
    let pairs : GglMap :=
      [(gglStr "b", .map [(gglStr "c", .boolean true)]), (gglStr "d", .null)]
    let params : GglMap :=
      [(gglStr "key_path", .list (keys.map .buf)), (gglStr "value", .map pairs)]
    (rpcWrite (fun _ => []) (logged (ggconfigWriteValueAtKey noFault)) 7 params
          (Ggconfigd.opened, []) =
        writeLeaves (fun _ => []) (logged (ggconfigWriteValueAtKey noFault)) 7
          (mergeLeaves keys pairs) (Ggconfigd.opened, []) ∧
      ∀ leaf ∈ mergeLeaves keys pairs, leaf.1.length ≤ maxObjectDepth) ↔
    Fits maxObjectDepth keys.length (pairsVisits pairs) :=
  rpcWrite_merges_iff noFault Ggconfigd.opened ⟨rfl, rfl, .inr ⟨rfl, rfl⟩⟩ (by decide)
    (by decide) (by decide)

end Config

end GreengrassLite

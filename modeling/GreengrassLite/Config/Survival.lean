import GreengrassLite.Config.Contents

/-!
# Whether a written value survives

`rpc_write` flattens a value into its leaves and `rpc_read` builds the answer from
the leaves that are stored.  A map without leaves leaves nothing behind, a key
that does not fit the path is dropped, and a leaf is only as good as the round trip
of its JSON text.  None of this is reported: the write answers success.

What a read should answer is the value merged over what was there before.  Where the
path can be logged, every key fits, and the read and the decoding of what is then
below the path have enough memory, it does if and only if every map in the value
that is empty stood there already with something in it and every leaf survives its
text.
-/

namespace GreengrassLite.Config

open GreengrassLite.Library List GglObject Database Ggconfigd

/-! ## Merging -/

/-- What stands at a path of a value that is merged over a previous object: the value prevails,
and a map keeps the pairs of the previous map that it does not have. -/
def mergedAt : Option GglObject → GglObject → List Buffer → Option GglObject.Content
  | _, value, [] => some value.content
  | previous, .map pairs, key :: rest =>
    let before := previous.bind fun object => object.objectAt [key]
    match gglMapGet pairs key with
    | some value => mergedAt before value rest
    | none => before.bind fun object => object.contentAt rest
  | _, _, _ :: _ => none

@[simp]
theorem mergedAt_nil (previous : Option GglObject) (value : GglObject) :
    mergedAt previous value [] = some value.content := by
  cases value <;> rfl

@[simp]
theorem mergedAt_of_objectAt {previous : Option GglObject} {value inner : GglObject}
    {path : List Buffer} (found : value.objectAt path = some inner) :
    mergedAt previous value path = some inner.content := by
  induction path generalizing previous value with
  | nil =>
    cases found
    exact mergedAt_nil previous inner
  | cons key rest ih =>
    rcases objectAt_cons_eq_some found with ⟨pairs, below, rfl, got, later⟩
    rw [mergedAt, got]
    exact ih later

/-- The configuration before and after a value is merged below a path, and a previous object
with the content from before. -/
structure Merges (decoder : JsonDecoder) (before after : Database) (path : List Buffer)
    (previous : Option GglObject) (value : GglObject) : Prop where
  previous : ∀ rest, ContentIs decoder before (path ++ rest)
    (previous.bind fun object => object.contentAt rest)
  leaves : ∀ rest leaf, value.objectAt rest = some leaf → leaf.isMap = false →
    ∃ text time, after.Stored (path ++ rest) text time ∧ Decodes decoder text leaf
  others : ∀ rest, (∀ leaf, value.objectAt rest = some leaf → leaf.isMap = true) →
    ∀ text time, after.Stored (path ++ rest) text time ↔ before.Stored (path ++ rest) text time
  maps : ∀ rest, value.objectAt rest = some (.map []) →
    ∃ more text time, more ≠ [] ∧ before.Stored (path ++ rest ++ more) text time

section Merges

variable {printG : UInt64 → Buffer} {decoder : JsonDecoder} {before after : Database}
  {path : List Buffer} {previous : Option GglObject} {value : GglObject}

/-- Every object has a path to a value that is no map or to an empty map. -/
theorem exists_end (value : GglObject) :
    ∃ rest inner, value.objectAt rest = some inner ∧ (inner.isMap = false ∨ inner = .map []) := by
  have inside : ∀ pairs : GglMap, ∃ rest inner,
      (map pairs).objectAt rest = some inner ∧
        (inner.isMap = false ∨ inner = .map []) := by
    have first : ∀ {key value rest path}, (map ((key, value) :: rest)).objectAt
        (key :: path) = value.objectAt path := by
      intro key value rest path
      simp [objectAt, gglMapGet]
    intro pairs
    induction pairs using pairs_induction with
    | nil => exact ⟨[], .map [], rfl, .inr rfl⟩
    | nested key pairs rest ihPairs ihRest =>
      obtain ⟨path, inner, found, ends⟩ := ihPairs
      exact ⟨key :: path, inner, first.trans found, ends⟩
    | leaf key value rest isLeaf ihRest =>
      exact ⟨[key], value, first.trans (objectAt_nil value), .inl isLeaf⟩
  cases value using map_cases with
  | leaf value isLeaf => exact ⟨[], value, objectAt_nil value, .inl isLeaf⟩
  | map pairs => exact inside pairs

/-- What is stored below an empty map of the value stays. -/
theorem Merges.stored_of_empty (merges : Merges decoder before after path previous value)
    {rest : List Buffer} (empty : value.objectAt rest = some (.map [])) :
    ∃ more text time, more ≠ [] ∧ after.Stored (path ++ (rest ++ more)) text time := by
  obtain ⟨more, text, time, nonempty, stored⟩ := merges.maps rest empty
  refine ⟨more, text, time, nonempty, ?_⟩
  rw [append_assoc] at stored
  rw [merges.others]
  · exact stored
  · intro leaf found
    rw [objectAt_append, empty] at found
    cases more with
    | nil => exact absurd rfl nonempty
    | cons key more => cases found

variable {pairs : GglMap}

/-- Something is stored below a map of the value. -/
theorem Merges.stored_of_map (merges : Merges decoder before after path previous (.map pairs)) :
    ∃ more text time, more ≠ [] ∧ after.Stored (path ++ more) text time := by
  obtain ⟨rest, inner, found, isLeaf | rfl⟩ := exists_end (.map pairs)
  · obtain ⟨text, time, stored, -⟩ := merges.leaves rest inner found isLeaf
    refine ⟨rest, text, time, ?_, stored⟩
    rintro rfl
    cases found
    cases isLeaf
  · obtain ⟨more, text, time, nonempty, stored⟩ := merges.stored_of_empty found
    exact ⟨rest ++ more, text, time, append_ne_nil_of_right_ne_nil _ nonempty, stored⟩

theorem contentAt_cons (previous : Option GglObject) (key : Buffer) (rest : List Buffer) :
    (previous.bind fun object => object.contentAt (key :: rest)) =
      (previous.bind fun object => object.objectAt [key]).bind
        fun object => object.contentAt rest := by
  cases previous with
  | none => rfl
  | some object =>
    rw [Option.bind_some, Option.bind_some, contentAt, ← singleton_append,
      objectAt_append, Option.map_bind]
    rfl

/-- The same below a key of the map that is merged. -/
theorem Merges.child (merges : Merges decoder before after path previous (.map pairs))
    {key : Buffer} (got : gglMapGet pairs key = some value) :
    Merges decoder before after (path ++ [key])
      (previous.bind fun object => object.objectAt [key]) value := by
  have into : ∀ rest, (map pairs).objectAt (key :: rest) = value.objectAt rest := by
    intro rest
    rw [objectAt, got, Option.bind_some]
  have further : ∀ rest, path ++ [key] ++ rest = path ++ key :: rest := by
    intro rest
    rw [append_assoc, singleton_append]
  constructor
  · intro rest
    rw [further, ← contentAt_cons]
    exact merges.previous (key :: rest)
  · intro rest leaf found isLeaf
    rw [further]
    exact merges.leaves (key :: rest) leaf ((into rest).trans found) isLeaf
  · intro rest noLeaf
    rw [further]
    refine merges.others (key :: rest) fun leaf found => noLeaf leaf ?_
    rw [← into]
    exact found
  · intro rest empty
    rw [further]
    exact merges.maps (key :: rest) ((into rest).trans empty)

/-- Contents below a key that the merged map does not have stay. -/
theorem Merges.contentIs_other (merges : Merges decoder before after path previous (.map pairs))
    {key : Buffer} (missing : gglMapGet pairs key = none) {rest : List Buffer}
    {content : Option GglObject.Content}
    (isContent : ContentIs decoder before (path ++ key :: rest) content) :
    ContentIs decoder after (path ++ key :: rest) content := by
  have same : ∀ more text time, after.Stored (path ++ key :: rest ++ more) text time ↔
      before.Stored (path ++ key :: rest ++ more) text time := by
    intro more
    rw [append_assoc, cons_append]
    refine merges.others _ fun leaf found => ?_
    rw [objectAt, missing] at found
    cases found
  cases content with
  | none => exact fun more text time stored => isContent more text time ((same _ _ _).mp stored)
  | some content =>
    cases content with
    | leaf value =>
      obtain ⟨text, time, stored, decodes⟩ := isContent
      rw [← append_nil (path ++ key :: rest), ← same, append_nil] at stored
      exact ⟨text, time, stored, decodes⟩
    | map =>
      obtain ⟨more, text, time, nonempty, stored⟩ := isContent
      exact ⟨more, text, time, nonempty, (same _ _ _).mpr stored⟩

/-- The configuration holds the merged value. -/
theorem Merges.contentIs (wf : after.Wf)
    (merges : Merges decoder before after path previous value) (rest : List Buffer) :
    ContentIs decoder after (path ++ rest) (mergedAt previous value rest) := by
  induction rest generalizing path previous value with
  | nil =>
    rw [mergedAt_nil]
    cases value using map_cases with
    | leaf value isLeaf =>
      rw [content_of_not_map isLeaf]
      exact merges.leaves [] value (objectAt_nil value) isLeaf
    | map pairs =>
      obtain ⟨more, text, time, nonempty, stored⟩ := merges.stored_of_map
      rw [append_nil]
      exact ⟨more, text, time, nonempty, stored⟩
  | cons key rest ih =>
    cases value using map_cases with
    | leaf value isLeaf =>
      -- The value is stored at the path itself, and nothing further below.
      obtain ⟨text, time, stored, -⟩ :=
        merges.leaves [] value (objectAt_nil value) isLeaf
      have nothing : mergedAt previous value (key :: rest) = none := by
        cases value with
        | map pairs => cases isLeaf
        | _ => rfl
      rw [append_nil] at stored
      rw [nothing]
      intro more other otherTime below
      rw [append_assoc] at below
      exact not_stored_below wf stored (by simp) below
    | map pairs =>
      rw [mergedAt]
      cases got : gglMapGet pairs key with
      | some inner =>
        have child := ih (merges.child got)
        rw [append_assoc] at child
        exact child
      | none =>
        apply merges.contentIs_other got
        rw [← contentAt_cons]
        exact merges.previous (key :: rest)

end Merges

/-! ## Survival -/

/-- What a value needs to survive below a path: an empty map stands where something was stored
further below, and a value that is no map survives its text. -/
structure Survivable (printG : UInt64 → Buffer) (decoder : JsonDecoder) (before : Database)
    (keys : List Buffer) (value : GglObject) : Prop where
  maps : ∀ rest, value.objectAt rest = some (.map []) →
    ∃ more text time, more ≠ [] ∧ before.Stored (keys ++ rest ++ more) text time
  leaves : ∀ rest leaf text, value.objectAt rest = some leaf → leaf.isMap = false →
    Json.gglJsonEncode 1024 printG leaf = .ok text → Decodes decoder text leaf

/-- The text at a path after the value was written: that of the leaf of the value, or else the one
stored before. -/
def MergedText (printG : UInt64 → Buffer) (before : Database) (keys : List Buffer)
    (value : GglObject) (rest : List Buffer) (text : Buffer) : Prop :=
  (∃ leaf, (rest, leaf) ∈ value.leaves ∧ Json.gglJsonEncode 1024 printG leaf = .ok text) ∨
    (∀ leaf, (rest, leaf) ∉ value.leaves) ∧ ∃ time, before.Stored (keys ++ rest) text time

/-- In whatever order these texts are read, the memory suffices for them and for their values. -/
def MergeFits (printG : UInt64 → Buffer) (decoder : JsonDecoder) (before : Database)
    (keys : List Buffer) (value : GglObject) : Prop :=
  ∀ object : GglObject, object.WellNested →
    (∀ rest leaf, (rest, leaf) ∈ object.leaves ↔
      ∃ text, leaf = .buf text ∧ MergedText printG before keys value rest text) →
    (∃ left, bumpAllocator.allocAll (gglBumpAllocInit corebusMaxMsgLen) (object.requests true) =
      some left) ∧
    DecodesInTurn decoder (object.leaves.map Prod.snd) (gglBumpAllocInit maxObjectDecodeBytes)

/-- No object of the value lies deeper than the fifteen keys of a path. -/
def Shallow (keys : List Buffer) (value : GglObject) : Prop :=
  ∀ rest inner, value.objectAt rest = some inner → (keys ++ rest).length ≤ maxObjectDepth

section Survival

variable {printG : UInt64 → Buffer} {decoder : JsonDecoder} {daemon after : Ggconfigd}
  {now timestamp : Int} {params : GglMap} {keys : List Buffer} {value : GglObject}
  {previous : Option GglObject}

variable (inv : daemon.Inv) (request : Requests now params keys value timestamp)
  (succeeded : rpcWrite printG (ggconfigWriteValueAtKey noFault) now params daemon =
    (.ok (), after))
  (distinct : value.DistinctKeys)
  (newest : ∀ rest text time,
    daemon.configDatabase.Stored (keys ++ rest) text time → time ≤ timestamp)
  (nonempty : keys ≠ []) (shallow : Shallow keys value)

include inv request succeeded distinct newest nonempty shallow

/-- When every key fits, the leaves of the value are stored at their paths, and nothing else is
changed. -/
theorem stored_of_shallow :
    (∀ rest leaf, (rest, leaf) ∈ value.leaves →
      ∃ text, Json.gglJsonEncode 1024 printG leaf = .ok text ∧
        after.configDatabase.Stored (keys ++ rest) text timestamp) ∧
      ∀ rest, (∀ leaf, (rest, leaf) ∉ value.leaves) → ∀ text time,
        after.configDatabase.Stored (keys ++ rest) text time ↔
          daemon.configDatabase.Stored (keys ++ rest) text time := by
  obtain ⟨-, encodes, settles⟩ := request.settles inv succeeded
  rw [(reached_of_fits nonempty (request.short_of_rpcWrite succeeded)
    (fits_of_short distinct shallow)).1] at encodes settles
  have found : ∀ {rest text}, lastText printG (keys ++ rest)
      (value.leaves.map fun leaf => (keys ++ leaf.1, leaf.2)) = some text →
      ∃ leaf, (rest, leaf) ∈ value.leaves ∧ Json.gglJsonEncode 1024 printG leaf = .ok text := by
    intro rest text last
    obtain ⟨leaf, member, encoded⟩ := exists_of_lastText last
    obtain ⟨⟨place, same⟩, inside, equal⟩ := mem_map.mp member
    obtain ⟨samePath, rfl⟩ := Prod.mk.inj equal
    obtain rfl : place = rest := append_cancel_left samePath
    exact ⟨same, inside, encoded⟩
  constructor
  · intro rest leaf member
    have placed := @List.mem_map_of_mem _ _ _ _ (fun leaf => (keys ++ leaf.1, leaf.2)) member
    obtain ⟨-, text, encoded⟩ := encodes _ placed
    obtain ⟨last, isLast⟩ := exists_lastText placed encoded
    obtain ⟨other, otherMember, otherEncoded⟩ := found isLast
    have same := (objectAt_of_mem_leaves distinct member).1.symm.trans
      (objectAt_of_mem_leaves distinct otherMember).1
    cases same
    cases encoded.symm.trans otherEncoded
    refine ⟨text, encoded, (settles _ _ _).mpr ?_⟩
    rw [isLast]
    refine PrefixMap.overwrite_of_not_newer text fun storedText storedTime stored => ?_
    exact newest rest storedText storedTime
      (contents_lookup_iff inv.tables.toWf |>.mp stored)
  · intro rest noLeaf text time
    rw [settles]
    cases last : lastText printG (keys ++ rest)
      (value.leaves.map fun leaf => (keys ++ leaf.1, leaf.2)) with
    | none => exact contents_lookup_iff inv.tables.toWf
    | some written =>
      obtain ⟨leaf, member, -⟩ := found last
      exact absurd member (noLeaf leaf)

/-- A value that has what it needs is merged into the configuration. -/
theorem Survivable.merges
    (before : ∀ rest, ContentIs decoder daemon.configDatabase (keys ++ rest)
      (previous.bind fun object => object.contentAt rest))
    (survivable : Survivable printG decoder daemon.configDatabase keys value) :
    Merges decoder daemon.configDatabase after.configDatabase keys previous value := by
  obtain ⟨leaves, others⟩ :=
    stored_of_shallow inv request succeeded distinct newest nonempty shallow
  refine ⟨before, fun rest leaf found noMap => ?_, fun rest noLeaf => ?_, survivable.maps⟩
  · obtain ⟨text, encoded, stored⟩ := leaves rest leaf (mem_leaves_of_leafAt found noMap)
    exact ⟨text, timestamp, stored, survivable.leaves rest leaf text found noMap encoded⟩
  · refine others rest fun leaf member => ?_
    obtain ⟨found, noMap⟩ := objectAt_of_mem_leaves distinct member
    rw [noLeaf leaf found] at noMap
    cases noMap

/-- What is stored after the request are the merged texts. -/
theorem stored_iff_mergedText (rest : List Buffer) (text : Buffer) :
    (∃ time, after.configDatabase.Stored (keys ++ rest) text time) ↔
      MergedText printG daemon.configDatabase keys value rest text := by
  obtain ⟨leaves, others⟩ :=
    stored_of_shallow inv request succeeded distinct newest nonempty shallow
  have wf := (request.settles inv succeeded).1.tables.toWf
  constructor
  · rintro ⟨time, stored⟩
    by_cases isLeaf : ∃ leaf, (rest, leaf) ∈ value.leaves
    · obtain ⟨leaf, member⟩ := isLeaf
      obtain ⟨written, encoded, there⟩ := leaves rest leaf member
      obtain ⟨rfl, -⟩ := stored.unique wf there
      exact .inl ⟨leaf, member, encoded⟩
    · have none := not_exists.mp isLeaf
      exact .inr ⟨none, time, (others rest none text time).mp stored⟩
  · rintro (⟨leaf, member, encoded⟩ | ⟨none, time, stored⟩)
    · obtain ⟨written, again, there⟩ := leaves rest leaf member
      cases encoded.symm.trans again
      exact ⟨timestamp, there⟩
    · exact ⟨time, (others rest none text time).mpr stored⟩

/-- With enough memory a read of a path that is there answers what is stored below it. -/
theorem contentIs_of_mergeFits
    (fits : MergeFits printG decoder daemon.configDatabase keys value) {id : Nat}
    (reached : after.configDatabase.forest.Path none keys (some id)) :
    ∃ answer, rpcRead decoder noFault after (readArguments keys) = .ok answer ∧
      ∀ rest, ContentIs decoder after.configDatabase (keys ++ rest) (answer.contentAt rest) := by
  have afterInv := (request.settles inv succeeded).1
  have wf := afterInv.tables.toWf
  have texts := stored_iff_mergedText inv request succeeded distinct newest nonempty shallow
  have short := shallow [] value (objectAt_nil value)
  rw [append_nil] at short
  obtain ⟨idList, trail⟩ := reached.exists_trail
  obtain ⟨ids, found, rfl⟩ := getKeyIds_of_trail wf short trail
  have last := lastKeyId_of_trail nonempty trail
  have enough : ∀ object, after.configDatabase.Reads (lastKeyId ids) object → _ :=
    fun object reads => fits object reads.wellNested fun rest leaf => by
      rw [reads.mem_leaves_iff]
      constructor
      · rintro ⟨text, time, target, rfl, path, member⟩
        exact ⟨text, rfl, (texts rest text).mp
          ⟨time, target, (last.append_iff wf.forest).mpr path, member⟩⟩
      · rintro ⟨text, rfl, merged⟩
        obtain ⟨time, target, path, member⟩ := (texts rest text).mpr merged
        exact ⟨text, time, target, rfl, (last.append_iff wf.forest).mp path, member⟩
  have requested : gglMapGet (readArguments keys) (gglStr "key_path") =
      some (.list (keys.map .buf)) := rfl
  obtain ⟨object, answer, left, reads, answered, decoded⟩ := rpcReadBy_of_readable
    afterInv.isOpen afterInv.tables requested nonempty found
    ⟨fun _ _ _ => by simp [noFault], fun object reads => (enough object reads).1,
      fun object reads => (enough object reads).2⟩
  exact ⟨answer, answered, contentIs_of_complete (decoded.wellNested reads.wellNested)
    (decoded.complete wf last reads)⟩

/-- With enough memory a read answers the merged value. -/
theorem Survivable.survives (unique : OneValue decoder)
    (before : ∀ rest, ContentIs decoder daemon.configDatabase (keys ++ rest)
      (previous.bind fun object => object.contentAt rest))
    (fits : MergeFits printG decoder daemon.configDatabase keys value)
    (survivable : Survivable printG decoder daemon.configDatabase keys value) :
    ∃ answer, rpcRead decoder noFault after (readArguments keys) = .ok answer ∧
      ∀ rest, answer.contentAt rest = mergedAt previous value rest := by
  have wf := (request.settles inv succeeded).1.tables.toWf
  have merges :=
    survivable.merges inv request succeeded distinct newest nonempty shallow before
  -- Something is stored at or below the path, so it is found.
  obtain ⟨id, reached⟩ : ∃ id, after.configDatabase.forest.Path none keys (some id) := by
    obtain ⟨more, text, time, target, path, -⟩ :
        ∃ more text time, after.configDatabase.Stored (keys ++ more) text time := by
      cases value using map_cases with
      | leaf value isLeaf =>
        obtain ⟨text, time, stored, -⟩ := merges.leaves [] value (objectAt_nil value) isLeaf
        exact ⟨[], text, time, stored⟩
      | map pairs =>
        obtain ⟨more, text, time, -, stored⟩ := merges.stored_of_map
        exact ⟨more, text, time, stored⟩
    exact path.exists_prefix nonempty
  obtain ⟨answer, answered, contents⟩ :=
    contentIs_of_mergeFits inv request succeeded distinct newest nonempty shallow fits reached
  exact ⟨answer, answered, fun rest =>
    contentIs_unique unique wf (contents rest) (merges.contentIs wf rest)⟩

/-- A value that a read answers merged has what it needs. -/
theorem survivable_of_survives
    (fits : MergeFits printG decoder daemon.configDatabase keys value) {answer : GglObject}
    (answered : rpcRead decoder noFault after (readArguments keys) = .ok answer)
    (same : ∀ rest, answer.contentAt rest = mergedAt previous value rest) :
    Survivable printG decoder daemon.configDatabase keys value := by
  have wf := (request.settles inv succeeded).1.tables.toWf
  obtain ⟨leaves, others⟩ :=
    stored_of_shallow inv request succeeded distinct newest nonempty shallow
  obtain ⟨-, ids, found⟩ := found_of_rpcReadBy rfl answered
  have reached := lastKeyId_of_trail nonempty (trail_of_getKeyIds wf found)
  obtain ⟨other, again, contents⟩ :=
    contentIs_of_mergeFits inv request succeeded distinct newest nonempty shallow fits reached
  cases answered.symm.trans again
  have stands : ∀ {rest inner}, value.objectAt rest = some inner →
      ContentIs decoder after.configDatabase (keys ++ rest) (some inner.content) := by
    intro rest inner found
    rw [← mergedAt_of_objectAt found, ← same]
    exact contents rest
  refine ⟨fun rest empty => ?_, fun rest leaf text found noMap encoded => ?_⟩
  · obtain ⟨more, text, time, below, stored⟩ := stands empty
    refine ⟨more, text, time, below, ?_⟩
    rw [append_assoc] at stored ⊢
    refine (others (rest ++ more) (fun leaf member => ?_) text time).mp stored
    have inside := (objectAt_of_mem_leaves distinct member).1
    rw [objectAt_append, empty] at inside
    cases more with
    | nil => exact below rfl
    | cons key more => cases inside
  · have shown := stands found
    rw [content_of_not_map noMap] at shown
    obtain ⟨written, time, stored, decodes⟩ := shown
    obtain ⟨other, again, there⟩ := leaves rest leaf (mem_leaves_of_leafAt found noMap)
    cases encoded.symm.trans again
    obtain ⟨rfl, -⟩ := stored.unique wf there
    exact decodes

end Survival

/-- After a request that succeeds, with a newest timestamp, a read of the path answers the value
merged over what was there before if and only if the value has what it needs to survive, where
the path can be logged, every key fits and the memory suffices. -/
theorem rpcRead_rpcWrite_iff {printG : UInt64 → Buffer} {strtod : Buffer → Option UInt64}
    {behind : Buffer} {damaged : Buffer → Buffer} {mistaken : Buffer → GglMap}
    {daemon after : Ggconfigd} (inv : daemon.Inv)
    {now timestamp : Int} {params : GglMap} {keys : List Buffer} {value : GglObject}
    (request : Requests now params keys value timestamp) (distinct : value.DistinctKeys)
    {previous : Option GglObject}
    (before : ∀ rest, ContentIs (storedDecoder strtod behind damaged mistaken)
      daemon.configDatabase (keys ++ rest) (previous.bind fun object => object.contentAt rest))
    (newest : ∀ rest text time, daemon.configDatabase.Stored (keys ++ rest) text time →
      time ≤ timestamp)
    (succeeded : rpcWrite printG (ggconfigWriteValueAtKey noFault) now params daemon =
      (.ok (), after))
    (nonempty : keys ≠ []) (printable : Printable keys) (shallow : Shallow keys value)
    (fits : MergeFits printG (storedDecoder strtod behind damaged mistaken)
      daemon.configDatabase keys value) :
    (∃ answer, after.logged keys (rpcRead (storedDecoder strtod behind damaged mistaken) noFault
        after (readArguments keys)) = some (.ok answer) ∧
      ∀ rest, answer.contentAt rest = mergedAt previous value rest) ↔
      Survivable printG (storedDecoder strtod behind damaged mistaken)
        daemon.configDatabase keys value := by
  have logged : ∀ {answer : Except GglError GglObject}, after.logged keys answer = some answer :=
    if_neg fun ends => ends.2 printable
  constructor
  · rintro ⟨answer, answered, same⟩
    rw [logged] at answered
    exact survivable_of_survives inv request succeeded distinct newest nonempty shallow fits
      (Option.some.inj answered) same
  · intro survivable
    obtain ⟨answer, answered, same⟩ := survivable.survives inv request succeeded distinct newest
      nonempty shallow storedDecoder_oneValue before fits
    exact ⟨answer, logged.trans (congrArg some answered), same⟩

/-- A decoder for texts without doubles, with nothing behind them. -/
def plainDecoder : JsonDecoder :=
  storedDecoder (fun _ => none) [] id fun _ => []

/-- An empty map is written with success, and then there is nothing to read. -/
theorem empty_map_lost :
    let params : GglMap :=
      [(gglStr "key_path", .list [.buf (gglStr "a")]), (gglStr "value", .map [])]
    let written :=
      rpcWrite (fun _ => []) (ggconfigWriteValueAtKey noFault) 5 params opened
    written.1 = .ok () ∧
      rpcRead plainDecoder noFault written.2 (readArguments [gglStr "a"]) = .error .noentry ∧
      mergedAt none (.map []) [] = some .map :=
  ⟨rfl, rfl, rfl⟩

/-- An integer survives. -/
theorem rpcRead_rpcWrite_iff_of_integer :
    let params : GglMap :=
      [(gglStr "key_path", .list [.buf (gglStr "a")]), (gglStr "value", .i64 7)]
    let after := (rpcWrite (fun _ => []) (ggconfigWriteValueAtKey noFault) 5 params opened).2
    ∃ answer, after.logged [gglStr "a"] (rpcRead plainDecoder noFault after
        (readArguments [gglStr "a"])) = some (.ok answer) ∧
      ∀ rest, answer.contentAt rest = mergedAt none (.i64 7) rest := by
  intro params after
  have nothing : ∀ path text time, ¬opened.configDatabase.Stored path text time := by
    rintro path text time ⟨id, -, member⟩
    cases member
  have whole : ∀ {rest inner}, (i64 7).objectAt rest = some inner → rest = [] ∧ inner = .i64 7 := by
    intro rest inner found
    cases rest with
    | nil =>
      cases found
      exact ⟨rfl, rfl⟩
    | cons => cases found
  have encodes : Json.gglJsonEncode 1024 (fun _ => []) (.i64 7) = .ok (gglStr "7") := rfl
  refine (@rpcRead_rpcWrite_iff (fun _ => []) (fun _ => none) [] id (fun _ => []) opened after
    inv_opened 5 5 params [gglStr "a"] (.i64 7) ⟨rfl, rfl, .inr ⟨rfl, rfl⟩⟩ trivial none ?_ ?_ rfl
    (by decide) (by decide) ?_ fun object _ leaves => ?_).2 ⟨?_, ?_⟩
  · exact fun rest more text time stored => nothing _ text time stored
  · exact fun rest text time stored => absurd stored (nothing _ text time)
  · intro rest inner found
    rw [(whole found).1]
    decide
  · cases eq_of_nil_mem_leaves ((leaves [] _).mpr
      ⟨gglStr "7", rfl, .inl ⟨.i64 7, mem_cons_self, encodes⟩⟩)
    exact ⟨⟨_, rfl⟩, _, _, _, rfl, rfl, rfl, trivial⟩
  · intro rest found
    cases (whole found).2
  · intro rest leaf text found isLeaf encoded
    cases (whole found).2
    have plain : Json.Plain (.i64 7) := ⟨by decide, by decide⟩
    have enough : bumpAllocator.allocAll (gglBumpAllocInit 0)
        (requests false (.i64 7)) = some (gglBumpAllocInit 0) := rfl
    exact decodes_of_plain plain rfl (by decide) enough encoded

end GreengrassLite.Config

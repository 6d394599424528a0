import GreengrassLite.Config.KeyPath

/-!
# Whether a read is complete

`read_key_recursive` of `ggconfigd/src/db_interface.c` ignores the error of the
recursive call, and takes the end of the rows of a query and an error in them for
the same; `rpc_read` ignores the error of `decode_object_destructive`, which stops
at the first value that it cannot decode.  So an answer may have a null in the
place of a value or of a map, lack keys, or have texts that were not decoded.

An answer is complete if nothing of this can happen: no statement fails that reads
what is stored below the key, and the memory suffices for all of it, in whatever
order the rows come.
-/

namespace GreengrassLite.Config

open GreengrassLite.Library List GglObject Database

variable {text : Buffer} {pairs : GglMap} {value : GglObject}

/-! ## Complete answers -/

/-- A text has this value: some decoding of it succeeds with it.  The daemon refuses maps. -/
def Decodes (decoder : JsonDecoder) (text : Buffer) (value : GglObject) : Prop :=
  value.isMap = false ∧ ∃ alloc, (decoder.decode text alloc).1 = .ok value

/-- Every value stored at or below a path appears under its path as the value of its text, and
nothing else appears. -/
structure Complete (decoder : JsonDecoder) (database : Database) (path : List Buffer)
    (answer : GglObject) : Prop where
  appears : ∀ rest text time, database.Stored (path ++ rest) text time →
    ∃ value, Decodes decoder text value ∧ (rest, value) ∈ answer.leaves
  only : ∀ rest value, (rest, value) ∈ answer.leaves →
    ∃ text time, database.Stored (path ++ rest) text time ∧ Decodes decoder text value

section Stored

variable {database : Database} {path : List Buffer} {id : Nat}

end Stored

/-! ## Decoding in turn -/

/-- One after the other, the texts are decoded to values that are no maps. -/
def DecodesInTurn (decoder : JsonDecoder) : List GglObject → BumpAlloc → Prop
  | [], _ => True
  | leaf :: leaves, alloc => ∃ text value left, leaf = .buf text ∧
    decoder.decode text alloc = (.ok value, left) ∧ value.isMap = false ∧
    DecodesInTurn decoder leaves left

/-- A leaf with a text, and the leaf with the value of the text. -/
def ShownAs (decoder : JsonDecoder) (leaf shown : List Buffer × GglObject) : Prop :=
  shown.1 = leaf.1 ∧ ∃ text, leaf.2 = .buf text ∧ Decodes decoder text shown.2

section InTurn

variable {decoder : JsonDecoder} {alloc : BumpAlloc}

theorem decodeObjectDestructive_of_ok {left : BumpAlloc}
    (decoded : decoder.decode text alloc = (.ok value, left)) (isLeaf : value.isMap = false) :
    decodeObjectDestructive decoder (.buf text) alloc = (.ok (), value, left) := by
  rw [decodeObjectDestructive, decoded]
  cases value with
  | map pairs => cases isLeaf
  | _ => rfl

/-- What is left of an object and the memory when every leaf of it was decoded, and `more` is
still to be decoded. -/
structure Decoded (decoder : JsonDecoder) (object decoded : GglObject) (more : List GglObject)
    (left : BumpAlloc) : Prop where
  rest : DecodesInTurn decoder more left
  leaves : Forall₂ (ShownAs decoder) object.leaves decoded.leaves
  wellNested : object.WellNested → decoded.WellNested

@[inherit_doc Decoded]
structure DecodedPairs (decoder : JsonDecoder) (pairs decoded : GglMap) (more : List GglObject)
    (left : BumpAlloc) : Prop where
  rest : DecodesInTurn decoder more left
  leaves : Forall₂ (ShownAs decoder) (pairsLeaves pairs) (pairsLeaves decoded)
  keys : decoded.map Prod.fst = pairs.map Prod.fst
  wellNested : PairsWellNested pairs → PairsWellNested decoded

theorem DecodedPairs.cons {key : Buffer} {shown : GglObject} {rest others : GglMap}
    {more : List GglObject} {middle left : BumpAlloc} {first : List GglObject}
    (here : Decoded decoder value shown first middle)
    (there : DecodedPairs decoder rest others more left) :
    DecodedPairs decoder ((key, value) :: rest) ((key, shown) :: others) more left where
  rest := there.rest
  leaves := by
    refine rel_append ?_ there.leaves
    rw [forall₂_map_left_iff, forall₂_map_right_iff]
    exact here.leaves.imp fun _ _ same => ⟨congrArg (key :: ·) same.1, same.2⟩
  keys := congrArg (key :: ·) there.keys
  wellNested both := ⟨here.wellNested both.1, there.wellNested both.2⟩

theorem DecodedPairs.map {decoded : GglMap} {more : List GglObject} {left : BumpAlloc}
    (inside : DecodedPairs decoder pairs decoded more left) :
    Decoded decoder (.map pairs) (.map decoded) more left where
  rest := inside.rest
  leaves := inside.leaves
  wellNested nested := by
    refine ⟨?_, inside.keys ▸ nested.2.1, inside.wellNested nested.2.2⟩
    rintro rfl
    exact nested.1 (map_eq_nil_iff.mp inside.keys.symm)

theorem decode_leaf {more : List GglObject} (isLeaf : value.isMap = false)
    (inTurn : DecodesInTurn decoder (value :: more) alloc) :
    ∃ shown left, decodeObjectDestructive decoder value alloc = (.ok (), shown, left) ∧
      Decoded decoder value shown more left := by
  obtain ⟨text, shown, left, rfl, decoded, noMap, rest⟩ := inTurn
  refine ⟨shown, left, decodeObjectDestructive_of_ok decoded noMap, rest, ?_, fun _ => ?_⟩
  · rw [leaves_of_not_map rfl, leaves_of_not_map noMap]
    exact .cons ⟨rfl, text, rfl, noMap, alloc, congrArg Prod.fst decoded⟩ .nil
  · cases shown with
    | map pairs => cases noMap
    | _ => trivial

/-- The leaves of the first value come first, then those of the others. -/
theorem values_cons (key : Buffer) (value : GglObject) (rest : GglMap) (more : List GglObject) :
    (pairsLeaves ((key, value) :: rest)).map Prod.snd ++ more =
      value.leaves.map Prod.snd ++ ((pairsLeaves rest).map Prod.snd ++ more) := by
  rw [pairsLeaves, map_append, map_map, append_assoc]
  rfl

theorem decode_pairs (pairs : GglMap) {more : List GglObject}
    (inTurn : DecodesInTurn decoder ((pairsLeaves pairs).map Prod.snd ++ more) alloc) :
    ∃ decoded left, decodePairsDestructive decoder pairs alloc = (.ok (), decoded, left) ∧
      DecodedPairs decoder pairs decoded more left := by
  induction pairs using pairs_induction generalizing alloc more with
  | nil => exact ⟨[], alloc, rfl, inTurn, .nil, rfl, fun _ => trivial⟩
  | nested key pairs rest ihPairs ihRest =>
    rw [values_cons] at inTurn
    obtain ⟨shown, middle, first, here⟩ := ihPairs inTurn
    obtain ⟨others, left, second, there⟩ := ihRest here.rest
    refine ⟨(key, .map shown) :: others, left, ?_, .cons here.map there⟩
    rw [decodePairsDestructive, decodeObjectDestructive, first]
    dsimp only
    rw [second]
  | leaf key value rest isLeaf ihRest =>
    rw [values_cons, leaves_of_not_map isLeaf] at inTurn
    obtain ⟨shown, middle, first, here⟩ := decode_leaf isLeaf inTurn
    obtain ⟨others, left, second, there⟩ := ihRest here.rest
    refine ⟨(key, shown) :: others, left, ?_, .cons here there⟩
    rw [decodePairsDestructive, first]
    dsimp only
    rw [second]

/-- An object whose leaves are decoded in turn is decoded. -/
theorem decode_object {object : GglObject}
    (inTurn : DecodesInTurn decoder (object.leaves.map Prod.snd) alloc) :
    ∃ decoded left, decodeObjectDestructive decoder object alloc = (.ok (), decoded, left) ∧
      Decoded decoder object decoded [] left := by
  rw [← append_nil (object.leaves.map Prod.snd)] at inTurn
  cases object using map_cases with
  | leaf object isLeaf =>
    rw [leaves_of_not_map isLeaf] at inTurn
    exact decode_leaf isLeaf inTurn
  | map pairs =>
    obtain ⟨decoded, left, done, inside⟩ := decode_pairs pairs inTurn
    refine ⟨.map decoded, left, ?_, inside.map⟩
    rw [decodeObjectDestructive, done]

end InTurn

/-! ## Reading a key -/

/-- What makes a read of a key complete: no statement of it fails, and in whatever order the rows
come, the memory suffices for what is stored there, and for the values of its texts, none of
which is a map. -/
structure Readable (decoder : JsonDecoder) (fault : Fault) (database : Database)
    (readMemory decodeMemory : Nat) (id : Nat) : Prop where
  clear : database.Clear fault id
  room : ∀ object, database.Reads id object →
    ∃ left, bumpAllocator.allocAll (gglBumpAllocInit readMemory) (object.requests true) = some left
  decodes : ∀ object, database.Reads id object →
    DecodesInTurn decoder (object.leaves.map Prod.snd) (gglBumpAllocInit decodeMemory)

section Reading

variable {decoder : JsonDecoder} {fault : Fault} {daemon : Ggconfigd} {params : GglMap}
  {keyPath : List Buffer} {readMemory decodeMemory : Nat} {ids : Vec Nat maxObjectDepth}

/-- A key that is found and readable is answered with its decoded content. -/
theorem rpcReadBy_of_readable (isOpen : daemon.configInitialized = true)
    (inv : daemon.configDatabase.Inv)
    (requested : gglMapGet params (gglStr "key_path") = some (.list (keyPath.map .buf)))
    (nonempty : keyPath ≠ []) (found : getKeyIds fault daemon.configDatabase keyPath = .ok ids)
    (readable : Readable decoder fault daemon.configDatabase readMemory decodeMemory
      (lastKeyId ids)) :
    ∃ object answer left, daemon.configDatabase.Reads (lastKeyId ids) object ∧
      rpcReadBy decoder (ggconfigGetValueFromKey fault daemon readMemory) decodeMemory params =
        .ok answer ∧ Decoded decoder object answer [] left := by
  obtain ⟨object, reads, answers⟩ := ggconfigGetValueFromKey_of_trail isOpen inv nonempty found
    (trail_of_getKeyIds inv.toWf found) readable.clear
  obtain ⟨taken, granted⟩ := readable.room object reads
  obtain ⟨answer, left, done, decoded⟩ := decode_object (readable.decodes object reads)
  refine ⟨object, answer, left, reads, ?_, decoded⟩
  rw [rpcReadBy_of_list requested, answers readMemory taken granted, Except.map, done]

theorem exists_of_forall₂ {α β : Type} {related : α → β → Prop} {first : List α} {second : List β}
    (all : Forall₂ related first second) :
    (∀ a ∈ first, ∃ b ∈ second, related a b) ∧ ∀ b ∈ second, ∃ a ∈ first, related a b := by
  induction all with
  | nil => exact ⟨nofun, nofun⟩
  | cons here _ ih => simp_all

/-- What a key reads as shows everything stored below its path. -/
theorem Decoded.complete {database : Database} (wf : database.Wf) {id : Nat}
    (reached : database.forest.Path none keyPath (some id)) {object answer : GglObject}
    {more : List GglObject} {left : BumpAlloc} (reads : database.Reads id object)
    (decoded : Decoded decoder object answer more left) :
    Complete decoder database keyPath answer := by
  obtain ⟨forward, backward⟩ := exists_of_forall₂ decoded.leaves
  constructor
  · rintro rest text time ⟨target, path, member⟩
    have leaf := (reads.mem_leaves_iff rest (.buf text)).mpr
      ⟨text, time, target, rfl, (reached.append_iff wf.forest).mp path, member⟩
    obtain ⟨⟨_, value⟩, shown, rfl, _, ⟨⟩, decodes⟩ := forward _ leaf
    exact ⟨value, decodes, shown⟩
  · intro rest value shown
    obtain ⟨⟨_, _⟩, leaf, rfl, text, rfl, decodes⟩ := backward _ shown
    obtain ⟨_, time, target, ⟨⟩, path, member⟩ := (reads.mem_leaves_iff _ _).mp leaf
    exact ⟨text, time, ⟨target, (reached.append_iff wf.forest).mpr path, member⟩, decodes⟩

end Reading

theorem digitDecoder_decodes (decodes : Decodes digitDecoder text value) :
    ∃ number, value = .i64 number := by
  obtain ⟨-, alloc, decoded⟩ := decodes
  rw [digitDecoder] at decoded
  dsimp only at decoded
  split at decoded
  · exact ⟨_, (Except.ok.inj decoded).symm⟩
  · cases decoded

/-- A configuration with the two values `a/b` and `a/c`. -/
def nestedDaemon : Ggconfigd :=
  (serveAll Ggconfigd.opened nestedCalls).2

end GreengrassLite.Config

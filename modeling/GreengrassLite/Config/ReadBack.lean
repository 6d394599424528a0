import GreengrassLite.Config.Client
import GreengrassLite.Config.Settle
import Mathlib.Data.List.Perm.Basic

/-!
# Reading the configuration back

`ggl_gg_config_read` of `core-bus-gg-config/src/gg_config.c` calls the `read`
method of `ggconfigd`.  `rpc_read` of `ggconfigd/src/db_corebus.c` answers it
with what is stored at the path, every value of which is decoded from its JSON
text in place.  The error of the decoding is not looked at.

A map of strings that was written at a path is read back as it was if every
write took effect, nothing else is stored below the path, the strings survive
their encoding and the answer fits into the memory of the read.
-/

namespace GreengrassLite.Config

open GreengrassLite.Library List GglObject

universe u

/-- `GGL_COREBUS_MAX_MSG_LEN`, the memory of a read. -/
def corebusMaxMsgLen : Nat := 10000

/-- `GGCONFIGD_MAX_OBJECT_DECODE_BYTES`. -/
def maxObjectDecodeBytes : Nat := 9000

/-- `ggl_json_decode_destructive` as the read uses it. -/
structure JsonDecoder where
  decode : Buffer → BumpAlloc → Except GglError GglObject × BumpAlloc
  /-- What a failed decoding leaves of the text. -/
  damaged : Buffer → Buffer
  /-- The pairs that are seen when a text is taken for a map. -/
  mistaken : Buffer → GglMap

section Source

variable (decoder : JsonDecoder)

mutual

/-- `decode_object_destructive`.  The object is changed in place, also by a
decoding that fails.  A text that decodes to a map is refused after its type has
been changed. -/
def decodeObjectDestructive :
    GglObject → BumpAlloc → Except GglError Unit × GglObject × BumpAlloc
  | .buf text, alloc =>
    match decoder.decode text alloc with
    | (.error _, alloc) => (.error .failure, .buf (decoder.damaged text), alloc)
    | (.ok (.map _), alloc) => (.error .failure, .map (decoder.mistaken text), alloc)
    | (.ok object, alloc) => (.ok (), object, alloc)
  | .map pairs, alloc =>
    let decoded := decodePairsDestructive pairs alloc
    (decoded.1, .map decoded.2.1, decoded.2.2)
  | object, alloc => (.error .failure, object, alloc)

/-- The loop of `decode_object_destructive` over the pairs of a map. -/
def decodePairsDestructive :
    GglMap → BumpAlloc → Except GglError Unit × GglMap × BumpAlloc
  | [], alloc => (.ok (), [], alloc)
  | (key, value) :: rest, alloc =>
    match decodeObjectDestructive value alloc with
    | (.error error, value, alloc) => (.error error, (key, value) :: rest, alloc)
    | (.ok (), value, alloc) =>
      let decoded := decodePairsDestructive rest alloc
      (decoded.1, (key, value) :: decoded.2.1, decoded.2.2)

end

/-- The argument `key_path` of `rpc_read` and `rpc_subscribe`. -/
def keyPathArgument (params : GglMap) : Except GglError (List Buffer) :=
  match gglMapGet params (gglStr "key_path") with
  | some (.list keyPath) =>
    match gglListTypeCheck keyPath .buf with
    | .error _ => .error .range
    | .ok () => .ok (bufferItems keyPath)
  | _ => .error .invalid

/-- `rpc_read` over a read of the store, with this much memory for the decoding. -/
def rpcReadBy (read : List Buffer → Except GglError GglObject) (decodeMemory : Nat)
    (params : GglMap) : Except GglError GglObject :=
  match keyPathArgument params with
  | .error error => .error error
  | .ok keyPath =>
    match read keyPath with
    | .error error => .error error
    | .ok value => .ok (decodeObjectDestructive decoder value (gglBumpAllocInit decodeMemory)).2.1

/-- `rpc_read`. -/
def rpcRead (fault : Fault) (daemon : Ggconfigd) : GglMap → Except GglError GglObject :=
  rpcReadBy decoder (ggconfigGetValueFromKey fault daemon corebusMaxMsgLen) maxObjectDecodeBytes

end Source

/-- The core bus between a client and the configuration: it may refuse a message
and it may fail to bring an answer, but it changes none. -/
structure Transport where
  deliver : GglMap → Except GglError Unit
  receive : GglObject → BumpAlloc → Except GglError GglObject × BumpAlloc
  intact : ∀ {object received : GglObject} {alloc : BumpAlloc},
    (receive object alloc).1 = .ok received → received = object

/-- The arguments of the call `ggl_gg_config_read` makes. -/
def readArguments (keyPath : List Buffer) : GglMap :=
  [(gglStr "key_path", .list (keyPath.map .buf))]

/-- `ggl_gg_config_read`, where `method` serves the call. -/
def gglGgConfigRead (transport : Transport) (method : GglMap → Except GglError GglObject)
    (keyPath : List Buffer) (alloc : BumpAlloc) : Except GglError GglObject × BumpAlloc :=
  if maxObjectDepth < keyPath.length then
    (.error .unsupported, alloc)
  else
    match gglSerializeNesting 1 (.map (readArguments keyPath)) with
    | .error error => (.error error, alloc)
    | .ok () =>
      match transport.deliver (readArguments keyPath) with
      | .error error => (.error error, alloc)
      | .ok () =>
        match method (readArguments keyPath) with
        | .error error => (.error error, alloc)
        | .ok object => transport.receive object alloc

/-- What a client reads is what the method answers. -/
theorem method_of_gglGgConfigRead {transport : Transport}
    {method : GglMap → Except GglError GglObject} {keyPath : List Buffer} {alloc : BumpAlloc}
    {object : GglObject}
    (read : (gglGgConfigRead transport method keyPath alloc).1 = .ok object) :
    method (readArguments keyPath) = .ok object := by
  unfold gglGgConfigRead at read
  split at read
  · cases read
  split at read
  · cases read
  split at read
  · cases read
  split at read
  · cases read
  · rename_i answer answered
    rw [transport.intact read]
    exact answered

section KeyPathArgument

variable {params : GglMap} {keyPath : List Buffer} {decoder : JsonDecoder} {decodeMemory : Nat}
  (requested : gglMapGet params (gglStr "key_path") = some (.list (keyPath.map .buf)))

include requested

@[simp]
theorem keyPathArgument_of_list : keyPathArgument params = .ok keyPath := by
  simp only [keyPathArgument, requested, gglListTypeCheck_map_buf, bufferItems_map_buf]

@[simp]
theorem rpcReadBy_of_list {read : List Buffer → Except GglError GglObject} :
    rpcReadBy decoder read decodeMemory params = (read keyPath).map fun value =>
      (decodeObjectDestructive decoder value (gglBumpAllocInit decodeMemory)).2.1 := by
  simp only [rpcReadBy, keyPathArgument_of_list requested]
  cases read keyPath <;> rfl

/-- A read that is answered has found the ids of its path. -/
theorem found_of_rpcReadBy {fault : Fault} {daemon : Ggconfigd}
    {lastId : Vec Nat maxObjectDepth → Nat} {memory : Nat} {answer : GglObject}
    (answered : rpcReadBy decoder (getValueFromKeyBy fault lastId daemon memory) decodeMemory
      params = .ok answer) :
    daemon.configInitialized = true ∧
      ∃ ids, getKeyIds fault daemon.configDatabase keyPath = .ok ids := by
  rw [rpcReadBy_of_list requested, getValueFromKeyBy] at answered
  split at answered
  · cases answered
  next isOpen =>
    split at answered
    · cases answered
    next ids found => exact ⟨Bool.eq_true_of_not_eq_false isOpen, ids, found⟩

end KeyPathArgument

@[simp]
theorem rpcRead_readArguments (decoder : JsonDecoder) (fault : Fault) (daemon : Ggconfigd)
    (keyPath : List Buffer) :
    rpcRead decoder fault daemon (readArguments keyPath) =
      (ggconfigGetValueFromKey fault daemon corebusMaxMsgLen keyPath).map fun value =>
        (decodeObjectDestructive decoder value (gglBumpAllocInit maxObjectDecodeBytes)).2.1 :=
  rpcReadBy_of_list rfl

/-! ## Maps of strings -/

/-- A map all of whose values are strings. -/
def stringMap (entries : List (Buffer × Buffer)) : GglMap :=
  entries.map fun entry => (entry.1, .buf entry.2)

@[simp]
theorem stringMap_cons (entry : Buffer × Buffer) (rest : List (Buffer × Buffer)) :
    stringMap (entry :: rest) = (entry.1, .buf entry.2) :: stringMap rest :=
  rfl

/-- The bounded traversal of a map of strings reaches every string. -/
theorem reached_stringMap {keys : List Buffer} (room : keys.length < maxObjectDepth)
    (entries : List (Buffer × Buffer)) :
    Visit.reached (Visit.snocWithin maxObjectDepth) keys
        (map (stringMap entries)).visits =
      entries.map fun entry => (keys ++ [entry.1], .buf entry.2) := by
  induction entries with
  | nil => rfl
  | cons entry rest ih =>
    rw [visits] at ih ⊢
    rw [stringMap_cons, pairsVisits, visits_of_not_map rfl]
    simp only [cons_append, nil_append, Visit.reached, Visit.snocWithin, if_pos room,
      dropLast_concat, map_cons]
    rw [← ih]

/-- The read memory a map needs does not depend on the order of its pairs. -/
theorem pairsReadSize_perm {first second : GglMap} (perm : first.Perm second) :
    pairsReadSize first = pairsReadSize second := by
  induction perm with
  | nil => rfl
  | cons pair _ ih => rw [pairsReadSize, pairsReadSize, ih]
  | swap pair other rest =>
    simp only [pairsReadSize]
    omega
  | trans _ _ ihFirst ihSecond => rw [ihFirst, ihSecond]

/-! ## Writing leaves -/

variable {printG : UInt64 → Buffer} {daemon : Ggconfigd} {map : ConfigMap} {timestamp : Int}

/-- The configuration after a list of values was written at one time, all of them
or up to the first failure. -/
structure Merged (printG : UInt64 → Buffer) (map written : ConfigMap) (timestamp : Int)
    (leaves : List (List Buffer × GglObject)) (result : Except GglError Unit) : Prop where
  others : ∀ path, path ∉ leaves.map Prod.fst → written.lookup path = map.lookup path
  recorded : result = .ok () → (leaves.map Prod.fst).Nodup →
    (∀ leaf ∈ leaves, ∀ value time, map.lookup leaf.1 = some (value, time) → time ≤ timestamp) →
    ∀ leaf ∈ leaves, ∃ text, Json.gglJsonEncode 1024 printG leaf.2 = .ok text ∧
      written.lookup leaf.1 = some (text, timestamp)

/-- Writing values one after the other changes only their paths, and a success
has recorded all of them. -/
theorem writeLeaves_merged (represents : daemon.Represents map) (inv : daemon.Inv)
    {leaves : List (List Buffer × GglObject)}
    (valid : ∀ leaf ∈ leaves, leaf.1 ≠ [] ∧ leaf.1.length ≤ maxObjectDepth) :
    ∃ written,
      (writeLeaves printG (ggconfigWriteValueAtKey noFault) timestamp leaves
          daemon).2.Represents written ∧
      (writeLeaves printG (ggconfigWriteValueAtKey noFault) timestamp leaves daemon).2.Inv ∧
      Merged printG map written timestamp leaves
        (writeLeaves printG (ggconfigWriteValueAtKey noFault) timestamp leaves daemon).1 := by
  obtain ⟨first, settled, isPrefix, all, settledRepresents, settledInv, lookups⟩ :=
    writeLeaves_settles represents inv valid rfl
  refine ⟨settled, settledRepresents, settledInv, ?_, ?_⟩
  · intro path elsewhere
    rw [lookups, lastText_of_notMem fun inside =>
      elsewhere ((isPrefix.map Prod.fst).subset inside)]
    rfl
  · intro succeeded distinct notNewer leaf member
    obtain ⟨text, encoded⟩ := encoded_of_writeLeaves (Prod.ext succeeded rfl) leaf member
    refine ⟨text, encoded, ?_⟩
    rw [lookups, all succeeded, lastText_of_mem distinct member, encoded]
    exact PrefixMap.overwrite_of_not_newer text (notNewer leaf member)

/-! ## Reading strings -/

/-- The JSON text that is stored for a string. -/
def storedText (printG : UInt64 → Buffer) (value : Buffer) : Buffer :=
  match Json.gglJsonEncode 1024 printG (.buf value) with
  | .ok text => text
  | .error _ => []

/-- The entries with the texts that are stored for them. -/
def storedTexts (printG : UInt64 → Buffer) (entries : List (Buffer × Buffer)) :
    List (Buffer × Buffer) :=
  entries.map fun entry => (entry.1, storedText printG entry.2)

/-- A text is decoded to this string, whatever memory is left. -/
def JsonDecoder.Restores (decoder : JsonDecoder) (text value : Buffer) : Prop :=
  ∀ alloc, ∃ left, decoder.decode text alloc = (.ok (.buf value), left)

/-- Texts that all decode to their strings are replaced by them. -/
theorem decodePairsDestructive_storedTexts {decoder : JsonDecoder}
    {entries : List (Buffer × Buffer)}
    (restores : ∀ entry ∈ entries, decoder.Restores (storedText printG entry.2) entry.2)
    (alloc : BumpAlloc) :
    (decodePairsDestructive decoder (stringMap (storedTexts printG entries)) alloc).2.1 =
      stringMap entries := by
  induction entries generalizing alloc with
  | nil => rfl
  | cons entry rest ih =>
    obtain ⟨restored, others⟩ := forall_mem_cons.mp restores
    obtain ⟨left, decoded⟩ := restored alloc
    rw [storedTexts, map_cons, ← storedTexts, stringMap_cons, decodePairsDestructive,
      decodeObjectDestructive, decoded]
    exact congrArg _ (ih others left)

/-- Contents of one level are the pairs of a map of strings. -/
theorem Nests.perm_stringMap {pairs : GglMap} {contents : List Buffer → Option (Buffer × Int)}
    (nests : Nests pairs contents) {texts : List (Buffer × Buffer)}
    (distinct : (texts.map Prod.fst).Nodup)
    (flat : ∀ rest value, (∃ time, contents rest = some (value, time)) ↔
      ∃ name, rest = [name] ∧ (name, value) ∈ texts) :
    pairs.Perm (stringMap texts) := by
  have wellNested := nests.wellNested
  have textsNodup : (stringMap texts).Nodup := by
    apply List.Nodup.of_map Prod.fst
    rw [stringMap, map_map]
    exact distinct
  apply (perm_ext_iff_of_nodup (List.Nodup.of_map _ wellNested.2.1) textsNodup).mpr
  rintro ⟨name, object⟩
  constructor
  · intro member
    obtain ⟨⟨rest, leaf⟩, leafMember⟩ :=
      exists_mem_leaves (wellNested_of_mem wellNested.2.2 member)
    have below := mem_pairsLeaves_iff.mpr ⟨_, member, rest, rfl, leafMember⟩
    obtain ⟨value, time, rfl, found⟩ := (nests.mem_leaves_iff _ _).mp below
    obtain ⟨other, path, isText⟩ := (flat _ value).mp ⟨time, found⟩
    obtain ⟨rfl, rfl⟩ := cons.inj path
    obtain rfl : object = .buf value := eq_of_nil_mem_leaves leafMember
    exact mem_map.mpr ⟨_, isText, rfl⟩
  · intro member
    obtain ⟨⟨text, value⟩, isText, equal⟩ := mem_map.mp member
    obtain ⟨rfl, rfl⟩ := Prod.mk.inj equal
    obtain ⟨time, found⟩ := (flat [text] value).mpr ⟨text, rfl, isText⟩
    have leafMember := (nests.mem_leaves_iff [text] (.buf value)).mpr ⟨value, time, rfl, found⟩
    obtain ⟨⟨key, object⟩, pairMember, rest, path, here⟩ :=
      mem_pairsLeaves_iff.mp leafMember
    obtain ⟨rfl, rfl⟩ := cons.inj path
    obtain rfl : object = .buf value := eq_of_nil_mem_leaves here
    exact pairMember

section Answers

variable {decoder : JsonDecoder} {keys : List Buffer}

section

variable (represents : daemon.Represents map) (inv : daemon.Inv) (nonempty : keys ≠ [])
  (short : keys.length ≤ maxObjectDepth)

include represents inv nonempty short

/-- A path with nothing at or below it is not found. -/
theorem rpcRead_of_missing (nothing : ∀ rest, map.lookup (keys ++ rest) = none) :
    rpcRead decoder noFault daemon (readArguments keys) = .error .noentry := by
  have agrees := represents.read_agrees inv nonempty short corebusMaxMsgLen
  have here : map.lookup keys = none := by simpa using nothing []
  have below : ¬∃ rest, map.lookup (keys ++ rest) ≠ none := by
    rintro ⟨rest, stored⟩
    exact stored (nothing rest)
  have missing : map.read keys = .missing := by
    rw [PrefixMap.read, here]
    exact if_neg below
  rw [missing] at agrees
  have failed : ggconfigGetValueFromKey noFault daemon corebusMaxMsgLen keys =
      .error .noentry := agrees
  rw [rpcRead_readArguments, failed]
  rfl

/-- A path with only the texts of strings below it is read as the map of these
strings, in some order. -/
theorem rpcRead_of_strings {entries : List (Buffer × Buffer)} (some_entry : entries ≠ [])
    (distinct : (entries.map Prod.fst).Nodup)
    (stored : ∀ rest value, (∃ time, map.lookup (keys ++ rest) = some (value, time)) ↔
      ∃ name, rest = [name] ∧ (name, value) ∈ storedTexts printG entries)
    (restores : ∀ entry ∈ entries, decoder.Restores (storedText printG entry.2) entry.2)
    (fits : readSize (.map (stringMap (storedTexts printG entries))) ≤ corebusMaxMsgLen) :
    ∃ order, order.Perm entries ∧
      rpcRead decoder noFault daemon (readArguments keys) = .ok (.map (stringMap order)) := by
  have agrees := represents.read_agrees inv nonempty short corebusMaxMsgLen
  have here : map.lookup keys = none := by
    cases found : map.lookup keys with
    | none => rfl
    | some entry =>
      rw [← append_nil keys] at found
      obtain ⟨name, path, _⟩ := (stored [] entry.1).mp ⟨entry.2, found⟩
      cases path
  have below : ∃ rest, map.lookup (keys ++ rest) ≠ none := by
    obtain ⟨entry, member⟩ := exists_mem_of_ne_nil entries some_entry
    obtain ⟨time, found⟩ := (stored [entry.1] (storedText printG entry.2)).mpr
      ⟨entry.1, rfl, mem_map_of_mem member⟩
    exact ⟨[entry.1], by simp [found]⟩
  have reading : map.read keys = .below fun rest => map.lookup (keys ++ rest) := by
    rw [PrefixMap.read, here]
    exact if_pos below
  rw [reading] at agrees
  obtain ⟨pairs, nests, answers⟩ := agrees
  have distinctTexts : ((storedTexts printG entries).map Prod.fst).Nodup := by
    rw [storedTexts, map_map]
    exact distinct
  have perm := nests.perm_stringMap distinctTexts stored
  -- The order in which the pairs are read is an order of the entries.
  obtain ⟨order, isMap, orderPerm⟩ : ∃ order, pairs = stringMap (storedTexts printG order) ∧
      order.Perm entries := by
    rw [stringMap, storedTexts, map_map] at perm
    have composed := eq_map_comp_perm
      ((fun entry : Buffer × Buffer => (entry.1, buf entry.2)) ∘
        fun entry : Buffer × Buffer => (entry.1, storedText printG entry.2))
    obtain ⟨order, equal, orderPerm⟩ := (congrFun (congrFun composed pairs) entries).mpr perm
    refine ⟨order, ?_, orderPerm⟩
    rw [equal, stringMap, storedTexts, map_map]
  rw [readSize, perm.length_eq, pairsReadSize_perm perm] at answers
  refine ⟨order, orderPerm, ?_⟩
  rw [rpcRead_readArguments, answers fits (by decide), isMap]
  have decoded := @decodePairsDestructive_storedTexts printG decoder order
    (fun entry member => restores entry (orderPerm.mem_iff.mp member))
    (gglBumpAllocInit maxObjectDecodeBytes)
  rw [Except.map, decodeObjectDestructive, decoded]

end

end Answers

end GreengrassLite.Config

import GreengrassLite.Config.Convergence
import GreengrassLite.Config.Merge
import GreengrassLite.Core.Content

/-!
# What a path holds after a list of writes

`rpc_write` writes the leaves of a value one by one with one timestamp.  When all of
them are written, every path holds the last text that was written there, unless it
held something newer, and every other path what it held before.
-/

namespace GreengrassLite.Config

open GreengrassLite.Library List GglObject Visit

variable {leaves : List (List Buffer × GglObject)} {daemon : Ggconfigd} {value : GglObject}

/-- The text of the last value that is written at a path. -/
def lastText (printG : UInt64 → Buffer) (path : List Buffer) :
    List (List Buffer × GglObject) → Option Buffer
  | [] => none
  | (keyPath, value) :: rest =>
    (lastText printG path rest).or
      (if keyPath = path then (Json.gglJsonEncode 1024 printG value).toOption else none)

/-- What a path holds after values of one age were written, given the last text for it. -/
def settle (text : Option Buffer) (timestamp : Int) (stored : Option (Buffer × Int)) :
    Option (Buffer × Int) :=
  match text with
  | none => stored
  | some text => PrefixMap.overwrite text timestamp stored

/-- Of two lists of values that were written the second decides. -/
@[simp]
theorem settle_settle (first second : Option Buffer) (timestamp : Int)
    (stored : Option (Buffer × Int)) :
    settle second timestamp (settle first timestamp stored) =
      settle (second.or first) timestamp stored := by
  cases second with
  | none => rfl
  | some text =>
    cases first with
    | none => rfl
    | some other => exact PrefixMap.overwrite_overwrite other text timestamp stored

section Leaves

variable {printG : UInt64 → Buffer} {timestamp : Int} {path : List Buffer}
  {map : ConfigMap} {leaf : List Buffer × GglObject}
  {outcome : Except GglError Unit × Ggconfigd} {final : Ggconfigd} {keys : List Buffer}

/-- A value that is written settles its path, and one that is not changes nothing. -/
theorem processNonmap_settles (represents : daemon.Represents map) (inv : daemon.Inv)
    (valid : leaf.1 ≠ [] ∧ leaf.1.length ≤ maxObjectDepth)
    (written : processNonmap printG (ggconfigWriteValueAtKey noFault) leaf.1 leaf.2 timestamp
      daemon = outcome) :
    ∃ settled : ConfigMap, outcome.2.Represents settled ∧ outcome.2.Inv ∧
      (outcome.1 ≠ .ok () ∧ settled = map ∨ ∀ path, settled.lookup path =
        settle (lastText printG path [leaf]) timestamp (map.lookup path)) := by
  subst written
  unfold processNonmap
  cases encoded : Json.gglJsonEncode 1024 printG leaf.2 with
  | error error => exact ⟨map, represents, inv, .inl ⟨nofun, rfl⟩⟩
  | ok text =>
    have call : (Call.write leaf.1 text timestamp).Valid := valid
    obtain ⟨agrees, servedRepresents⟩ := serve_refines represents inv call
    have reply : (ggconfigWriteValueAtKey noFault daemon leaf.1 text timestamp).1 =
        if (map.write leaf.1 text timestamp).1 then .ok () else .error .failure := agrees
    refine ⟨_, servedRepresents, serve_inv inv call, ?_⟩
    cases accepted : (map.write leaf.1 text timestamp).1 with
    | false =>
      refine .inl ⟨?_, PrefixMap.write_of_refused accepted⟩
      rw [reply, accepted]
      exact nofun
    | true =>
      refine .inr fun path => ?_
      rw [lastText, encoded]
      by_cases here : leaf.1 = path
      · subst here
        rw [if_pos rfl]
        exact PrefixMap.lookup_write_of_accepted accepted
      · rw [if_neg here]
        exact map.lookup_write_of_ne text timestamp (Ne.symm here)

/-- The values that are written before one fails settle every path. -/
theorem writeLeaves_settles (represents : daemon.Represents map) (inv : daemon.Inv)
    (valid : ∀ leaf ∈ leaves, leaf.1 ≠ [] ∧ leaf.1.length ≤ maxObjectDepth)
    (written : writeLeaves printG (ggconfigWriteValueAtKey noFault) timestamp leaves daemon =
      outcome) :
    ∃ first settled, first <+: leaves ∧ (outcome.1 = .ok () → first = leaves) ∧
      outcome.2.Represents settled ∧ outcome.2.Inv ∧
      ∀ path, settled.lookup path =
        settle (lastText printG path first) timestamp (map.lookup path) := by
  induction leaves generalizing daemon map with
  | nil =>
    subst written
    exact ⟨[], map, nil_prefix, fun _ => rfl, represents, inv, fun _ => rfl⟩
  | cons leaf rest ih =>
    obtain ⟨here, later⟩ := forall_mem_cons.mp valid
    rw [writeLeaves] at written
    cases step : processNonmap printG (ggconfigWriteValueAtKey noFault) leaf.1 leaf.2 timestamp
      daemon with
    | mk result middle =>
    obtain ⟨settled, settledRepresents, settledInv, lookups⟩ :=
      processNonmap_settles represents inv here step
    rw [step] at written
    cases result with
    | error error =>
      subst written
      have failed : (Except.error error : Except GglError Unit) ≠ .ok () := by simp
      rcases lookups with ⟨-, rfl⟩ | lookups
      · exact ⟨[], settled, nil_prefix, fun succeeded => absurd succeeded failed,
          settledRepresents, settledInv, fun _ => rfl⟩
      · exact ⟨[leaf], settled, by simp, fun succeeded => absurd succeeded failed,
          settledRepresents, settledInv, lookups⟩
    | ok done =>
      rcases lookups with ⟨failed, -⟩ | lookups
      · exact absurd rfl failed
      obtain ⟨first, final, isPrefix, all, finalRepresents, finalInv, ends⟩ :=
        ih settledRepresents settledInv later written
      refine ⟨leaf :: first, final, cons_prefix_cons.mpr ⟨rfl, isPrefix⟩,
        fun succeeded => by rw [all succeeded], finalRepresents, finalInv, fun path => ?_⟩
      rw [ends, lookups, settle_settle]
      rfl

@[simp]
theorem lastText_of_notMem (elsewhere : path ∉ leaves.map Prod.fst) :
    lastText printG path leaves = none := by
  induction leaves with
  | nil => rfl
  | cons leaf rest ih =>
    rw [map_cons, mem_cons, not_or] at elsewhere
    rw [lastText, ih elsewhere.2, if_neg (Ne.symm elsewhere.1), Option.none_or]

/-- A value whose path no other value has is the last for it. -/
theorem lastText_of_mem (distinct : (leaves.map Prod.fst).Nodup) (member : leaf ∈ leaves) :
    lastText printG leaf.1 leaves = (Json.gglJsonEncode 1024 printG leaf.2).toOption := by
  induction leaves with
  | nil => cases member
  | cons first rest ih =>
    rw [map_cons, nodup_cons] at distinct
    rcases mem_cons.mp member with rfl | later
    · rw [lastText, lastText_of_notMem distinct.1, if_pos rfl, Option.none_or]
    · have different : first.1 ≠ leaf.1 := by
        intro same
        exact distinct.1 (same ▸ mem_map_of_mem later)
      rw [lastText, ih distinct.2 later, if_neg different, Option.or_none]

/-- No key has the id zero, which stands for the missing last key of an empty path. -/
theorem Database.Wf.values_zero {database : Database} (wf : database.Wf) :
    (database.valueTable.filter fun row => row.keyid = 0) = [] := by
  rw [filter_eq_nil_iff]
  intro row member isZero
  obtain ⟨keyvalue, label⟩ := wf.valued row member
  have issued : 0 < row.keyid := (wf.issued _ (Database.forest_label_iff.mp label)).1
  rw [of_decide_eq_true isZero] at issued
  exact Nat.lt_irrefl 0 issued

/-- No value is written without a key. -/
theorem ggconfigWriteValueAtKey_nil (wf : daemon.configDatabase.Wf) (value : Buffer)
    (timestamp : Int) : (ggconfigWriteValueAtKey noFault daemon [] value timestamp).1 ≠ .ok () := by
  have refused : valueGetTimestamp noFault daemon.configDatabase
      (lastKeyId (Vec.empty Nat maxObjectDepth)) = .error .noentry := by
    have zero : lastKeyId (Vec.empty Nat maxObjectDepth) = 0 := rfl
    rw [valueGetTimestamp, execute_noFault, zero, Database.getTimestamp, wf.values_zero,
      map_nil]
  intro written
  rw [ggconfigWriteValueAtKey, writeValueAtKeyBy] at written
  split at written
  · cases written
  · have found : getKeyIds noFault daemon.configDatabase [] = .ok (Vec.empty Nat maxObjectDepth) :=
      rfl
    rw [found] at written
    dsimp only at written
    rw [writeExistingKey] at written
    split at written
    · cases written
    · cases written
    · rw [refused] at written
      cases written

theorem nonempty_of_writeLeaves (inv : daemon.Inv)
    (short : ∀ leaf ∈ leaves, leaf.1.length ≤ maxObjectDepth)
    (written : writeLeaves printG (ggconfigWriteValueAtKey noFault) timestamp leaves daemon =
      (.ok (), final)) : ∀ leaf ∈ leaves, leaf.1 ≠ [] := by
  induction leaves generalizing daemon with
  | nil => nofun
  | cons leaf rest ih =>
    obtain ⟨here, later⟩ := forall_mem_cons.mp short
    obtain ⟨text, middle, -, accepted, others⟩ := writeLeaves_cons_eq_ok written
    have nonempty : leaf.1 ≠ [] := by
      intro empty
      rw [empty] at accepted
      exact ggconfigWriteValueAtKey_nil inv.tables.toWf text timestamp
        (congrArg Prod.fst accepted)
    have call : (Call.write leaf.1 text timestamp).Valid := ⟨nonempty, here⟩
    have middleInv := serve_inv inv call
    rw [serve] at middleInv
    rw [accepted] at middleInv
    exact forall_mem_cons.mpr ⟨nonempty, ih middleInv later others⟩

/-- A value whose keys all fit is reached as its leaves. -/
theorem reached_of_fits (nonempty : keys ≠ []) (short : keys.length ≤ maxObjectDepth)
    (fits : Visit.Fits maxObjectDepth keys.length value.visits) :
    reached (snocWithin maxObjectDepth) keys value.visits =
        value.leaves.map (fun leaf => (keys ++ leaf.1, leaf.2)) ∧
      ∀ leaf ∈ value.leaves, (keys ++ leaf.1).length ≤ maxObjectDepth := by
  have within := ((visits_nested value).reached_within_iff nonempty short).mpr fits
  rw [reached_visits] at within
  exact ⟨within.1, fun leaf member => within.2 _ leaf.2 (mem_map_of_mem member)⟩

/-- The last text for a path is the text of a value that is written there. -/
theorem exists_of_lastText {text : Buffer} (last : lastText printG path leaves = some text) :
    ∃ value, (path, value) ∈ leaves ∧ Json.gglJsonEncode 1024 printG value = .ok text := by
  induction leaves with
  | nil => cases last
  | cons leaf rest ih =>
    rcases Option.or_eq_some_iff.mp last with later | ⟨-, here⟩
    · obtain ⟨value, member, encoded⟩ := ih later
      exact ⟨value, mem_cons_of_mem _ member, encoded⟩
    · split at here
      next same =>
        refine ⟨leaf.2, mem_cons.mpr (.inl (by rw [← same])), ?_⟩
        cases encoded : Json.gglJsonEncode 1024 printG leaf.2 with
        | error error => simp [encoded, Except.toOption] at here
        | ok written => simpa [encoded, Except.toOption] using here
      next => cases here

/-- All values of a list that is written have a text. -/
theorem encoded_of_writeLeaves {σ : Type*} {write : WriteValue σ} {store final : σ}
    (written : writeLeaves printG write timestamp leaves store = (.ok (), final)) :
    ∀ leaf ∈ leaves, ∃ text, Json.gglJsonEncode 1024 printG leaf.2 = .ok text := by
  induction leaves generalizing store with
  | nil => nofun
  | cons leaf rest ih =>
    obtain ⟨text, middle, encoded, -, others⟩ := writeLeaves_cons_eq_ok written
    exact forall_mem_cons.mpr ⟨⟨text, encoded⟩, ih others⟩

theorem exists_lastText {text : Buffer} (member : (path, value) ∈ leaves)
    (encoded : Json.gglJsonEncode 1024 printG value = .ok text) :
    ∃ last, lastText printG path leaves = some last := by
  induction leaves with
  | nil => cases member
  | cons leaf rest ih =>
    rw [lastText]
    cases later : lastText printG path rest with
    | some last => exact ⟨last, rfl⟩
    | none =>
      rcases mem_cons.mp member with rfl | inside
      · rw [if_pos rfl, encoded]
        exact ⟨text, rfl⟩
      · obtain ⟨last, found⟩ := ih inside
        cases later.symm.trans found

/-- A request that succeeds settles every path with the values that it reaches. -/
theorem Requests.settles {now : Int} {params : GglMap}
    (request : Requests now params keys value timestamp) (inv : daemon.Inv)
    (succeeded : rpcWrite printG (ggconfigWriteValueAtKey noFault) now params daemon =
      (.ok (), final)) :
    final.Inv ∧
      (∀ leaf ∈ reached (snocWithin maxObjectDepth) keys value.visits,
        leaf.1.length ≤ maxObjectDepth ∧
          ∃ text, Json.gglJsonEncode 1024 printG leaf.2 = .ok text) ∧
      ∀ path text time, final.configDatabase.Stored path text time ↔
        settle (lastText printG path
            (reached (snocWithin maxObjectDepth) keys value.visits)) timestamp
          ((daemon.configDatabase.contents inv.tables.toWf).lookup path) = some (text, time) := by
  have short := request.short_of_rpcWrite succeeded
  rw [request.rpcWrite_eq short] at succeeded
  have lengths : ∀ leaf ∈ reached (snocWithin maxObjectDepth) keys value.visits,
      leaf.1.length ≤ maxObjectDepth :=
    fun leaf member => length_of_mem_reached short member
  have nonempty := nonempty_of_writeLeaves inv lengths succeeded
  obtain ⟨_, settled, -, all, represents, finalInv, lookups⟩ :=
    writeLeaves_settles (Ggconfigd.represents_contents inv.tables.toWf) inv
      (fun leaf member => ⟨nonempty leaf member, lengths leaf member⟩) succeeded
  cases all rfl
  refine ⟨finalInv, fun leaf member => ⟨lengths leaf member, ?_⟩, fun path text time => ?_⟩
  · exact encoded_of_writeLeaves succeeded leaf member
  · rw [← represents, lookups]

end Leaves

/-! ## Paths that fit -/

section Fits

variable {capacity : Nat} {base : List Buffer}

/-- A pair is entered and left again before the pairs behind it. -/
theorem pairsVisits_cons_stays {key : Buffer} {rest : GglMap}
    (room : (base ++ [key]).length ≤ capacity)
    (here : Visit.Stays capacity (base ++ [key]) value.visits)
    (there : Visit.Stays capacity base (pairsVisits rest)) :
    Visit.Stays capacity base (pairsVisits ((key, value) :: rest)) := by
  have above : base.length ≤ capacity := by
    rw [length_append] at room
    omega
  have back : pathAfter snoc (base ++ [key]) value.visits = base ++ [key] :=
    (visits_nested value).settled (base ++ [key])
  have left : Visit.Stays capacity (base ++ [key]) ([.leave] : List (Visit Buffer GglObject)) := by
    refine .cons room (stays_nil ?_)
    rw [path, dropLast_concat]
    exact above
  refine .cons above (.append (.append here ?_) ?_)
  · rw [path, snoc, back]
    exact left
  · rw [path, snoc, pathAfter_concat, back, path, dropLast_concat]
    exact there

theorem visits_stays_of_not_map (isLeaf : value.isMap = false) (room : base.length ≤ capacity) :
    Visit.Stays capacity base value.visits := by
  rw [visits_of_not_map isLeaf]
  exact .cons room (stays_nil room)

/-- The first pair of a map leads to its value, and the others to theirs. -/
theorem objectAt_map_cons {key : Buffer} {rest : GglMap}
    (distinct : (map ((key, value) :: rest)).DistinctKeys) :
    (∀ path, (map ((key, value) :: rest)).objectAt (key :: path) = value.objectAt path) ∧
      ∀ path inner, (map rest).objectAt path = some inner →
        ∃ other, (map ((key, value) :: rest)).objectAt path = some other := by
  constructor
  · intro path
    rw [objectAt, gglMapGet_of_mem distinct.1 mem_cons_self]
    rfl
  · intro path inner found
    cases path with
    | nil => exact ⟨_, objectAt_nil _⟩
    | cons other path =>
      rcases objectAt_cons_eq_some found with ⟨pairs, below, same, got, later⟩
      cases same
      rw [objectAt,
        gglMapGet_of_mem distinct.1 (mem_cons_of_mem _ (mem_of_gglMapGet got))]
      exact ⟨inner, later⟩

/-- The traversal of a map goes no deeper than its objects. -/
theorem pairsVisits_stays {pairs : GglMap} (distinct : (map pairs).DistinctKeys)
    (short : ∀ path inner, (map pairs).objectAt path = some inner →
      (base ++ path).length ≤ capacity) :
    Visit.Stays capacity base (pairsVisits pairs) := by
  have behind : ∀ {key value rest} {base : List Buffer},
      (map ((key, value) :: rest)).DistinctKeys →
      (∀ path inner, (map ((key, value) :: rest)).objectAt path = some inner →
        (base ++ path).length ≤ capacity) →
      (map rest).DistinctKeys ∧
        ∀ path inner, (map rest).objectAt path = some inner →
          (base ++ path).length ≤ capacity := by
    intro key value rest base distinct short
    refine ⟨?_, fun path inner found => ?_⟩
    · rw [GglObject.DistinctKeys, map_cons, nodup_cons,
        GglObject.PairsDistinctKeys] at distinct
      exact ⟨distinct.1.2, distinct.2.2⟩
    · obtain ⟨other, whole⟩ := (objectAt_map_cons distinct).2 path inner found
      exact short path other whole
  induction pairs using pairs_induction generalizing base with
  | nil => exact stays_nil (by simpa using short [] _ rfl)
  | nested key pairs rest ihPairs ihRest =>
    obtain ⟨restDistinct, restShort⟩ := behind distinct short
    have into := (objectAt_map_cons distinct).1
    refine pairsVisits_cons_stays (short [key] (.map pairs) (into [])) ?_
      (ihRest restDistinct restShort)
    refine ihPairs distinct.2.1 fun path inner found => ?_
    rw [append_assoc]
    exact short (key :: path) inner ((into path).trans found)
  | leaf key value rest isLeaf ihRest =>
    obtain ⟨restDistinct, restShort⟩ := behind distinct short
    have room := short [key] value (((objectAt_map_cons distinct).1 []).trans
      (objectAt_nil value))
    exact pairsVisits_cons_stays room (visits_stays_of_not_map isLeaf room)
      (ihRest restDistinct restShort)

/-- A value none of whose objects lies deeper than the path may grow fits. -/
theorem fits_of_short (distinct : value.DistinctKeys)
    (short : ∀ path inner, value.objectAt path = some inner → (base ++ path).length ≤ capacity) :
    Visit.Fits capacity base.length value.visits := by
  have stays : Visit.Stays capacity base value.visits := by
    cases value using map_cases with
    | leaf value isLeaf =>
      exact visits_stays_of_not_map isLeaf
        (by simpa using short [] value (objectAt_nil value))
    | map pairs => exact pairsVisits_stays distinct short
  exact stays.fits (visits_nested value)

end Fits

end GreengrassLite.Config

import GreengrassLite.Config.Atomicity
import GreengrassLite.Config.ReadBack

/-!
# The key id at the end of a path

`read`, `write` and `subscribe` look the ids of a key path up and go on with the
last one, `ids.list.items[ids.list.len - 1]`.  The length is a `size_t`: an empty
vector has its last item at the largest index there is, that is before its first
one, and what stands there in memory is taken for a key id.

Here that id is a parameter of the functions of `Config.Store`, and the vectors are
recorded from which a request picks a key id.
-/

namespace GreengrassLite.Config

open GreengrassLite.Library List GglObject Ggconfigd Visit

variable {pick : Pick}

/-! ## Picking a key id -/

theorem ne_nil_of_trail {database : Database} {keyPath : List Buffer} {ids : List Nat}
    (nonempty : keyPath ≠ []) (trail : database.forest.Trail none keyPath ids) : ids ≠ [] := by
  rintro rfl
  exact nonempty (eq_nil_of_length_eq_zero trail.length_eq.symm)

/-- `ids.list.len - 1`. -/
def lastIndex (ids : Vec Nat maxObjectDepth) : Nat :=
  (ids.items.length + (2 ^ 64 - 1)) % 2 ^ 64

/-- The id at that index, where `stale` lies outside of the vector. -/
def keyIdAt (stale : Nat) (ids : Vec Nat maxObjectDepth) : Nat :=
  ids.items[lastIndex ids]?.getD stale

/-- A vector of key ids and the tables they belong to. -/
structure Pick where
  ids : Vec Nat maxObjectDepth
  database : Database

namespace Pick

/-- The index is one of the vector, and the id there is that of the path. -/
def Names (pick : Pick) (keyPath : List Buffer) : Prop :=
  ∃ id, pick.ids.items[lastIndex pick.ids]? = some id ∧
    pick.database.forest.Path none keyPath (some id)

theorem getElem?_index_of_nil (empty : pick.ids.items = []) :
    pick.ids.items[lastIndex pick.ids]? = none := by
  rw [empty]
  rfl

theorem getElem?_index_of_ne_nil (nonempty : pick.ids.items ≠ []) :
    pick.ids.items[lastIndex pick.ids]? = some (lastKeyId pick.ids) := by
  have positive := length_pos_of_ne_nil nonempty
  have bounded : pick.ids.items.length ≤ 15 := pick.ids.bounded
  have index : lastIndex pick.ids = pick.ids.items.length - 1 := by
    rw [lastIndex]
    omega
  rw [index, ← getLast?_eq_getElem?, lastKeyId,
    getLast?_eq_some_getLast nonempty, Option.getD_some]

theorem not_names_of_nil (empty : pick.ids.items = []) (keyPath : List Buffer) :
    ¬pick.Names keyPath := by
  rintro ⟨id, found, -⟩
  rw [getElem?_index_of_nil empty] at found
  cases found

theorem names_of_trail {keyPath : List Buffer} (nonempty : keyPath ≠ [])
    (trail : pick.database.forest.Trail none keyPath pick.ids.items) : pick.Names keyPath := by
  have items := ne_nil_of_trail nonempty trail
  exact ⟨_, getElem?_index_of_ne_nil items, lastKeyId_of_trail nonempty trail⟩

/-- In well-formed tables an id names one path only. -/
theorem Names.unique (wf : pick.database.Wf) {first second : List Buffer}
    (firstNames : pick.Names first) (secondNames : pick.Names second) : first = second := by
  rcases firstNames with ⟨id, found, firstPath⟩
  rcases secondNames with ⟨other, foundOther, secondPath⟩
  rw [found] at foundOther
  cases foundOther
  exact firstPath.labels_unique wf.forest secondPath

end Pick

/-! ## What a request picks from -/

section Source

variable (fault : Fault) (database : Database) (keyPath : List Buffer)

/-- The vector that a read or a subscription picks from. -/
def lookupPicks : List Pick :=
  match getKeyIds fault database keyPath with
  | .ok ids => [⟨ids, database⟩]
  | .error _ => []

/-- The vector that a write picks from: what it has found, or created where nothing was found. -/
def writePicks : List Pick :=
  match getKeyIds fault database keyPath with
  | .error .noentry =>
    match createKeyPath fault database keyPath with
    | .ok (ids, created) => [⟨ids, created⟩]
    | .error _ => []
  | .error _ => []
  | .ok ids => [⟨ids, database⟩]

/-- The write as `rpc_write` calls it, with the picks of all writes so far. -/
def writeRecording (stale : Nat) : WriteValue (Ggconfigd × List Pick) :=
  fun store keyPath value timestamp =>
    let outcome := writeValueAtKeyBy fault (keyIdAt stale) store.1 keyPath value timestamp
    (outcome.1, outcome.2, store.2 ++ writePicks fault store.1.configDatabase keyPath)

/-- `rpc_subscribe`. -/
def rpcSubscribe (stale : Nat) (daemon : Ggconfigd) (params : GglMap) (handle : UInt32) :
    Except GglError Unit × Ggconfigd :=
  match keyPathArgument params with
  | .error error => (.error error, daemon)
  | .ok keyPath => getKeyNotificationBy fault (keyIdAt stale) daemon keyPath handle

end Source

/-! ## Looking a path up -/

section Lookup

variable {stale : Nat} {fault : Fault} {database : Database} {keyPath : List Buffer}

/-- A query names fifteen keys, so it has no more rows. -/
theorem findElement_length_le (wf : database.Wf) (keyPath : List Buffer) :
    (database.findElement keyPath).length ≤ maxObjectDepth := by
  by_contra long
  exact absurd ((Database.lt_findElement_length_iff wf).mp (Nat.lt_of_not_le long)).2.1
    (Nat.lt_irrefl _)

variable {ids : Vec Nat maxObjectDepth}

/-- Ids are found only for a path of at most fifteen keys that exists, and they are those of
the keys along it. -/
theorem trail_of_getKeyIds (wf : database.Wf) (found : getKeyIds fault database keyPath = .ok ids) :
    database.forest.Trail none keyPath ids.items := by
  have clear : getKeyIds noFault database keyPath = .ok ids := by
    rcases getKeyIds_fault database keyPath with same | failed
    · rw [← same, found]
    · rw [found] at failed
      cases failed
  have short : keyPath.length ≤ maxObjectDepth := by
    by_contra long
    have missing : getKeyIds noFault database keyPath = .error .noentry := by
      refine (getKeyIdsLoop_eq_noentry_iff 0 keyPath _ _).mpr ⟨?_, fun _ _ => rfl⟩
      exact Nat.lt_of_le_of_lt (findElement_length_le wf keyPath) (Nat.lt_of_not_le long)
    rw [clear] at missing
    cases missing
  by_cases exists_trail : ∃ nodes, database.forest.Trail none keyPath nodes
  · rcases exists_trail with ⟨nodes, trail⟩
    rcases getKeyIds_of_trail wf short trail with ⟨other, ok, items⟩
    rw [clear] at ok
    cases ok
    rwa [items]
  · rw [getKeyIds_of_no_trail wf short exists_trail] at clear
    cases clear

end Lookup

/-! ## Writing -/

section Writing

variable {stale : Nat} {fault : Fault} {daemon : Ggconfigd} {keyPath : List Buffer}
  {value : Buffer} {timestamp : Int}

/-- A write that succeeds has picked one id. -/
theorem exists_pick_of_write {lastId : Vec Nat maxObjectDepth → Nat}
    (succeeded : (writeValueAtKeyBy fault lastId daemon keyPath value timestamp).1 = .ok ()) :
    ∃ pick, writePicks fault daemon.configDatabase keyPath = [pick] := by
  rw [writeValueAtKeyBy] at succeeded
  rw [writePicks]
  split at succeeded
  · cases succeeded
  · cases found : getKeyIds fault daemon.configDatabase keyPath with
    | ok ids => exact ⟨_, rfl⟩
    | error error =>
      rw [found] at succeeded
      cases error with
      | noentry =>
        simp only [writeNewKey] at succeeded
        cases creation : createKeyPath fault daemon.configDatabase keyPath with
        | error error =>
          rw [creation] at succeeded
          cases succeeded
        | ok result => exact ⟨_, rfl⟩
      | _ => cases succeeded

/-- At a path with a key a write picks from the ids of the keys along it. -/
theorem trail_of_mem_writePicks {database : Database} (wf : database.Wf) (nonempty : keyPath ≠ [])
    (short : keyPath.length ≤ maxObjectDepth) (picked : pick ∈ writePicks fault database keyPath) :
    pick.database.Wf ∧ pick.database.forest.Trail none keyPath pick.ids.items := by
  rw [writePicks] at picked
  cases found : getKeyIds fault database keyPath with
  | ok ids =>
    rw [found] at picked
    cases mem_singleton.mp picked
    exact ⟨wf, trail_of_getKeyIds wf found⟩
  | error error =>
    rw [found] at picked
    cases error with
    | noentry =>
      dsimp only at picked
      cases creation : createKeyPath fault database keyPath with
      | error error =>
        rw [creation] at picked
        cases picked
      | ok result =>
        rw [creation] at picked
        cases mem_singleton.mp picked
        have created := createKeyPath_fault_wf wf nonempty short creation
        exact ⟨created.2.1, created.2.2.2⟩
    | _ => cases picked

/-- A write does what it does with the last id, if that is the one it takes. -/
theorem writeValueAtKeyBy_eq {lastId : Vec Nat maxObjectDepth → Nat}
    (last : ∀ pick ∈ writePicks fault daemon.configDatabase keyPath,
      lastId pick.ids = lastKeyId pick.ids) :
    writeValueAtKeyBy fault lastId daemon keyPath value timestamp =
      ggconfigWriteValueAtKey fault daemon keyPath value timestamp := by
  rw [ggconfigWriteValueAtKey, writeValueAtKeyBy, writeValueAtKeyBy]
  rw [writePicks] at last
  cases found : getKeyIds fault daemon.configDatabase keyPath with
  | ok ids =>
    rw [found] at last
    simp only [writeExistingKey, last _ mem_cons_self]
  | error error =>
    cases error with
    | noentry =>
      rw [found] at last
      dsimp only at last
      simp only [writeNewKey]
      cases creation : createKeyPath fault daemon.configDatabase keyPath with
      | error error => rfl
      | ok result =>
        rw [creation] at last
        simp only [last _ mem_cons_self]
    | _ => rfl

/-- Well-formed tables stay so, whichever statements fail. -/
theorem wf_writeValueAtKeyBy (wf : daemon.configDatabase.Wf) (nonempty : keyPath ≠ [])
    (short : keyPath.length ≤ maxObjectDepth) :
    (writeValueAtKeyBy fault (keyIdAt stale) daemon keyPath value
      timestamp).2.configDatabase.Wf := by
  rw [writeValueAtKeyBy_eq fun pick picked => by
    have trail := (trail_of_mem_writePicks wf nonempty short picked).2
    rw [keyIdAt, Pick.getElem?_index_of_ne_nil (ne_nil_of_trail nonempty trail), Option.getD_some]]
  by_cases isOpen : daemon.configInitialized = true
  · exact (wf_of_degrades ggconfigWriteValueAtKey_fault isOpen wf nonempty short
      (ggconfigWriteValueAtKey_written isOpen wf nonempty short)).2
  · rw [ggconfigWriteValueAtKey, writeValueAtKeyBy, if_pos (Bool.not_eq_true _ ▸ isOpen)]
    exact wf

end Writing

section Leaves

variable {printG : UInt64 → Buffer} {stale : Nat} {fault : Fault} {timestamp : Int}
  {leaves : List (List Buffer × GglObject)}

/-- When all leaves are written, each write has picked the id of its path. -/
theorem writeLeaves_names (paths : ∀ leaf ∈ leaves, leaf.1 ≠ [] ∧ leaf.1.length ≤ maxObjectDepth)
    {store final : Ggconfigd × List Pick} (wf : store.1.configDatabase.Wf)
    (succeeded : writeLeaves printG (writeRecording fault stale) timestamp leaves store =
      (.ok (), final)) :
    ∃ added, final.2 = store.2 ++ added ∧
      List.Forall₂ (fun leaf (pick : Pick) => pick.database.Wf ∧ pick.Names leaf.1) leaves
        added := by
  induction leaves generalizing store with
  | nil =>
    cases succeeded
    exact ⟨[], (append_nil _).symm, .nil⟩
  | cons leaf rest ih =>
    obtain ⟨⟨nonempty, short⟩, others⟩ := forall_mem_cons.mp paths
    obtain ⟨text, middle, -, accepted, later⟩ := writeLeaves_cons_eq_ok succeeded
    obtain ⟨outcome, rfl⟩ := Prod.mk.inj accepted
    obtain ⟨pick, picks⟩ := exists_pick_of_write outcome
    obtain ⟨pickWf, trail⟩ :=
      trail_of_mem_writePicks wf nonempty short (picks ▸ mem_singleton_self pick)
    have middleWf := @wf_writeValueAtKeyBy stale fault _ _ text timestamp wf nonempty short
    obtain ⟨added, shape, all⟩ := ih others (by exact middleWf) later
    refine ⟨pick :: added, ?_, .cons ⟨pickWf, Pick.names_of_trail nonempty trail⟩ all⟩
    rw [shape, picks, append_assoc]
    rfl

/-- Picks that name the paths of the writes name other paths only if these are the same. -/
theorem forall₂_names_iff {picks : List Pick}
    (all : List.Forall₂ (fun leaf (pick : Pick) => pick.database.Wf ∧ pick.Names leaf.1) leaves
      picks) (requested : List (List Buffer)) :
    List.Forall₂ (fun keyPath (pick : Pick) => pick.Names keyPath) requested picks ↔
      requested = leaves.map Prod.fst := by
  constructor
  · intro named
    induction all generalizing requested with
    | nil =>
      cases named
      rfl
    | cons here _ ih =>
      cases named with
      | cons name others =>
        rw [map_cons, ih _ others, name.unique here.1 here.2]
  · rintro rfl
    rw [forall₂_map_left_iff]
    exact all.imp fun _ _ both => both.2

/-- A value inside of a map is reached with a key. -/
theorem ne_nil_of_mem_reached (pairs : GglMap) (base : List Buffer) :
    ∀ leaf ∈ reached (snocWithin maxObjectDepth) base (pairsVisits pairs),
      leaf.1 ≠ [] := by
  have pushed : ∀ (base : List Buffer) (key : Buffer),
      snocWithin maxObjectDepth base key ≠ [] := by
    intro base key
    unfold snocWithin
    split
    · simp
    · rintro rfl
      exact absurd (Nat.succ_pos 14) ‹_›
  induction pairs using pairs_induction generalizing base with
  | nil => simp [pairsVisits, reached]
  | nested key pairs rest ihPairs ihRest =>
    intro leaf mem
    rw [pairsVisits, cons_append, reached, append_assoc,
      reached_append] at mem
    rcases mem_append.mp mem with mem | mem
    · exact ihPairs _ leaf mem
    · exact ihRest _ leaf mem
  | leaf key value rest isLeaf ihRest =>
    intro leaf mem
    rw [pairsVisits, visits_of_not_map isLeaf] at mem
    rcases mem_cons.mp mem with rfl | mem
    · exact pushed base key
    · exact ihRest _ leaf mem

end Leaves

/-! ## The three requests -/

/-- The requests that carry a key path. -/
inductive KeyRequest where
  | read
  | write (value : GglObject) (timestamp : Option Int)
  | subscribe (handle : UInt32)

namespace KeyRequest

/-- The parameters of a request with a key path. -/
def params (keys : List Buffer) : KeyRequest → GglMap
  | read => readArguments keys
  | write value none => readArguments keys ++ [(gglStr "value", value)]
  | write value (some timestamp) =>
    readArguments keys ++ [(gglStr "value", value), (gglStr "timestamp", .i64 timestamp)]
  | subscribe _ => readArguments keys

/-- What a request returns, and the vectors it has picked key ids from. -/
def serve (printG : UInt64 → Buffer) (decoder : JsonDecoder) (stale : Nat) (fault : Fault)
    (now : Int) (daemon : Ggconfigd) (keys : List Buffer) (request : KeyRequest) :
    Except GglError Unit × List Pick :=
  match request with
  | read =>
    ((rpcReadBy decoder (getValueFromKeyBy fault (keyIdAt stale) daemon corebusMaxMsgLen)
      maxObjectDecodeBytes (request.params keys)).map fun _ => (),
      lookupPicks fault daemon.configDatabase keys)
  | write _ _ =>
    let outcome := rpcWrite printG (writeRecording fault stale) now (request.params keys)
      (daemon, [])
    (outcome.1, outcome.2.2)
  | subscribe handle =>
    ((rpcSubscribe fault stale daemon (request.params keys) handle).1,
      lookupPicks fault daemon.configDatabase keys)

/-- The paths a request is about.  A map is written leaf by leaf. -/
def requested (keys : List Buffer) : KeyRequest → List (List Buffer)
  | write value _ => value.leaves.map fun leaf => keys ++ leaf.1
  | _ => [keys]

/-- There is a key to look up, and the vector of a map's keys never overflows to the cost of
a path. -/
def Intact (keys : List Buffer) : KeyRequest → Prop
  | write value _ =>
    (value.isMap = false → keys ≠ []) ∧
      reached (snocWithin maxObjectDepth) keys value.visits =
        reached snoc keys value.visits
  | _ => keys ≠ []

theorem requested_write (keys : List Buffer) (value : GglObject) (timestamp : Option Int) :
    (write value timestamp).requested keys =
      (reached snoc keys value.visits).map Prod.fst := by
  rw [requested, reached_visits, map_map]
  rfl

/-- The paths of the leaves agree exactly when the leaves do. -/
theorem reached_eq_iff_paths (keys : List Buffer) (value : GglObject) :
    (reached snoc keys value.visits).map Prod.fst =
        (reached (snocWithin maxObjectDepth) keys value.visits).map Prod.fst ↔
      reached (snocWithin maxObjectDepth) keys value.visits =
        reached snoc keys value.visits := by
  constructor
  · intro paths
    exact eq_of_map_fst_snd paths.symm (map_snd_reached ..)
  · intro same
    rw [same]

end KeyRequest

section Requests

variable {printG : UInt64 → Buffer} {decoder : JsonDecoder} {stale : Nat} {fault : Fault}
  {now : Int} {daemon : Ggconfigd} {keys : List Buffer}

/-- What a lookup has found names the path exactly when the path has a key. -/
theorem forall₂_lookup_iff (wf : daemon.configDatabase.Wf) {ids : Vec Nat maxObjectDepth}
    (found : getKeyIds fault daemon.configDatabase keys = .ok ids) :
    List.Forall₂ (fun keyPath (pick : Pick) => pick.Names keyPath) [keys]
        (lookupPicks fault daemon.configDatabase keys) ↔ keys ≠ [] := by
  rw [lookupPicks, found, forall₂_cons, and_iff_left .nil]
  constructor
  · rintro names rfl
    cases found
    exact Pick.not_names_of_nil rfl [] names
  · intro nonempty
    exact Pick.names_of_trail nonempty (trail_of_getKeyIds wf found)

/-- A read or a subscription that succeeds has found the ids of its path. -/
theorem found_of_read {answer : Unit}
    (succeeded : (KeyRequest.read.serve printG decoder stale fault now daemon keys).1 =
      .ok answer) : ∃ ids, getKeyIds fault daemon.configDatabase keys = .ok ids := by
  rw [KeyRequest.serve] at succeeded
  cases answered : rpcReadBy decoder (getValueFromKeyBy fault (keyIdAt stale) daemon
      corebusMaxMsgLen) maxObjectDecodeBytes (KeyRequest.read.params keys) with
  | error error =>
    rw [answered] at succeeded
    cases succeeded
  | ok object => exact (found_of_rpcReadBy rfl answered).2

@[inherit_doc found_of_read]
theorem found_of_subscribe {handle : UInt32} {answer : Unit}
    (succeeded : ((KeyRequest.subscribe handle).serve printG decoder stale fault now daemon
      keys).1 = .ok answer) : ∃ ids, getKeyIds fault daemon.configDatabase keys = .ok ids := by
  have argument : keyPathArgument (readArguments keys) = .ok keys := keyPathArgument_of_list rfl
  simp only [KeyRequest.serve, rpcSubscribe, KeyRequest.params, argument,
    getKeyNotificationBy] at succeeded
  split at succeeded
  · cases succeeded
  · split at succeeded
    · cases succeeded
    next ids found => exact ⟨ids, found⟩

theorem requests_of_write (value : GglObject) (timestamp : Option Int) :
    Requests now ((KeyRequest.write value timestamp).params keys) keys value
      (timestamp.getD now) := by
  cases timestamp with
  | none => exact ⟨rfl, rfl, .inr ⟨rfl, rfl⟩⟩
  | some timestamp => exact ⟨rfl, rfl, .inl rfl⟩

/-- A value without a key is written by an id beyond the empty vector. -/
theorem not_forall₂_keyless {value : GglObject} {timestamp : Int}
    {final : Ggconfigd × List Pick}
    (succeeded : writeLeaves printG (writeRecording fault stale) timestamp [([], value)]
      (daemon, []) = (.ok (), final)) :
    ¬List.Forall₂ (fun keyPath (pick : Pick) => pick.Names keyPath) [[]] final.2 := by
  obtain ⟨text, middle, -, accepted, later⟩ := writeLeaves_cons_eq_ok succeeded
  obtain ⟨outcome, rfl⟩ := Prod.mk.inj accepted
  cases later
  rintro (_ | ⟨name, -⟩)
  exact Pick.not_names_of_nil rfl [] name

/-- A write that succeeds has picked the ids of its paths exactly when these were kept. -/
theorem forall₂_write_iff (wf : daemon.configDatabase.Wf) {value : GglObject}
    {timestamp : Option Int}
    (succeeded : (KeyRequest.serve printG decoder stale fault now daemon keys
      (.write value timestamp)).1 = .ok ()) :
    List.Forall₂ (fun keyPath (pick : Pick) => pick.Names keyPath)
        ((KeyRequest.write value timestamp).requested keys)
        (KeyRequest.serve printG decoder stale fault now daemon keys (.write value timestamp)).2 ↔
      (KeyRequest.write value timestamp).Intact keys := by
  have served : (rpcWrite printG (writeRecording fault stale) now
      ((KeyRequest.write value timestamp).params keys) (daemon, [])).1 = .ok () := succeeded
  have short := (requests_of_write value timestamp).short_of_rpcWrite (Prod.ext served rfl)
  have run : KeyRequest.serve printG decoder stale fault now daemon keys (.write value timestamp) =
      ((writeLeaves printG (writeRecording fault stale) (timestamp.getD now)
          (reached (snocWithin maxObjectDepth) keys value.visits) (daemon, [])).1,
        (writeLeaves printG (writeRecording fault stale) (timestamp.getD now)
          (reached (snocWithin maxObjectDepth) keys value.visits) (daemon, [])).2.2) := by
    rw [KeyRequest.serve, (requests_of_write value timestamp).rpcWrite_eq short]
  rw [run] at succeeded ⊢
  by_cases keyless : value.isMap = false ∧ keys = []
  · rcases keyless with ⟨isLeaf, rfl⟩
    refine iff_of_false ?_ fun intact => intact.1 isLeaf rfl
    rw [visits_of_not_map isLeaf] at succeeded
    rw [KeyRequest.requested_write, visits_of_not_map isLeaf]
    exact not_forall₂_keyless (Prod.ext succeeded rfl)
  · have paths : ∀ leaf ∈ reached (snocWithin maxObjectDepth) keys value.visits,
        leaf.1 ≠ [] ∧ leaf.1.length ≤ maxObjectDepth := by
      refine fun leaf mem => ⟨?_, length_of_mem_reached short mem⟩
      cases value using map_cases with
      | leaf value isLeaf =>
        rw [visits_of_not_map isLeaf] at mem
        rw [mem_singleton.mp mem]
        exact fun empty => keyless ⟨isLeaf, empty⟩
      | map pairs => exact ne_nil_of_mem_reached pairs keys leaf mem
    rcases writeLeaves_names paths wf (Prod.ext succeeded rfl) with ⟨added, picks, all⟩
    rw [picks, nil_append, forall₂_names_iff all, KeyRequest.requested_write,
      KeyRequest.reached_eq_iff_paths, KeyRequest.Intact]
    exact (and_iff_right fun isLeaf empty => keyless ⟨isLeaf, empty⟩).symm

end Requests

/-- Decode a single digit. -/
def digitDecoder : JsonDecoder where
  decode text alloc :=
    match text with
    | [digit] => (.ok (.i64 (digit.toNat - 48)), alloc)
    | _ => (.error .parse, alloc)
  damaged text := text
  mistaken _ := []

/-- A configuration with the value `a`. -/
def singleDaemon : Ggconfigd :=
  (ggconfigWriteValueAtKey noFault opened [gglStr "a"] (gglStr "1") 0).2

end GreengrassLite.Config

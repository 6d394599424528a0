import GreengrassLite.Config.Settle
import GreengrassLite.Ipc.UpdateConfiguration

/-!
# The order of two updates

The store keeps for every key the value of greatest timestamp, and of two values
of one age the one that came last.  The timestamp of an UpdateConfiguration
request is given in seconds with a fraction for the milliseconds, and the handler
converts it to milliseconds as `(int64_t) timestamp * 1000`: the cast comes first,
and drops the fraction.

So two requests within one second are of one age to the store, and the order in
which they are handled decides.
-/

namespace GreengrassLite.Ipc

open Library Config Ggconfigd PrefixMap

universe u

/-! ## What a request sends -/

/-- The text a request of a component sends for a key: that of the leaf of its value there. -/
def sentText (printG : UInt64 → Buffer) (component : Buffer) (keys : List Buffer)
    (value : GglObject) (key : List Buffer) : Option Buffer :=
  lastText printG key (value.leaves.map fun leaf => (configPath component keys ++ leaf.1, leaf.2))

/-- A request with its timestamp in milliseconds, an `int64_t`.  The double stands for a
thousandth of it, and every key fits the fifteen levels of the configuration. -/
structure TimedRequest {σ : Type u} (context : UpdateContext σ) (args : GglMap)
    (component : Buffer) (keys : List Buffer) (value : GglObject) (millis : Int) : Prop
    extends UpdateRequest context args component (keys.map .buf) value where
  timestamp : ∃ bits, gglMapGet args (gglStr "timestamp") = some (.f64 bits) ∧
    truncateF64 bits = some (millis.tdiv 1000)
  range : isInt64 millis = true
  fits : Visit.Fits maxObjectDepth (configPath component keys).length value.visits

/-! ## What a request does -/

section Request

variable {σ : Type u} {context : UpdateContext σ} {args : GglMap} {component : Buffer}
  {keys : List Buffer} {value : GglObject} {millis : Int}

/-- A request that was answered with success was served by `rpc_write`. -/
theorem gglHandleUpdateConfiguration_eq_ok {store final : σ}
    (handled : gglHandleUpdateConfiguration context args store = (.ok (), final)) :
    ∃ component keys value bits, context.componentName = .ok component ∧
      gglMapGet args (gglStr "keyPath") = some (.list (keys.map .buf)) ∧
      gglMapGet args (gglStr "valueToMerge") = some value ∧
      gglMapGet args (gglStr "timestamp") = some (.f64 bits) ∧
      (configPath component keys).length ≤ maxObjectDepth ∧
      rpcWrite context.printG context.write context.now
        (writeArguments (configPath component keys) value
          (timestampMillis context.undefinedTimestamp bits)) store = (.ok (), final) := by
  rcases gglHandleUpdateConfiguration_cases context args store with ⟨error, refused⟩ |
    ⟨component, keys, value, bits, caller, keyPath, merge, timestamp, -, -, short, served⟩
  · rw [refused] at handled
    cases handled
  · refine ⟨component, keys, value, bits, caller, keyPath, merge, timestamp, short, ?_⟩
    rw [served] at handled
    split at handled
    · cases handled
    next next written =>
      obtain rfl : next = final := congrArg Prod.snd handled
      exact written

/-- The conversion of a timestamp drops what is less than a second. -/
theorem timestampMillis_of_millis {undefinedTimestamp : Int} {bits : UInt64}
    (range : isInt64 millis = true) (truncated : truncateF64 bits = some (millis.tdiv 1000)) :
    timestampMillis undefinedTimestamp bits = millis.tdiv 1000 * 1000 := by
  have bounds : isInt64 (millis.tdiv 1000) = true ∧ isInt64 (millis.tdiv 1000 * 1000) = true := by
    simp only [isInt64, decide_eq_true_eq] at range ⊢
    rcases Int.le_total 0 millis with positive | negative
    · rw [Int.tdiv_eq_ediv_of_nonneg positive]
      omega
    · have mirrored : millis.tdiv 1000 = -((-millis) / 1000) := by
        rw [← Int.tdiv_eq_ediv_of_nonneg (by omega), Int.neg_tdiv, Int.neg_neg]
      omega
  rw [timestampMillis, truncated]
  exact if_pos bounds

theorem TimedRequest.rpcWrite_eq (request : TimedRequest context args component keys value millis)
    {store final : σ}
    (handled : gglHandleUpdateConfiguration context args store = (.ok (), final)) :
    (configPath component keys).length ≤ maxObjectDepth ∧
      rpcWrite context.printG context.write context.now
        (writeArguments (configPath component keys) value (some (millis.tdiv 1000 * 1000)))
        store = (.ok (), final) := by
  rcases gglHandleUpdateConfiguration_eq_ok handled with
    ⟨otherComponent, otherKeys, otherValue, bits, caller, keyPath, merge, timestamp, short, served⟩
  rcases request.timestamp with ⟨sameBits, found, truncated⟩
  rw [request.caller] at caller
  rw [request.keyPath] at keyPath
  rw [request.merge] at merge
  rw [found] at timestamp
  cases caller
  cases merge
  cases timestamp
  have sameKeys : keys = otherKeys := by
    have buffers := congrArg bufferItems (GglObject.list.inj (Option.some.inj keyPath))
    rwa [bufferItems_map_buf, bufferItems_map_buf] at buffers
  subst sameKeys
  rw [timestampMillis_of_millis request.range truncated] at served
  exact ⟨short, served⟩

end Request

/-- A request over the store settles every key with the texts it sends. -/
theorem TimedRequest.settles {context : UpdateContext Ggconfigd} {args : GglMap}
    {component : Buffer} {keys : List Buffer} {value : GglObject} {millis : Int}
    (request : TimedRequest context args component keys value millis)
    (store : context.write = ggconfigWriteValueAtKey noFault) {daemon : Ggconfigd}
    {map : ConfigMap} (represents : daemon.Represents map) (inv : daemon.Inv)
    (accepted : (gglHandleUpdateConfiguration context args daemon).1 = .ok ()) :
    ∃ settled : ConfigMap,
      (gglHandleUpdateConfiguration context args daemon).2.Represents settled ∧
      (gglHandleUpdateConfiguration context args daemon).2.Inv ∧
      ∀ path, settled.lookup path =
        settle (sentText context.printG component keys value path) (millis.tdiv 1000 * 1000)
          (map.lookup path) := by
  have nonempty := configPath_ne_nil component keys
  obtain ⟨short, served⟩ := request.rpcWrite_eq (Prod.ext accepted rfl)
  obtain ⟨reached, lengths⟩ := reached_of_fits nonempty short request.fits
  rw [(requests_writeArguments context.now _ value _).rpcWrite_eq short, reached, store,
    Option.getD_some] at served
  obtain ⟨_, settled, -, all, settles⟩ := writeLeaves_settles represents inv (by
    intro leaf member
    rcases List.mem_map.mp member with ⟨inside, insideMember, rfl⟩
    exact ⟨List.append_ne_nil_of_left_ne_nil nonempty _, lengths inside insideMember⟩) served
  cases all rfl
  exact ⟨settled, settles⟩

/-! ## Two requests -/

/-- Two requests, one handled after the other: the answers and the store. -/
def handleBoth {σ : Type u} (context : UpdateContext σ) (first second : GglMap) (store : σ) :
    (Except GglError Unit × Except GglError Unit) × σ :=
  let (firstAnswer, middle) := gglHandleUpdateConfiguration context first store
  let (secondAnswer, final) := gglHandleUpdateConfiguration context second middle
  ((firstAnswer, secondAnswer), final)

section Two

variable {context : UpdateContext Ggconfigd} {daemon : Ggconfigd} {component : Buffer}
  {first second : GglMap} {firstKeys secondKeys key : List Buffer}
  {firstValue secondValue : GglObject} {firstMillis secondMillis : Int}
  {firstText secondText : Buffer}

/-- Two requests that both send a text for a key overwrite what it held one after the other. -/
theorem handleBoth_stored_iff (store : context.write = ggconfigWriteValueAtKey noFault)
    {map : ConfigMap} (represents : daemon.Represents map) (inv : daemon.Inv)
    (firstRequest : TimedRequest context first component firstKeys firstValue firstMillis)
    (secondRequest : TimedRequest context second component secondKeys secondValue secondMillis)
    (firstSent : sentText context.printG component firstKeys firstValue key = some firstText)
    (secondSent : sentText context.printG component secondKeys secondValue key = some secondText)
    (accepted : (handleBoth context first second daemon).1 = (.ok (), .ok ())) (text : Buffer)
    (time : Int) :
    (handleBoth context first second daemon).2.configDatabase.Stored key text time ↔
      overwrite secondText (secondMillis.tdiv 1000 * 1000)
        (overwrite firstText (firstMillis.tdiv 1000 * 1000) (map.lookup key)) =
          some (text, time) := by
  obtain ⟨firstAccepted, secondAccepted⟩ := Prod.mk.inj accepted
  obtain ⟨middle, middleRepresents, middleInv, middleLookups⟩ :=
    firstRequest.settles store represents inv firstAccepted
  obtain ⟨final, finalRepresents, -, finalLookups⟩ :=
    secondRequest.settles store middleRepresents middleInv secondAccepted
  have held : final.lookup key = overwrite secondText (secondMillis.tdiv 1000 * 1000)
      (overwrite firstText (firstMillis.tdiv 1000 * 1000) (map.lookup key)) := by
    rw [finalLookups, middleLookups, firstSent, secondSent, settle, settle]
  rw [← held]
  exact (finalRepresents key text time).symm

/-- Of two requests that both send a text for a key, the text of the later one is stored in
either order exactly when nothing newer was stored with another text, and the timestamps differ
in their whole seconds, or the texts are the same, or something newer was stored. -/
theorem updates_keep_later_iff (store : context.write = ggconfigWriteValueAtKey noFault)
    (inv : daemon.Inv)
    (earlier : TimedRequest context first component firstKeys firstValue firstMillis)
    (later : TimedRequest context second component secondKeys secondValue secondMillis)
    (ordered : firstMillis < secondMillis)
    (firstSent : sentText context.printG component firstKeys firstValue key = some firstText)
    (secondSent : sentText context.printG component secondKeys secondValue key = some secondText)
    (inOrder : (handleBoth context first second daemon).1 = (.ok (), .ok ()))
    (reversed : (handleBoth context second first daemon).1 = (.ok (), .ok ())) :
    ((∃ time, (handleBoth context first second daemon).2.configDatabase.Stored key secondText
          time) ∧
        ∃ time, (handleBoth context second first daemon).2.configDatabase.Stored key secondText
          time) ↔
      (∀ text time, daemon.configDatabase.Stored key text time →
          secondMillis.tdiv 1000 * 1000 < time → text = secondText) ∧
        (firstMillis.tdiv 1000 < secondMillis.tdiv 1000 ∨ firstText = secondText ∨
          ∃ text time, daemon.configDatabase.Stored key text time ∧
            secondMillis.tdiv 1000 * 1000 < time) := by
  have represents := represents_contents inv.tables.toWf
  have seconds : firstMillis.tdiv 1000 ≤ secondMillis.tdiv 1000 :=
    Int.tdiv_le_tdiv (by decide) (Int.le_of_lt ordered)
  have apart : firstMillis.tdiv 1000 < secondMillis.tdiv 1000 ↔
      firstMillis.tdiv 1000 * 1000 < secondMillis.tdiv 1000 * 1000 := by
    omega
  simp only [handleBoth_stored_iff store represents inv earlier later firstSent secondSent inOrder,
    handleBoth_stored_iff store represents inv later earlier secondSent firstSent reversed,
    ← represents key, apart]
  apply overwrite_both_iff
  omega

end Two

/-- A component `C` over the store. -/
def storeUpdates : UpdateContext Ggconfigd :=
  ⟨fun _ => [], ggconfigWriteValueAtKey noFault, 0, fun _ => .ok (), .ok (gglStr "C"), .ok (), 0⟩

/-- A request to set a value that is no map. -/
theorem timedRequest_of_not_map {σ : Type u} {context : UpdateContext σ} {component : Buffer}
    {keys : List Buffer} {value : GglObject} {bits : UInt64} {millis : Int}
    (caller : context.componentName = .ok component) (isLeaf : value.isMap = false)
    (short : (configPath component keys).length ≤ maxObjectDepth)
    (truncated : truncateF64 bits = some (millis.tdiv 1000)) (range : isInt64 millis = true) :
    TimedRequest context (updateArguments keys value bits) component keys value millis where
  caller := caller
  keyPath := rfl
  merge := rfl
  timestamp := ⟨bits, rfl, truncated⟩
  range := range
  fits := by
    rw [GglObject.visits_of_not_map isLeaf]
    intro before leaf after split entered within
    cases before with
    | nil =>
      rw [List.prefix_nil.mp within]
      exact short
    | cons visit before => simp at split

/-- A request of `C` to set `k` to a number. -/
theorem timedRequest_number {number millis : Int} {bits : UInt64}
    (truncated : truncateF64 bits = some (millis.tdiv 1000)) (range : isInt64 millis = true) :
    TimedRequest storeUpdates (updateArguments [gglStr "k"] (.i64 number) bits) (gglStr "C")
      [gglStr "k"] (.i64 number) millis :=
  timedRequest_of_not_map rfl rfl (by decide) truncated range

/-- Requests with the timestamps 1.25 and 1.75: the older one wins where it is handled last. -/
theorem update_within_second_lost :
    let earlier := updateArguments [gglStr "k"] (.i64 1) 0x3FF4000000000000
    let later := updateArguments [gglStr "k"] (.i64 2) 0x3FFC000000000000
    TimedRequest storeUpdates earlier (gglStr "C") [gglStr "k"] (.i64 1) 1250 ∧
      TimedRequest storeUpdates later (gglStr "C") [gglStr "k"] (.i64 2) 1750 ∧
      (handleBoth storeUpdates later earlier opened).1 = (.ok (), .ok ()) ∧
      (handleBoth storeUpdates later earlier opened).2.configDatabase.Stored
        (configPath (gglStr "C") [gglStr "k"]) (gglStr "1") 1000 := by
  have earlier := @timedRequest_number 1 1250 0x3FF4000000000000 (by decide) (by decide)
  have later := @timedRequest_number 2 1750 0x3FFC000000000000 (by decide) (by decide)
  have accepted : (handleBoth storeUpdates
      (updateArguments [gglStr "k"] (.i64 2) 0x3FFC000000000000)
      (updateArguments [gglStr "k"] (.i64 1) 0x3FF4000000000000) opened).1 =
        (.ok (), .ok ()) := by
    decide +kernel
  refine ⟨earlier, later, accepted, ?_⟩
  exact (handleBoth_stored_iff rfl represents_opened inv_opened later earlier
    (show sentText _ _ _ _ _ = some (gglStr "2") by decide)
    (show sentText _ _ _ _ _ = some (gglStr "1") by decide) accepted _ _).mpr rfl

/-- Requests with the timestamps 1.75 and 2.25. -/
theorem updates_keep_later_of_seconds :
    let earlier := updateArguments [gglStr "k"] (.i64 1) 0x3FFC000000000000
    let later := updateArguments [gglStr "k"] (.i64 2) 0x4002000000000000
    (∃ time, (handleBoth storeUpdates earlier later opened).2.configDatabase.Stored
        (configPath (gglStr "C") [gglStr "k"]) (gglStr "2") time) ∧
      ∃ time, (handleBoth storeUpdates later earlier opened).2.configDatabase.Stored
        (configPath (gglStr "C") [gglStr "k"]) (gglStr "2") time := by
  have earlier := @timedRequest_number 1 1750 0x3FFC000000000000 (by decide) (by decide)
  have later := @timedRequest_number 2 2250 0x4002000000000000 (by decide) (by decide)
  apply (updates_keep_later_iff rfl inv_opened earlier later (by decide)
    (show sentText _ _ _ _ _ = some (gglStr "1") by decide)
    (show sentText _ _ _ _ _ = some (gglStr "2") by decide) (by decide +kernel)
    (by decide +kernel)).mpr
  constructor
  · rintro text time ⟨keyid, -, member⟩
    cases member
  · exact .inl (by decide)

end GreengrassLite.Ipc

import GreengrassLite.Config.Client
import GreengrassLite.Config.Confinement
import Mathlib.Algebra.Ring.Int.Defs
import Mathlib.Data.Fintype.EquivFin

/-!
# The UpdateConfiguration request

A component asks `ggipcd` to merge a value into its own configuration.  The
handler in `services/config/update_configuration.c` refuses key paths that are
empty or start with `accessControl`, puts the component's own prefix in front
of the key path, and sends the write to `ggconfigd` over the core bus, where
`rpc_write` serves it.

The request should change only keys at or below
`services/C/configuration/keyPath`.  The prefix and the guard see to that for
the path of the request; the walk over the value in `ggconfigd` does not keep
it.
-/

namespace GreengrassLite.Ipc

open Config List

variable {component : Buffer}

universe u v

/-- What the handler reads besides the request: the write of the store behind
`ggconfigd` with its printed doubles and its clock, the transport of the core
bus, the name of the calling component, the answer to the response, and the
value of a timestamp whose conversion the language leaves undefined. -/
structure UpdateContext (σ : Type u) where
  printG : UInt64 → Buffer
  write : WriteValue σ
  now : Int
  deliver : GglMap → Except GglError Unit
  componentName : Except GglError Buffer
  response : Except GglError Unit
  undefinedTimestamp : Int

/-- Whether an integer is an `int64_t`. -/
def isInt64 (value : Int) : Bool :=
  -(2 ^ 63) ≤ value ∧ value < 2 ^ 63

/-- The double with these bits, truncated towards zero.  Infinities and values
that are not numbers have none. -/
def truncateF64 (bits : UInt64) : Option Int :=
  let exponent := bits.toNat / 2 ^ 52 % 2 ^ 11
  let significand := bits.toNat % 2 ^ 52 + 2 ^ 52
  if exponent = 2047 then
    none
  else
    let magnitude : Nat :=
      if exponent < 1023 then 0
      else if exponent < 1075 then significand / 2 ^ (1075 - exponent)
      else significand * 2 ^ (exponent - 1075)
    some (if bits.toNat / 2 ^ 63 = 1 then -(magnitude : Int) else magnitude)

/-- `(int64_t) timestamp * 1000`, where out of range the result is undefined. -/
def timestampMillis (undefinedTimestamp : Int) (bits : UInt64) : Int :=
  match truncateF64 bits with
  | some seconds =>
    if isInt64 seconds ∧ isInt64 (seconds * 1000) then seconds * 1000 else undefinedTimestamp
  | none => undefinedTimestamp

/-- `ggl_make_config_path_object`. -/
def gglMakeConfigPathObject (componentName : Buffer) (keyPath : List GglObject) :
    Except GglError (List Buffer) := do
  let path ← gglBufVecPush (Vec.empty Buffer maxObjectDepth) (gglStr "services")
  let path ← gglBufVecPush path componentName
  let path ← gglBufVecPush path (gglStr "configuration")
  let path ← gglBufVecAppendList path keyPath
  return path.items

section Handler

variable {σ : Type u} (context : UpdateContext σ)

/-- The schema of the arguments of `UpdateConfiguration`. -/
def updateConfigurationSchema : List GglMapSchemaEntry :=
  [⟨gglStr "keyPath", true, .list⟩, ⟨gglStr "valueToMerge", true, .null⟩,
    ⟨gglStr "timestamp", true, .f64⟩]

/-- `ggl_handle_update_configuration`. -/
def gglHandleUpdateConfiguration (args : GglMap) (store : σ) : Except GglError Unit × σ :=
  match gglMapValidate args updateConfigurationSchema with
  | .ok [some (.list keyPath), some valueToMerge, some (.f64 bits)] =>
    match gglListTypeCheck keyPath .buf with
    | .error _ => (.error .invalid, store)
    | .ok () =>
      if keyPath.length < 1 ∨
          (bufferItems keyPath).head? = some (gglStr "accessControl") then
        (.error .invalid, store)
      else
        match context.componentName with
        | .error error => (.error error, store)
        | .ok componentName =>
          match gglMakeConfigPathObject componentName keyPath with
          | .error error => (.error error, store)
          | .ok fullKeyPath =>
            match gglGgConfigWrite context.deliver
                (rpcWrite context.printG context.write context.now) fullKeyPath
                valueToMerge (timestampMillis context.undefinedTimestamp bits) store with
            | (.error error, store) => (.error error, store)
            | (.ok (), store) => (context.response, store)
  | _ => (.error .invalid, store)

end Handler

/-! ## What a request does -/

/-- The path of a key in the configuration of a component. -/
def configPath (component : Buffer) (keys : List Buffer) : List Buffer :=
  [gglStr "services", component, gglStr "configuration"] ++ keys

@[simp]
theorem length_configPath (component : Buffer) (keys : List Buffer) :
    (configPath component keys).length = 3 + keys.length :=
  length_append

theorem configPath_ne_nil (component : Buffer) (keys : List Buffer) :
    configPath component keys ≠ [] :=
  cons_ne_nil _ _

@[simp]
theorem gglMakeConfigPathObject_eq_ok_iff {keyPath : List GglObject} {path : List Buffer} :
    gglMakeConfigPathObject component keyPath = .ok path ↔
      ∃ keys : List Buffer, keyPath = keys.map .buf ∧ path = configPath component keys ∧
        path.length ≤ maxObjectDepth := by
  have room : (configPath component []).length ≤ maxObjectDepth := Nat.le_of_ble_eq_true rfl
  have pushed : gglMakeConfigPathObject component keyPath =
      gglBufVecAppendList ⟨configPath component [], room⟩ keyPath >>= fun path => .ok path.items :=
    rfl
  have appended (result) :=
    gglBufVecAppendList_eq_ok_iff ⟨configPath component [], room⟩ result keyPath
  rw [pushed]
  constructor
  · intro made
    obtain ⟨vector, ok, ⟨⟩⟩ := except_bind_eq_ok_iff.mp made
    obtain ⟨keys, buffers, items⟩ := (appended vector).mp ok
    exact ⟨keys, buffers, items, vector.bounded⟩
  · rintro ⟨keys, buffers, rfl, short⟩
    rw [(appended ⟨configPath component keys, short⟩).mpr ⟨keys, buffers, rfl⟩]
    rfl

section Cases

variable {σ : Type u}

/-- A request either leaves the store as it is, or passes the guard and is
served by `rpc_write` at the path in the configuration of the component. -/
inductive Handled (context : UpdateContext σ) (args : GglMap) (store : σ) : σ → Prop
  | unchanged : Handled context args store store
  | merged {component : Buffer} {keys : List Buffer} {value : GglObject} (timestamp : Int)
      (caller : context.componentName = .ok component)
      (keyPath : gglMapGet args (gglStr "keyPath") = some (.list (keys.map .buf)))
      (merge : gglMapGet args (gglStr "valueToMerge") = some value)
      (nonempty : keys ≠ []) (guarded : keys.head? ≠ some (gglStr "accessControl"))
      (short : (configPath component keys).length ≤ maxObjectDepth) :
      Handled context args store
        (rpcWrite context.printG context.write context.now
          (writeArguments (configPath component keys) value timestamp) store).2

/-- The response leaves the store as the write left it. -/
theorem store_of_response (response : Except GglError Unit) (outcome : Except GglError Unit × σ) :
    (match outcome with
      | (.error error, store) => (Except.error error, store)
      | (.ok (), store) => (response, store)).2 = outcome.2 := by
  rcases outcome with ⟨error | ok, next⟩ <;> rfl

/-- A request is refused, or what it says is served by `rpc_write`. -/
theorem gglHandleUpdateConfiguration_cases (context : UpdateContext σ) (args : GglMap)
    (store : σ) :
    (∃ error, gglHandleUpdateConfiguration context args store = (.error error, store)) ∨
      ∃ component keys value bits, context.componentName = .ok component ∧
        gglMapGet args (gglStr "keyPath") = some (.list (keys.map .buf)) ∧
        gglMapGet args (gglStr "valueToMerge") = some value ∧
        gglMapGet args (gglStr "timestamp") = some (.f64 bits) ∧
        keys ≠ [] ∧ keys.head? ≠ some (gglStr "accessControl") ∧
        (configPath component keys).length ≤ maxObjectDepth ∧
        gglHandleUpdateConfiguration context args store =
          match rpcWrite context.printG context.write context.now
            (writeArguments (configPath component keys) value
              (timestampMillis context.undefinedTimestamp bits)) store with
          | (.error error, store) => (.error error, store)
          | (.ok (), store) => (context.response, store) := by
  unfold gglHandleUpdateConfiguration
  split
  · rename_i keyPath value bits validated
    simp only [updateConfigurationSchema, gglMapValidate_cons_eq_ok_iff,
      gglMapValidateEntry_eq_some_iff] at validated
    split
    · exact .inl ⟨_, rfl⟩
    split
    · exact .inl ⟨_, rfl⟩
    rename_i guarded
    push Not at guarded
    split
    · exact .inl ⟨_, rfl⟩
    rename_i component caller
    split
    · exact .inl ⟨_, rfl⟩
    rename_i path made
    obtain ⟨keys, rfl, rfl, short⟩ := gglMakeConfigPathObject_eq_ok_iff.mp made
    rw [bufferItems_map_buf, length_map] at guarded
    rcases gglGgConfigWrite_cases context.deliver
      (rpcWrite context.printG context.write context.now)
      (configPath component keys) value
      (timestampMillis context.undefinedTimestamp bits) store with ⟨error, refused⟩ | served
    · rw [refused]
      exact .inl ⟨_, rfl⟩
    · rw [served]
      exact .inr ⟨_, _, _, _, caller, validated.1.1, validated.2.1.1,
        validated.2.2.1.1, length_pos_iff.mp guarded.1, guarded.2, short, rfl⟩
  · exact .inl ⟨_, rfl⟩

theorem gglHandleUpdateConfiguration_handled (context : UpdateContext σ) (args : GglMap)
    (store : σ) :
    Handled context args store (gglHandleUpdateConfiguration context args store).2 := by
  rcases gglHandleUpdateConfiguration_cases context args store with ⟨error, refused⟩ |
    ⟨component, keys, value, bits, caller, keyPath, merge, -, nonempty, guarded, short, served⟩
  · rw [refused]
    exact .unchanged
  · rw [served, store_of_response]
    exact .merged _ caller keyPath merge nonempty guarded short

/-- The arguments of a request with this key path, value and timestamp. -/
def updateArguments (keys : List Buffer) (value : GglObject) (bits : UInt64) : GglMap :=
  [(gglStr "keyPath", .list (keys.map .buf)), (gglStr "valueToMerge", value),
    (gglStr "timestamp", .f64 bits)]

/-- A request that passes every check is served by `rpc_write`. -/
theorem gglHandleUpdateConfiguration_merges (context : UpdateContext σ) {keys : List Buffer}
    {value : GglObject} {bits : UInt64} (caller : context.componentName = .ok component)
    (nonempty : keys ≠ []) (guarded : keys.head? ≠ some (gglStr "accessControl"))
    (short : (configPath component keys).length ≤ maxObjectDepth)
    (shallow : 2 + value.depth ≤ maxObjectDepth)
    (nonnegative : 0 ≤ timestampMillis context.undefinedTimestamp bits)
    (delivered : ∀ params, context.deliver params = .ok ()) (store : σ) :
    (gglHandleUpdateConfiguration context (updateArguments keys value bits) store).2 =
      (rpcWrite context.printG context.write context.now
        (writeArguments (configPath component keys) value
          (timestampMillis context.undefinedTimestamp bits)) store).2 := by
  have validated : gglMapValidate (updateArguments keys value bits) updateConfigurationSchema =
      .ok [some (.list (keys.map .buf)), some value, some (.f64 bits)] := rfl
  have made := gglMakeConfigPathObject_eq_ok_iff.mpr ⟨keys, rfl, rfl, short⟩
  have positive := length_pos_iff.mpr nonempty
  have accepted : ¬((keys.map GglObject.buf).length < 1 ∨
      (bufferItems (keys.map .buf)).head? = some (gglStr "accessControl")) := by
    rw [bufferItems_map_buf, length_map]
    push Not
    exact ⟨positive, guarded⟩
  have sent : gglGgConfigWrite context.deliver
      (rpcWrite context.printG context.write context.now) (configPath component keys) value
      (timestampMillis context.undefinedTimestamp bits) store =
        rpcWrite context.printG context.write context.now
          (writeArguments (configPath component keys) value
            (timestampMillis context.undefinedTimestamp bits)) store := by
    apply gglGgConfigWrite_delivered _ short shallow delivered
    rintro time ⟨⟩
    exact nonnegative
  simp only [gglHandleUpdateConfiguration, validated, gglListTypeCheck_map_buf, caller, made, sent,
    if_neg accepted, store_of_response]

end Cases

/-! ## Confinement -/

section Confinement

/-- Every key whose content changed is at or below the key path in the
configuration of the component; in particular it is not under its
`accessControl` and belongs to no other component. -/
structure Confined {σ : Type u} {α : Type v} (content : σ → List Buffer → α) (component : Buffer)
    (keys : List Buffer) (before after : σ) : Prop where
  below : ∀ key, content after key ≠ content before key → configPath component keys <+: key
  accessControl : ∀ key, content after key ≠ content before key →
    ¬configPath component [gglStr "accessControl"] <+: key
  component : ∀ key other, content after key ≠ content before key → other ≠ component →
    ¬[gglStr "services", other] <+: key

theorem Confined.unchanged {σ : Type u} {α : Type v} (content : σ → List Buffer → α)
    (component : Buffer) (keys : List Buffer) (store : σ) :
    Confined content component keys store store where
  below _ changed := absurd rfl changed
  accessControl _ changed := absurd rfl changed
  component _ _ changed := absurd rfl changed

/-- Below a guarded key path there is neither the access control of the
component nor anything of another component. -/
theorem confined_of_below {σ : Type u} {α : Type v} {content : σ → List Buffer → α}
    {keys : List Buffer} {before after : σ} (nonempty : keys ≠ [])
    (guarded : keys.head? ≠ some (gglStr "accessControl"))
    (below : ∀ key, content after key ≠ content before key → configPath component keys <+: key) :
    Confined content component keys before after where
  below := below
  accessControl key changed controlled := by
    rcases below key changed with ⟨rest, rfl⟩
    cases keys with
    | nil => exact nonempty rfl
    | cons first keys =>
      apply guarded
      simpa [configPath, eq_comm] using controlled
  component key other changed different owned := by
    rcases below key changed with ⟨rest, rfl⟩
    apply different
    simpa [configPath] using owned

/-- A request of this component to merge a value at a key path. -/
structure UpdateRequest {σ : Type u} (context : UpdateContext σ) (args : GglMap)
    (component : Buffer) (keyPath : List GglObject) (value : GglObject) : Prop where
  caller : context.componentName = .ok component
  keyPath : gglMapGet args (gglStr "keyPath") = some (.list keyPath)
  merge : gglMapGet args (gglStr "valueToMerge") = some value

/-- A request whose value leaves room above the path is confined. -/
theorem UpdateRequest.confined {σ : Type u} {α : Type v} {content : σ → List Buffer → α}
    {context : UpdateContext σ} {args : GglMap} {keyPath : List GglObject} {value : GglObject}
    (request : UpdateRequest context args component keyPath value)
    (only : WritesOnly content context.write)
    (roomy : 1 ≤ keyPath.length → 3 + keyPath.length ≤ maxObjectDepth →
      Roomy context.printG (3 + keyPath.length) value)
    (store : σ) :
    Confined content component (bufferItems keyPath) store
      (gglHandleUpdateConfiguration context args store).2 := by
  have handled := gglHandleUpdateConfiguration_handled context args store
  generalize (gglHandleUpdateConfiguration context args store).2 = after at handled ⊢
  cases handled with
  | unchanged => exact .unchanged content component _ store
  | merged timestamp caller foundPath merge nonempty guarded short =>
    rename_i otherComponent keys otherValue
    have sameComponent : component = otherComponent :=
      Except.ok.inj (request.caller.symm.trans caller)
    have samePath : keyPath = keys.map .buf :=
      GglObject.list.inj (Option.some.inj (request.keyPath.symm.trans foundPath))
    have sameValue : value = otherValue := Option.some.inj (request.merge.symm.trans merge)
    subst sameComponent samePath sameValue
    rw [bufferItems_map_buf]
    rw [length_map] at roomy
    have fits := roomy (length_pos_iff.mpr nonempty)
    rw [← length_configPath component keys] at fits
    apply confined_of_below nonempty guarded
    intro key changed
    exact (requests_writeArguments context.now _ _ timestamp).keys_prefix_of_changed only
      (configPath_ne_nil component keys) short (fits short) changed

/-- Some key is neither entered by the walk over a value nor `accessControl`. -/
theorem exists_fresh_key (value : GglObject) :
    ∃ key, .enter key ∉ value.visits ∧ key ≠ gglStr "accessControl" := by
  let keys := value.visits.filterMap fun
    | .enter key => some key
    | _ => none
  rcases Infinite.exists_notMem_finset (gglStr "accessControl" :: keys).toFinset with
    ⟨key, unused⟩
  rw [mem_toFinset, mem_cons, not_or] at unused
  refine ⟨key, ?_, unused.1⟩
  intro entered
  exact unused.2 (mem_filterMap.mpr ⟨.enter key, entered, rfl⟩)

/-- For a length of the key path and a value that fits the nesting limit of the
core bus, all requests of all components are confined, over every store whose
writes only change the path they are handed, if and only if the walk over the
value leaves room above a path of that length.  Key paths that are empty or
longer than twelve keys are refused. -/
theorem gglHandleUpdateConfiguration_confined_iff (printG : UInt64 → Buffer) (length : Nat)
    (value : GglObject) (shallow : 2 + value.depth ≤ maxObjectDepth) :
    (∀ (σ α : Type) (content : σ → List Buffer → α) (context : UpdateContext σ) (args : GglMap)
        (component : Buffer) (keyPath : List GglObject) (store : σ),
        context.printG = printG → WritesOnly content context.write →
        UpdateRequest context args component keyPath value → keyPath.length = length →
        Confined content component (bufferItems keyPath) store
          (gglHandleUpdateConfiguration context args store).2) ↔
      (1 ≤ length → 3 + length ≤ maxObjectDepth → Roomy printG (3 + length) value) := by
  constructor
  · intro confined nonempty short
    by_contra tight
    rcases exists_fresh_key value with ⟨last, fresh, notGuarded⟩
    rcases Nat.exists_eq_add_of_le' nonempty with ⟨size, rfl⟩
    let keys := replicate (size + 1) last
    let context : UpdateContext (List Buffer → Option Buffer) :=
      ⟨printG, updateWrite, 0, fun _ => .ok (), .ok [], .ok (), 0⟩
    have split : configPath [] keys = configPath [] (replicate size last) ++ [last] := by
      rw [configPath, configPath, append_assoc, ← replicate_succ']
    have sizes : (configPath [] keys).length = 3 + (size + 1) := by
      rw [length_configPath, length_replicate]
    have served : (gglHandleUpdateConfiguration context (updateArguments keys value 0)
          fun _ => none).2 =
        (rpcWrite printG updateWrite 0 (writeArguments (configPath [] keys) value
          (timestampMillis 0 0)) fun _ => none).2 :=
      gglHandleUpdateConfiguration_merges context rfl (cons_ne_nil _ _)
        (by simpa [head] using notGuarded) (sizes ▸ short) shallow
        (show 0 ≤ timestampMillis 0 0 by decide) (fun _ => rfl) _
    have request := requests_writeArguments 0 (configPath [] keys) value (timestampMillis 0 0)
    rw [split] at request served
    rcases request.exists_changed_elsewhere
      (by rw [length_configPath, length_replicate]; omega) fresh
      (by rwa [← split, sizes]) with ⟨key, stored, elsewhere⟩
    have all := confined _ _ (fun store => store) context (updateArguments keys value 0) []
      (keys.map .buf) (fun _ => none) rfl (fun _ _ _ _ _ other => if_neg other) ⟨rfl, rfl, rfl⟩
      (by rw [length_map, length_replicate])
    rw [bufferItems_map_buf] at all
    apply elsewhere
    rw [← split]
    apply all.below
    rwa [served]
  · rintro roomy σ α content context args component keyPath store rfl only request rfl
    exact request.confined only roomy store

/-- A chain of nested maps with this many keys above a null. -/
def nestedMaps : Nat → GglObject
  | 0 => .null
  | levels + 1 => .map [(gglStr "x", nestedMaps levels)]

/-- Twelve nested keys, followed by a key for the access control. -/
def escapingValue : GglObject :=
  .map [(gglStr "x", nestedMaps 11), (gglStr "accessControl", .boolean true)]

/-- A component `C` over a working core bus and a store of paths. -/
def updatingContext : UpdateContext (List Buffer → Option Buffer) :=
  ⟨fun _ => [], updateWrite, 0, fun _ => .ok (), .ok (gglStr "C"), .ok (), 0⟩

/-- A component that merges at twelve keys of its configuration sets its own
access control: twelve nested keys that do not fit cost the path its twelve
keys, and the next key of the value comes right after `configuration`. -/
theorem gglHandleUpdateConfiguration_not_confined :
    let keys := replicate 12 (gglStr "k")
    let outcome := gglHandleUpdateConfiguration updatingContext
      (updateArguments keys escapingValue 0) fun _ => none
    2 + escapingValue.depth ≤ maxObjectDepth ∧ outcome.1 = .ok () ∧
      outcome.2 (configPath (gglStr "C") [gglStr "accessControl"]) = some (gglStr "true") ∧
      ¬Confined (fun store => store) (gglStr "C") keys (fun _ => none) outcome.2 := by
  have stored : (gglHandleUpdateConfiguration updatingContext
      (updateArguments (replicate 12 (gglStr "k")) escapingValue 0) fun _ => none).2
        (configPath (gglStr "C") [gglStr "accessControl"]) = some (gglStr "true") := by
    decide +kernel
  refine ⟨by decide, by decide +kernel, stored, fun confined => ?_⟩
  apply confined.accessControl (configPath (gglStr "C") [gglStr "accessControl"]) _
    prefix_rfl
  rw [stored]
  exact Option.some_ne_none _

/-- Requests of one key that merge a map of two levels. -/
theorem gglHandleUpdateConfiguration_confined_iff_two_levels :
    2 + (nestedMaps 2).depth ≤ maxObjectDepth ∧
      ((∀ (σ α : Type) (content : σ → List Buffer → α) (context : UpdateContext σ)
          (args : GglMap) (component : Buffer) (keyPath : List GglObject) (store : σ),
          context.printG = (fun _ => []) → WritesOnly content context.write →
          UpdateRequest context args component keyPath (nestedMaps 2) → keyPath.length = 1 →
          Confined content component (bufferItems keyPath) store
            (gglHandleUpdateConfiguration context args store).2) ↔
        (1 ≤ 1 → 3 + 1 ≤ maxObjectDepth → Roomy (fun _ => []) (3 + 1) (nestedMaps 2))) :=
  ⟨by decide, gglHandleUpdateConfiguration_confined_iff (fun _ => []) 1 (nestedMaps 2) (by decide)⟩

end Confinement

end GreengrassLite.Ipc

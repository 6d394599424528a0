import GreengrassLite.Core.Alloc
import GreengrassLite.Core.Map
import GreengrassLite.Deployment.ComponentStore
import GreengrassLite.Deployment.Semver

/-!
# Dependency resolution

`resolve_dependencies` of `ggdeploymentd/src/deployment_handler.c` chooses a
version for every component of a deployment.  It collects the root components
of the deployment and of the other thing groups of the device into a vector of
64 entries, and then goes over that vector while the dependencies of each
resolved recipe are appended to it.

The configuration, the file system and the cloud are a `ResolveContext`.  What
changes in them during the resolution is a world `σ` of which nothing is known.
-/

namespace GreengrassLite.Deployment

/-- The capacity of the vectors of components. -/
def maxComponents : Nat := 64

/-- `PATH_MAX`. -/
def pathMax : Nat := 4096

/-- What the cloud says about a component. -/
structure CloudComponent where
  arn : Buffer
  name : Buffer
  version : Buffer
  recipe : Buffer

/-- What the resolution asks the rest of the system. -/
structure ResolveContext (σ : Type) where
  /-- The write of the root components of the own thing group. -/
  writeRoots : List (Buffer × Buffer) → Except GglError Unit
  /-- `get_device_thing_groups`. -/
  deviceThingGroups : Except GglError Buffer
  /-- `ggl_json_decode_destructive` into memory for 100 objects. -/
  jsonDecode : Buffer → Except GglError GglObject
  /-- The read of the root components of a thing group into an allocator. -/
  readGroup : Buffer → BumpAlloc → Except GglError GglObject × BumpAlloc
  /-- The read of `services/<component>/version`. -/
  activeVersion : σ → Buffer → Except GglError Buffer
  /-- The names in the recipe directory, as `readdir` returns them. -/
  recipeDirectory : σ → Except GglError (List Buffer)
  /-- `resolve_component_with_cloud`. -/
  resolveWithCloud : σ → Buffer → Buffer → Except GglError Buffer
  /-- The recipe is written to its file and the ARN to the configuration. -/
  saveRecipe : σ → CloudComponent → Except GglError Unit × σ
  /-- `ggl_recipe_get_from_file`. -/
  recipe : Buffer → Buffer → Except GglError GglObject
  /-- The version buffer before anything is copied into it. -/
  uninitialized : Buffer
  /-- The byte behind a requirement. -/
  pastEnd : UInt8

section Versions

variable {σ : Type} (context : ResolveContext σ)

variable (component requirement : Buffer) (world : σ)

/-- `find_active_version`. -/
def findActiveVersion : Except GglError Buffer :=
  match context.activeVersion world component with
  | .error _ => .error .noentry
  | .ok version =>
    if version = gglStr "inactive" ∨ isInRange context.pastEnd version requirement = false then
      .error .noentry
    else
      .ok version

/-- `find_available_component`: the first recipe of the component in range. -/
def findAvailableComponent : Except GglError Buffer :=
  match context.recipeDirectory world with
  | .error error => .error error
  | .ok entries =>
    match (entries.filterMap iterateOverComponents).find? fun entry =>
        entry.1 = component && isInRange context.pastEnd entry.2 requirement with
    | none => .error .noentry
    | some entry => .ok entry.2

/-- `resolve_component_version` with `find_best_candidate_locally`. -/
def resolveComponentVersion : Option Buffer :=
  match findActiveVersion context component requirement world with
  | .ok version => some version
  | .error _ => (findAvailableComponent context component requirement world).toOption

/-- The fields of a candidate that the cloud returned. -/
def cloudComponent (fields : GglMap) : Except GglError CloudComponent :=
  match gglMapValidate fields
    [⟨gglStr "arn", true, .buf⟩, ⟨gglStr "componentName", true, .buf⟩,
      ⟨gglStr "componentVersion", true, .buf⟩, ⟨gglStr "vendorGuidance", false, .buf⟩,
      ⟨gglStr "recipe", true, .buf⟩] with
  | .error error => .error error
  | .ok [some (.buf arn), some (.buf name), some (.buf version), _, some (.buf recipe)] =>
    .ok ⟨arn, name, version, recipe⟩
  | .ok _ => .error .parse

/-- The loop of `parse_dataplane_response_and_save_recipe`.  A candidate that is
no map ends it with success and the version buffer as it was.  The failing
assertion on the length of the version ends the daemon. -/
def saveCandidates : List GglObject → Except GglError Buffer × σ
  | [] => (.ok context.uninitialized, world)
  | .map fields :: others =>
    match cloudComponent fields with
    | .error error => (.error error, world)
    | .ok component =>
      if nameMax < component.version.length then
        (.error .fatal, world)
      else
        match context.saveRecipe world component with
        | (.error error, world) => (.error error, world)
        | (.ok (), world) =>
          (if others.isEmpty then .ok component.version else .error .invalid, world)
  | _ :: _ => (.ok context.uninitialized, world)

/-- `parse_dataplane_response_and_save_recipe`.  A response of another shape is
answered with the success of its decoding. -/
def parseDataplaneResponseAndSaveRecipe (response : Buffer) (world : σ) :
    Except GglError Buffer × σ :=
  match context.jsonDecode response with
  | .error error => (.error error, world)
  | .ok (.map fields) =>
    match gglMapGet fields (gglStr "resolvedComponentVersions") with
    | some (.list candidates) => saveCandidates context world candidates
    | _ => (.ok context.uninitialized, world)
  | .ok _ => (.ok context.uninitialized, world)

/-- The version of a component: a local one in range, or else what the cloud
answers. -/
def resolveVersion : Except GglError Buffer × σ :=
  match resolveComponentVersion context component requirement world with
  | some version => (.ok version, world)
  | none =>
    match context.resolveWithCloud world component requirement with
    | .error error => (.error error, world)
    | .ok response =>
      if response = gglStr "\x7b\x7d" then
        (.error .failure, world)
      else
        parseDataplaneResponseAndSaveRecipe context response world

/-- The `ComponentDependencies` of the recipe of a resolved component. -/
def componentDependencies (component version : Buffer) : Except GglError GglMap :=
  match context.recipe component version with
  | .error error => .error error
  | .ok (.map fields) =>
    match gglMapValidate fields [⟨gglStr "ComponentDependencies", false, .map⟩] with
    | .error error => .error error
    | .ok [some (.map dependencies)] => .ok dependencies
    | .ok _ => .ok []
  | .ok _ => .error .invalid

end Versions

/-! ## The work list -/

/-- The variables of the loop over the components to resolve.  The values of
both vectors are buffers, so looking a component up never fails on a type. -/
structure ResolveState (σ : Type) where
  toResolve : Vec (Buffer × Buffer) maxComponents
  resolved : Vec (Buffer × Buffer) maxComponents
  alloc : BumpAlloc
  requirements : BumpAlloc
  world : σ

/-- The first entry with this name gets another requirement. -/
def setRequirement (component requirement : Buffer) :
    List (Buffer × Buffer) → List (Buffer × Buffer)
  | [] => []
  | entry :: rest =>
    if entry.1 = component then (component, requirement) :: rest
    else entry :: setRequirement component requirement rest

@[simp]
theorem length_setRequirement (component requirement : Buffer) (entries : List (Buffer × Buffer)) :
    (setRequirement component requirement entries).length = entries.length := by
  induction entries with
  | nil => rfl
  | cons entry rest ih =>
    rw [setRequirement]
    split
    · rfl
    · rw [List.length_cons, ih, List.length_cons]

section Loop

variable {σ : Type} (context : ResolveContext σ)

variable (component requirement : Buffer) (state : ResolveState σ)

/-- A requirement is appended to the one a waiting component already has. -/
def appendRequirement (component existing requirement : Buffer) (state : ResolveState σ) :
    Except GglError (ResolveState σ) := do
  let newReq ← gglByteVecAppend (Vec.empty UInt8 pathMax) existing
  let newReq ← gglByteVecPush newReq space
  let newReq ← gglByteVecAppend newReq requirement
  match gglAllocn 64 state.requirements 1 1 newReq.items.length with
  | none => .error .nomem
  | some requirements =>
    .ok { state with
      requirements
      toResolve := ⟨setRequirement component newReq.items state.toResolve.items, by
        rw [length_setRequirement]
        exact state.toResolve.bounded⟩ }

/-- A component that was not required before is appended. -/
def addComponent : Except GglError (ResolveState σ) := do
  let alloc ← gglBufClone 64 component state.alloc
  let requirements ← gglBufClone 64 requirement state.requirements
  let toResolve ← gglKvVecPush state.toResolve (component, requirement)
  .ok { state with alloc, requirements, toResolve }

/-- One dependency of a recipe: a resolved component must be in the range, any
other must be resolved within it. -/
def requireDependency : Except GglError (ResolveState σ) :=
  match state.resolved.items.lookup component with
  | some version =>
    if isInRange context.pastEnd version requirement then .ok state else .error .failure
  | none =>
    match state.toResolve.items.lookup component with
    | some existing => appendRequirement component existing requirement state
    | none => addComponent component requirement state

/-- The body of the loop over `ComponentDependencies`. -/
def resolveDependency (dependency : Buffer × GglObject) : Except GglError (ResolveState σ) :=
  match dependency.2 with
  | .map fields => do
    let requirement ← gglMapValidateBuf fields (gglStr "VersionRequirement")
    requireDependency context dependency.1 requirement state
  | _ => .error .invalid

/-- A component and its version are appended to the resolved ones. -/
def addResolved (component version : Buffer) (state : ResolveState σ) :
    Except GglError (ResolveState σ) := do
  let alloc ← gglBufClone 64 version state.alloc
  let resolved ← gglKvVecPush state.resolved (component, version)
  .ok { state with alloc, resolved }

/-- The body of the loop over the components to resolve. -/
def resolveEntry (entry : Buffer × Buffer) (state : ResolveState σ) :
    Except GglError (ResolveState σ) :=
  match resolveVersion context entry.1 entry.2 state.world with
  | (.error error, _) => .error error
  | (.ok version, world) => do
    let state ← addResolved entry.1 version { state with world }
    let dependencies ← componentDependencies context entry.1 version
    dependencies.foldlM (resolveDependency context) state

/-- The loop over the components to resolve, from an index on.  The vector may
grow in every round, and the loop ends at the length it then has.  Nothing is
answered if that does not happen within `fuel` rounds. -/
def resolveLoop : (fuel index : Nat) → ResolveState σ →
    Option (Except GglError (ResolveState σ))
  | fuel, index, state =>
    match state.toResolve.items[index]?, fuel with
    | none, _ => some (.ok state)
    | some _, 0 => none
    | some entry, fuel + 1 =>
      match resolveEntry context entry state with
      | .error error => some (.error error)
      | .ok next => resolveLoop fuel (index + 1) next

variable {context} {fuel index : Nat} {state : ResolveState σ} {entry : Buffer × Buffer}

theorem resolveLoop_of_end (ended : state.toResolve.items[index]? = none) :
    resolveLoop context fuel index state = some (.ok state) := by
  cases fuel <;> simp [resolveLoop, ended]

theorem resolveLoop_succ (found : state.toResolve.items[index]? = some entry) :
    resolveLoop context (fuel + 1) index state =
      match resolveEntry context entry state with
      | .error error => some (.error error)
      | .ok next => resolveLoop context fuel (index + 1) next := by
  simp [resolveLoop, found]

end Loop

/-! ## The root components -/

/-- The requirement of a root component of the deployment; none is empty. -/
def rootRequirement : GglObject → Except GglError Buffer
  | .map fields =>
    match gglMapGet fields (gglStr "version") with
    | none => .ok []
    | some (.buf version) => .ok version
    | some _ => .error .invalid
  | _ => .error .invalid

/-- One root component of the deployment. -/
def addRoot (toResolve : Vec (Buffer × Buffer) maxComponents) (root : Buffer × GglObject) :
    Except GglError (Vec (Buffer × Buffer) maxComponents) := do
  let requirement ← rootRequirement root.2
  gglKvVecPush toResolve (root.1, requirement)

/-- The variables of the loop over the thing groups.  `ret` is the variable of
the source, and `none` is `GGL_ERR_OK`. -/
structure RootState where
  toResolve : Vec (Buffer × Buffer) maxComponents
  alloc : BumpAlloc
  requirements : BumpAlloc
  ret : Option GglError

/-- The error of a call, as `ret` keeps it. -/
def returned {α : Type} : Except GglError α → Option GglError
  | .ok _ => none
  | .error error => some error

/-- The buffer of a stored requirement, whose type is not checked. -/
def storedRequirement : GglObject → Buffer
  | .buf bytes => bytes
  | _ => []

/-- One root component of another thing group.  The error of the push is not
looked at. -/
def addGroupRoot (state : RootState) (root : Buffer × GglObject) : Except GglError RootState :=
  match state.toResolve.items.lookup root.1 with
  | some existing =>
    if existing = storedRequirement root.2 then .ok { state with ret := none }
    else .error .invalid
  | none => do
    let alloc ← gglBufClone 64 root.1 state.alloc
    let requirements ← gglBufClone 64 (storedRequirement root.2) state.requirements
    let pushed := gglKvVecPush state.toResolve (root.1, storedRequirement root.2)
    .ok ⟨state.toResolve.keep pushed, alloc, requirements, returned pushed⟩

section Groups

variable {σ : Type} (context : ResolveContext σ) (thingGroupName : Buffer)

/-- The body of the loop over the thing groups.  The error side is a return from
the function, where `none` returns `GGL_ERR_OK`. -/
def addThingGroup (state : RootState) : GglObject → Except (Option GglError) RootState
  | .map fields =>
    match gglMapValidateBuf fields (gglStr "thingGroupName") with
    | .error error => .error (some error)
    | .ok group =>
      if group = thingGroupName then
        .ok { state with ret := none }
      else
        match context.readGroup group state.alloc with
        | (.error error, alloc) => .ok { state with alloc, ret := some error }
        | (.ok (.map roots), alloc) =>
          (roots.foldlM addGroupRoot { state with alloc, ret := none }).mapError some
        | (.ok _, _) => .error (some .invalid)
  | _ => .error state.ret

/-- The thing groups of the device, from the decoded response.  A response of
another shape is answered with the success of its decoding. -/
def thingGroupItems (response : GglObject) : Except (Option GglError) (List GglObject) :=
  match response with
  | .map fields =>
    match gglMapGet fields (gglStr "thingGroups") with
    | some (.list items) => .ok items
    | _ => .error none
  | _ => .error none

/-- The part of `resolve_dependencies` before the work list. -/
def collectRoots (rootComponents : GglMap) (alloc : BumpAlloc) :
    Except (Option GglError) RootState := do
  let toResolve ← (rootComponents.foldlM addRoot (Vec.empty _ maxComponents)).mapError some
  (context.writeRoots toResolve.items).mapError some
  let response ← context.deviceThingGroups.mapError some
  let decoded ← (context.jsonDecode response).mapError some
  let items ← thingGroupItems decoded
  items.foldlM (addThingGroup context thingGroupName)
    ⟨toResolve, alloc, gglBumpAllocInit 2048, none⟩

/-- `resolve_dependencies`, started with no resolved component.  An early return
of `GGL_ERR_OK` leaves it that way. -/
def resolveDependencies (rootComponents : GglMap) (alloc : BumpAlloc) (world : σ) :
    Option (Except GglError (List (Buffer × Buffer))) :=
  match collectRoots context thingGroupName rootComponents alloc with
  | .error none => some (.ok [])
  | .error (some error) => some (.error error)
  | .ok roots =>
    (resolveLoop context maxComponents 0
      ⟨roots.toResolve, Vec.empty _ maxComponents, roots.alloc, roots.requirements, world⟩).map
      fun outcome => outcome.map fun state => state.resolved.items

end Groups

end GreengrassLite.Deployment

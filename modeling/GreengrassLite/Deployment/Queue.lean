import GreengrassLite.Core.Alloc
import GreengrassLite.Core.Map
import GreengrassLite.Core.Vector
import GreengrassLite.Library.Ring
import GreengrassLite.Library.Run

/-!
# The deployment queue

`ggdeploymentd/src/deployment_queue.c` keeps the deployments that wait in a circular
buffer.  A deployment whose id is already there replaces the one that waits under it.
The deployment at the front stays in the buffer, marked as in progress, until it is
released.

A slot stands for its entry of `deployments` together with the memory of the slot, which
holds the values that the entry points to.
-/

namespace GreengrassLite

open Library

/-- `GglDeploymentState`. -/
inductive GglDeploymentState where
  | queued
  | inProgress
  deriving DecidableEq, Repr

/-- `GglDeployment`. -/
structure GglDeployment where
  deploymentId : Buffer := []
  recipeDirectoryPath : Buffer := []
  artifactsDirectoryPath : Buffer := []
  configurationArn : Buffer := []
  thingGroup : Buffer := []
  rootComponentVersionsToAdd : GglMap := []
  rootComponentsToRemove : List GglObject := []
  componentToConfiguration : GglMap := []
  state : GglDeploymentState := .queued
  cloudRootComponentsToAdd : GglMap := []

/-! ## Deployment documents -/

/-- The loop of `get_slash_and_colon_locations_from_arn` from the end of the name: the
slash and the last colon found so far. -/
def slashAndColonLocations (arn : Buffer) : Nat → Nat → Nat → Nat × Nat
  | 0, slashIndex, lastColonIndex => (slashIndex, lastColonIndex)
  | i + 1, slashIndex, lastColonIndex =>
    let lastColonIndex :=
      if arn[i]? = some (UInt8.ofNat ':'.toNat) ∧ lastColonIndex = 0 then i else lastColonIndex
    let slashIndex := if arn[i]? = some (UInt8.ofNat '/'.toNat) then i else slashIndex
    if slashIndex ≠ 0 ∧ lastColonIndex ≠ 0 then (slashIndex, lastColonIndex)
    else slashAndColonLocations arn i slashIndex lastColonIndex

/-- The schema of `parse_deployment_obj`. -/
def deploymentSchema : List GglMapSchemaEntry :=
  [⟨gglStr "recipe_directory_path", false, .buf⟩, ⟨gglStr "artifacts_directory_path", false, .buf⟩,
    ⟨gglStr "root_component_versions_to_add", false, .map⟩, ⟨gglStr "components", false, .map⟩,
    ⟨gglStr "root_components_to_remove", false, .list⟩,
    ⟨gglStr "component_to_configuration", false, .map⟩, ⟨gglStr "deployment_id", false, .buf⟩,
    ⟨gglStr "configurationArn", false, .buf⟩]

/-- The buffer of an entry, or what the document leaves without it. -/
def bufOr (missing : Buffer) : Option GglObject → Buffer
  | some (.buf bytes) => bytes
  | _ => missing

@[inherit_doc bufOr]
def mapOrEmpty : Option GglObject → GglMap
  | some (.map pairs) => pairs
  | _ => []

@[inherit_doc bufOr]
def listOrEmpty : Option GglObject → List GglObject
  | some (.list items) => items
  | _ => []

/-- `parse_deployment_obj`; `uuid` is the random id a document without one is given. -/
def parseDeploymentObj (uuid : Buffer) (args : GglMap) : Except GglError GglDeployment :=
  match gglMapValidate args deploymentSchema with
  | .ok [recipeDirectoryPath, artifactsDirectoryPath, rootComponentVersionsToAdd,
      cloudRootComponentsToAdd, rootComponentsToRemove, componentToConfiguration, deploymentId,
      configurationArn] =>
      let doc : GglDeployment :=
        { recipeDirectoryPath := bufOr [] recipeDirectoryPath
          artifactsDirectoryPath := bufOr [] artifactsDirectoryPath
          rootComponentVersionsToAdd := mapOrEmpty rootComponentVersionsToAdd
          cloudRootComponentsToAdd := mapOrEmpty cloudRootComponentsToAdd
          rootComponentsToRemove := listOrEmpty rootComponentsToRemove
          componentToConfiguration := mapOrEmpty componentToConfiguration
          deploymentId := bufOr uuid deploymentId }
      match configurationArn with
      | some (.buf arn) =>
        -- The version at the end is discarded.
        let found := slashAndColonLocations arn arn.length 0 0
        .ok
          { doc with
            configurationArn := gglBufferSubstr arn 0 found.2
            thingGroup := gglBufferSubstr arn (found.1 + 1) found.2 }
      | _ => .ok { doc with thingGroup := gglStr "LOCAL_DEPLOYMENTS" }
  | _ => .error .invalid

/-- A document that names an id is parsed to the same deployment every time, one without an
id to a deployment that differs in the random id. -/
theorem parseDeploymentObj_eq_ok {uuid : Buffer} {args : GglMap} {doc : GglDeployment}
    (parses : parseDeploymentObj uuid args = .ok doc) :
    (gglMapGet args (gglStr "deployment_id") = some (.buf doc.deploymentId) ∧
      ∀ other, parseDeploymentObj other args = .ok doc) ∨
      (gglMapGet args (gglStr "deployment_id") = none ∧
        ∀ other, parseDeploymentObj other args = .ok { doc with deploymentId := other }) := by
  simp only [parseDeploymentObj] at parses ⊢
  cases valid : gglMapValidate args deploymentSchema with
  | error error =>
    rw [valid] at parses
    cases parses
  | ok values =>
    rcases gglMapValidate_eq_ok valid with ⟨rfl, typed⟩
    rw [valid] at parses
    have typedId := typed ⟨gglStr "deployment_id", false, .buf⟩ (by simp [deploymentSchema])
    simp only [deploymentSchema, List.map_cons, List.map_nil] at parses typedId ⊢
    cases named : gglMapGet args (gglStr "deployment_id") with
    | none =>
      refine .inr ⟨rfl, ?_⟩
      intro other
      split at parses <;> cases parses <;> rfl
    | some value =>
      rcases typedId value named with absurdity | isBuf
      · cases absurdity
      · cases value with
        | buf id =>
          rw [named] at parses
          split at parses <;> cases parses <;> exact .inl ⟨rfl, fun _ => rfl⟩
        | _ => cases isBuf

/-! ## The queue -/

/-- `DEPLOYMENT_QUEUE_SIZE`. -/
def deploymentQueueSize : Nat :=
  10

/-- `DEPLOYMENT_MEM_SIZE`. -/
def deploymentMemSize : Nat :=
  5000

/-- `deployments` with `queue_index` and `queue_count`. -/
abbrev DeploymentQueue :=
  Ring GglDeployment deploymentQueueSize

/-- `null_terminate_buffer`, answering the allocator afterwards. -/
def nullTerminateBuffer (buf : Buffer) (alloc : BumpAlloc) : Except GglError BumpAlloc :=
  if buf.length = 0 then .ok alloc
  else
    match gglAllocn 64 alloc 1 1 (buf.length + 1) with
    | none => .error .nomem
    | some taken => .ok taken

/-- `deep_copy_deployment` into the memory of a slot.  The copy has the values of the
deployment, so only whether it succeeds is of interest. -/
def deepCopyDeployment (deployment : GglDeployment) : Except GglError BumpAlloc := do
  let alloc ← gglObjDeepCopy (.buf deployment.deploymentId) (gglBumpAllocInit deploymentMemSize)
  let alloc ← nullTerminateBuffer deployment.recipeDirectoryPath alloc
  let alloc ← nullTerminateBuffer deployment.artifactsDirectoryPath alloc
  let alloc ← gglObjDeepCopy (.map deployment.rootComponentVersionsToAdd) alloc
  let alloc ← gglObjDeepCopy (.map deployment.cloudRootComponentsToAdd) alloc
  let alloc ← gglObjDeepCopy (.list deployment.rootComponentsToRemove) alloc
  let alloc ← gglObjDeepCopy (.map deployment.componentToConfiguration) alloc
  let alloc ← gglObjDeepCopy (.buf deployment.configurationArn) alloc
  gglObjDeepCopy (.buf deployment.thingGroup) alloc

namespace DeploymentQueue

/-- The static variables at the start. -/
def empty : DeploymentQueue where
  slots := fun _ => {}
  start := ⟨0, Nat.zero_lt_succ 9⟩
  count := 0
  bounded := Nat.zero_le _

variable (queue : DeploymentQueue)

/-- `get_matching_deployment`. -/
def getMatchingDeployment (deploymentId : Buffer) : Option (Fin deploymentQueueSize) :=
  ((List.range queue.count).map queue.position).find? fun index =>
    deploymentId = (queue.slots index).deploymentId

/-- The end of `ggl_deployment_enqueue`.  When the copy fails the entry stays as it was. -/
def fillSlot (index : Fin deploymentQueueSize) (new : GglDeployment) :
    Except GglError Unit × DeploymentQueue :=
  match deepCopyDeployment new with
  | .error error => (.error error, queue)
  | .ok _ => (.ok (), queue.setSlot index new)

/-- The place for a deployment is that of the one with its id as long as that one waits, and
a free one if its id is new. -/
def HasPlace (deploymentId : Buffer) : Prop :=
  match queue.getMatchingDeployment deploymentId with
  | some index => (queue.slots index).state = .queued
  | none => queue.count < deploymentQueueSize

end DeploymentQueue

/-- How a slot is filled. -/
abbrev Filler :=
  DeploymentQueue → Fin deploymentQueueSize → GglDeployment →
    Except GglError Unit × DeploymentQueue

/-- `ggl_deployment_enqueue` once the id of the deployment is known. -/
def DeploymentQueue.placeBy (fill : Filler) (queue : DeploymentQueue) (new : GglDeployment) :
    Except GglError Unit × DeploymentQueue :=
  match queue.getMatchingDeployment new.deploymentId with
  | some index =>
    if (queue.slots index).state ≠ .queued then (.error .failure, queue)
    else fill queue index new
  | none =>
    if room : queue.count < deploymentQueueSize then
      fill (queue.extend room) (queue.position queue.count) new
    else (.error .busy, queue)

@[inherit_doc DeploymentQueue.placeBy]
def DeploymentQueue.place : DeploymentQueue → GglDeployment →
    Except GglError Unit × DeploymentQueue :=
  placeBy fillSlot

/-- What `ggl_deployment_enqueue` leaves; its callers hand in a vector of `idSize` bytes. -/
structure Enqueued (idSize : Nat) where
  ret : Except GglError Unit
  id : Option (Vec UInt8 idSize)
  queue : DeploymentQueue

/-- The deployment id is appended unless the vector is `NULL`. -/
def appendId {idSize : Nat} (id : Option (Vec UInt8 idSize)) (deploymentId : Buffer) :
    Except GglError (Option (Vec UInt8 idSize)) :=
  match id with
  | none => .ok none
  | some vector =>
    match gglByteVecAppend vector deploymentId with
    | .error error => .error error
    | .ok longer => .ok (some longer)

/-- `ggl_deployment_enqueue`. -/
def gglDeploymentEnqueueBy (fill : Filler) {idSize : Nat} (queue : DeploymentQueue)
    (uuid : Buffer) (deploymentDoc : GglMap) (id : Option (Vec UInt8 idSize)) :
    Enqueued idSize :=
  match parseDeploymentObj uuid deploymentDoc with
  | .error error => ⟨.error error, id, queue⟩
  | .ok parsed =>
    match appendId id parsed.deploymentId with
    | .error error => ⟨.error error, id, queue⟩
    | .ok id =>
      let placed := queue.placeBy fill { parsed with state := .queued }
      ⟨placed.1, id, placed.2⟩

@[inherit_doc gglDeploymentEnqueueBy]
def gglDeploymentEnqueue {idSize : Nat} :
    DeploymentQueue → Buffer → GglMap → Option (Vec UInt8 idSize) → Enqueued idSize :=
  gglDeploymentEnqueueBy DeploymentQueue.fillSlot

/-- `ggl_deployment_dequeue`: the slot whose address it hands out, or none as long as it
blocks. -/
def gglDeploymentDequeue (queue : DeploymentQueue) :
    Option (Fin deploymentQueueSize × DeploymentQueue) :=
  if queue.count = 0 then none
  else
    some (queue.start,
      queue.setSlot queue.start { queue.slots queue.start with state := .inProgress })

/-- `ggl_deployment_release`; there is no result when its assertion fails. -/
def gglDeploymentRelease (queue : DeploymentQueue) (deployment : Fin deploymentQueueSize) :
    Option DeploymentQueue :=
  if deployment = queue.start then some queue.advance else none

end GreengrassLite

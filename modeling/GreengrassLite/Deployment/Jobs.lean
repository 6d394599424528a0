import GreengrassLite.Deployment.Queue

/-!
# The jobs listener

`ggdeploymentd/src/iot_jobs_listener.c` receives deployments as jobs of the cloud.  It
tracks one job: its id, the id of its deployment and the version that the cloud is
expected to have of it.  A job is put into the deployment queue, and what becomes of it
is reported to the cloud with the expected version, which the listener then counts up.

The version is taken to have fewer than 16 digits, so that it fits the buffer it is
printed to.
-/

namespace GreengrassLite

open List

/-! ## Topics and payloads -/

/-- `MAX_THING_NAME_LEN`. -/
def maxThingNameLen : Nat :=
  128

/-- `sizeof(topic_scratch)`. -/
def topicScratchSize : Nat :=
  256

/-- `sizeof(current_job_id_buf)` and `sizeof(current_deployment_id_buf)`. -/
def currentIdSize : Nat :=
  64

/-- The pieces of a topic, appended with `ggl_byte_vec_chain_append`. -/
def createTopic (pieces : List Buffer) : Except GglError (Vec UInt8 topicScratchSize) :=
  pieces.foldlM gglByteVecAppend (Vec.empty UInt8 topicScratchSize)

/-- `create_get_next_job_topic`. -/
def createGetNextJobTopic (thingName : Buffer) : Except GglError (Vec UInt8 topicScratchSize) :=
  createTopic [gglStr "$aws/things/", thingName, gglStr "/jobs/", gglStr "$next",
    gglStr "/namespace-aws-gg-deployment/get"]

/-- `create_update_job_topic`. -/
def createUpdateJobTopic (thingName jobId : Buffer) :
    Except GglError (Vec UInt8 topicScratchSize) :=
  createTopic [gglStr "$aws/things/", thingName, gglStr "/jobs/", jobId,
    gglStr "/namespace-aws-gg-deployment/update"]

/-- A call of `ggl_aws_iot_call`. -/
structure IotCall where
  topic : Buffer
  payload : GglMap

/-- The payload of `update_job`. -/
def updateJobPayload (jobStatus : Buffer) (version : Int) : GglMap :=
  [(gglStr "status", .buf jobStatus), (gglStr "expectedVersion", .buf (gglStr (toString version))),
    (gglStr "clientToken", .buf (gglStr "jobs-nucleus-lite"))]

/-- The payload of `describe_next_job`. -/
def describeNextJobPayload (thingName : Buffer) : GglMap :=
  [(gglStr "jobId", .buf (gglStr "$next")), (gglStr "thingName", .buf thingName),
    (gglStr "includeJobDocument", .boolean true),
    (gglStr "clientToken", .buf (gglStr "jobs-nucleus-lite"))]

/-! ## What the cloud sends -/

/-- `DeploymentStatusAction`. -/
inductive DeploymentStatusAction where
  | doNothing
  | enqueueJob
  | cancelJob
  deriving DecidableEq, Repr

/-- `status_action_map`. -/
def statusActionMap : List (Buffer × DeploymentStatusAction) :=
  [(gglStr "QUEUED", .enqueueJob), (gglStr "IN_PROGRESS", .enqueueJob),
    (gglStr "SUCCEEDED", .doNothing), (gglStr "FAILED", .doNothing),
    (gglStr "TIMED_OUT", .cancelJob), (gglStr "REJECTED", .doNothing),
    (gglStr "REMOVED", .cancelJob), (gglStr "CANCELED", .cancelJob)]

/-- The schema of `process_job_execution`. -/
def jobExecutionSchema : List GglMapSchemaEntry :=
  [⟨gglStr "jobId", false, .buf⟩, ⟨gglStr "status", false, .buf⟩,
    ⟨gglStr "jobDocument", false, .map⟩]

/-- `process_job_execution`: the job that it gives to `enqueue_job`. -/
def processJobExecution (jobExecution : GglMap) : Except GglError (Option (Buffer × GglMap)) :=
  match gglMapValidate jobExecution jobExecutionSchema with
  | .ok [some (.buf jobId), some (.buf status), deploymentDoc] =>
    match statusActionMap.find? (·.1 = status) with
    | none => .error .invalid
    | some (_, .enqueueJob) =>
      match deploymentDoc with
      | some (.map deploymentDoc) => .ok (some (jobId, deploymentDoc))
      | _ => .error .invalid
    | some _ => .ok none
  | .ok _ => .ok none
  | .error _ => .error .failure

/-- What `describe_next_job` and `next_job_execution_changed_callback` do with the object
they receive. -/
def processJobMessage (message : GglObject) : Except GglError (Option (Buffer × GglMap)) :=
  match message with
  | .map json =>
    match gglMapValidate json [⟨gglStr "execution", false, .map⟩] with
    | .ok [some (.map execution)] => processJobExecution execution
    | .ok _ => .ok none
    | .error _ => .error .failure
  | _ => .error .failure

/-! ## The tracked job -/

/-- The static variables of the listener. -/
@[ext]
structure JobsListener where
  thingName : Vec UInt8 maxThingNameLen
  currentJobId : Vec UInt8 currentIdSize
  currentDeploymentId : Vec UInt8 currentIdSize
  currentJobVersion : Int

namespace JobsListener

/-- The listener before any job has come. -/
def initial (thingName : Vec UInt8 maxThingNameLen) : JobsListener :=
  ⟨thingName, .empty UInt8 currentIdSize, .empty UInt8 currentIdSize, 0⟩

variable (listener : JobsListener)

/-- The beginning of `enqueue_job`, up to the deployment queue. -/
def trackJob (jobId : Buffer) : Except GglError Unit × JobsListener :=
  let reset :=
    { listener with currentJobVersion := 1, currentJobId := .empty UInt8 currentIdSize }
  match gglByteVecAppend reset.currentJobId jobId with
  | .error error => (.error error, reset)
  | .ok currentJobId =>
    (.ok (),
      { reset with
        currentJobId := currentJobId
        currentDeploymentId := .empty UInt8 currentIdSize })

/-- The call that `describe_next_job` makes. -/
def describeNextJobCall : Except GglError IotCall :=
  match createGetNextJobTopic listener.thingName.items with
  | .error error => .error error
  | .ok topic => .ok ⟨topic.items, describeNextJobPayload listener.thingName.items⟩

/-- The call that `update_job` makes. -/
def updateJobCall (jobId jobStatus : Buffer) : Except GglError IotCall :=
  match createUpdateJobTopic listener.thingName.items jobId with
  | .error error => .error error
  | .ok topic => .ok ⟨topic.items, updateJobPayload jobStatus listener.currentJobVersion⟩

/-- `update_job` after the call has returned.  The result of the call is not looked at. -/
def jobUpdated : JobsListener :=
  { listener with currentJobVersion := listener.currentJobVersion + 1 }

/-- `update_job`, with the calls it makes. -/
def updateJob (jobId jobStatus : Buffer) : List IotCall × JobsListener :=
  match listener.updateJobCall jobId jobStatus with
  | .error _ => ([], listener)
  | .ok call => ([call], listener.jobUpdated)

/-- `update_current_jobs_deployment`: the job it updates. -/
def currentJobOf (deploymentId : Buffer) : Except GglError Buffer :=
  if deploymentId ≠ listener.currentDeploymentId.items then .error .noentry
  else .ok listener.currentJobId.items

end JobsListener

/-! ## Buffers that are large enough -/

@[simp]
theorem gglByteVecAppend_of_fits {capacity : Nat} {vector : Vec UInt8 capacity} {buf : Buffer}
    (fits : (vector.items ++ buf).length ≤ capacity) :
    gglByteVecAppend vector buf = .ok ⟨vector.items ++ buf, fits⟩ :=
  (Vec.append_eq_ok_iff vector ⟨vector.items ++ buf, fits⟩ buf).mpr rfl

@[simp]
theorem foldlM_append_of_fits {capacity : Nat} {pieces : List Buffer}
    {vector : Vec UInt8 capacity}
    (fits : (vector.items ++ pieces.flatten).length ≤ capacity) :
    pieces.foldlM gglByteVecAppend vector = .ok ⟨vector.items ++ pieces.flatten, fits⟩ := by
  induction pieces generalizing vector with
  | nil => exact congrArg Except.ok (Vec.ext (append_nil _).symm)
  | cons piece pieces ih =>
    rw [flatten_cons, ← append_assoc] at fits
    have front : (vector.items ++ piece).length ≤ capacity := by
      rw [length_append] at fits
      omega
    rw [foldlM_cons, gglByteVecAppend_of_fits front]
    refine (ih fits).trans (congrArg Except.ok (Vec.ext ?_))
    exact append_assoc _ _ _

namespace JobsListener

section

variable (listener : JobsListener) {jobId : Buffer} (fits : jobId.length ≤ currentIdSize)

include listener fits

/-- The id of a tracked job fits the topic, so `update_job` always makes its call. -/
theorem exists_updateJobCall (jobStatus : Buffer) :
    ∃ topic, listener.updateJobCall jobId jobStatus =
      .ok ⟨topic, updateJobPayload jobStatus listener.currentJobVersion⟩ := by
  have name := listener.thingName.bounded
  have length : ((Vec.empty UInt8 topicScratchSize).items ++
      [gglStr "$aws/things/", listener.thingName.items, gglStr "/jobs/", jobId,
        gglStr "/namespace-aws-gg-deployment/update"].flatten).length ≤ topicScratchSize := by
    simp [gglStr, topicScratchSize, maxThingNameLen, currentIdSize] at name fits ⊢
    omega
  rw [updateJobCall, createUpdateJobTopic, createTopic, foldlM_append_of_fits length]
  exact ⟨_, rfl⟩

theorem updateJob_of_fits (jobStatus : Buffer) :
    ∃ topic, listener.updateJob jobId jobStatus =
      ([⟨topic, updateJobPayload jobStatus listener.currentJobVersion⟩], listener.jobUpdated) := by
  rcases listener.exists_updateJobCall fits jobStatus with ⟨topic, made⟩
  exact ⟨topic, by rw [updateJob, made]⟩

@[simp]
theorem trackJob_of_fits :
    listener.trackJob jobId =
      (.ok (), ⟨listener.thingName, ⟨jobId, fits⟩, .empty UInt8 currentIdSize, 1⟩) := by
  have appended := @gglByteVecAppend_of_fits _ (.empty UInt8 currentIdSize) jobId fits
  simp only [trackJob, appended]
  rfl

end

end JobsListener

end GreengrassLite

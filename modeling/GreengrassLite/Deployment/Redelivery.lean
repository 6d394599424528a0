import GreengrassLite.Deployment.Fifo
import GreengrassLite.Deployment.Jobs

/-!
# Jobs that are delivered again

The cloud may deliver a job more than once.  The listener gives each delivery to
`enqueue_job`, which starts to track the job anew, enqueues its deployment and reports
a failure when that is refused.  A delivery changes nothing when the document names the
id of its deployment, the deployment still waits, and the job is tracked with its first
version.  It does otherwise: a document without an id becomes a second deployment, and a
job whose deployment is in progress is reported as failed.
-/

namespace GreengrassLite

open Library List

/-! ## Processing a delivery -/

structure JobsState where
  listener : JobsListener
  queue : DeploymentQueue

/-- A random id has 36 characters and is not that of a deployment in the queue. -/
def RandomId (queue : DeploymentQueue) (uuid : Buffer) : Prop :=
  uuid.length = 36 ∧ uuid ∉ queue.contents.map GglDeployment.deploymentId

/-- The loop of `enqueue_job`: it tries until the queue is not busy.  While it sleeps the
other threads may change the queue.  Each try appends the id of the deployment again. -/
inductive EnqueueRetries (doc : GglMap) : DeploymentQueue → Vec UInt8 currentIdSize →
    Except GglError Unit → Vec UInt8 currentIdSize → DeploymentQueue → Prop
  | done {queue next id longer uuid ret} (random : RandomId queue uuid)
      (enqueued : gglDeploymentEnqueue queue uuid doc (some id) = ⟨ret, some longer, next⟩)
      (ready : ret ≠ .error .busy) : EnqueueRetries doc queue id ret longer next
  | busy {queue next later last id longer final uuid ret} (random : RandomId queue uuid)
      (enqueued : gglDeploymentEnqueue queue uuid doc (some id) =
        ⟨.error .busy, some longer, next⟩)
      (retried : EnqueueRetries doc later longer ret final last) :
      EnqueueRetries doc queue id ret final last

/-- `enqueue_job`, with the calls it makes. -/
inductive EnqueueJob (doc : GglMap) (jobId : Buffer) :
    JobsState → List IotCall → JobsState → Prop
  | tooLong {state : JobsState} {error listener}
      (tracked : state.listener.trackJob jobId = (.error error, listener)) :
      EnqueueJob doc jobId state [] { state with listener := listener }
  | enqueued {state : JobsState} {listener : JobsListener} {id queue}
      (tracked : state.listener.trackJob jobId = (.ok (), listener))
      (tries : EnqueueRetries doc state.queue listener.currentDeploymentId (.ok ()) id queue) :
      EnqueueJob doc jobId state [] ⟨{ listener with currentDeploymentId := id }, queue⟩
  | failed {state : JobsState} {listener : JobsListener} {id queue error}
      (tracked : state.listener.trackJob jobId = (.ok (), listener))
      (tries : EnqueueRetries doc state.queue listener.currentDeploymentId (.error error) id
        queue) :
      EnqueueJob doc jobId state
        (({ listener with currentDeploymentId := id }).updateJob jobId (gglStr "FAILURE")).1
        ⟨(({ listener with currentDeploymentId := id }).updateJob jobId (gglStr "FAILURE")).2,
          queue⟩

/-- A notification or the answer to `describe_next_job` is processed. -/
inductive ProcessMessage (message : GglObject) : JobsState → List IotCall → JobsState → Prop
  | job {jobId doc state next calls}
      (processed : processJobMessage message = .ok (some (jobId, doc)))
      (enqueued : EnqueueJob doc jobId state calls next) : ProcessMessage message state calls next
  | noJob {state} (processed : processJobMessage message = .ok none) :
      ProcessMessage message state [] state
  | invalid {state error}
      (processed : processJobMessage message = .error error) :
      ProcessMessage message state [] state

/-- The message carries the job with this document, queued or in progress. -/
def Carries (jobId : Buffer) (doc : GglMap) (message : GglObject) : Prop :=
  ∃ json execution status, message = .map json ∧
    gglMapGet json (gglStr "execution") = some (.map execution) ∧
    gglMapGet execution (gglStr "jobId") = some (.buf jobId) ∧
    gglMapGet execution (gglStr "status") = some (.buf status) ∧
    gglMapGet execution (gglStr "jobDocument") = some (.map doc) ∧
    (status = gglStr "QUEUED" ∨ status = gglStr "IN_PROGRESS")

/-- One more delivery of a job, with the calls it leads to. -/
def Redelivery (jobId : Buffer) (doc : GglMap) (state : JobsState) (calls : List IotCall)
    (next : JobsState) : Prop :=
  ∃ message, Carries jobId doc message ∧ ProcessMessage message state calls next

theorem Carries.processJobMessage {jobId : Buffer} {doc : GglMap} {message : GglObject}
    (carries : Carries jobId doc message) :
    processJobMessage message = .ok (some (jobId, doc)) := by
  rcases carries with ⟨json, execution, status, rfl, found, id, state, document, active⟩
  have valid : gglMapValidate json [⟨gglStr "execution", false, .map⟩] =
      .ok [some (.map execution)] := by
    simp [gglMapValidate, gglMapValidateEntry, found, GglObject.type]
  have fields : gglMapValidate execution jobExecutionSchema =
      .ok [some (.buf jobId), some (.buf status), some (.map doc)] := by
    simp [gglMapValidate, gglMapValidateEntry, jobExecutionSchema, id, state, document,
      GglObject.type]
  rw [GreengrassLite.processJobMessage, valid]
  change processJobExecution execution = _
  rw [processJobExecution, fields]
  rcases active with rfl | rfl
  · rfl
  · rfl

theorem Redelivery.enqueueJob {jobId : Buffer} {doc : GglMap} {state next : JobsState}
    {calls : List IotCall} (delivered : Redelivery jobId doc state calls next) :
    EnqueueJob doc jobId state calls next := by
  rcases delivered with ⟨message, carries, processed⟩
  have job := carries.processJobMessage
  cases processed with
  | job processed enqueued =>
    cases job.symm.trans processed
    exact enqueued
  | noJob processed | invalid processed => cases job.symm.trans processed

/-- The first id that is noted. -/
@[simp]
theorem appendId_empty {id : Buffer} (fits : id.length ≤ currentIdSize) :
    appendId (some (.empty UInt8 currentIdSize)) id = .ok (some ⟨id, fits⟩) := by
  have appended := @gglByteVecAppend_of_fits _ (.empty UInt8 currentIdSize) id fits
  rw [appendId, appended]
  rfl

/-! ## A deployment that is found in the queue -/

section Known

variable {doc : GglMap} {deployment : GglDeployment} {status : GglDeploymentState}
  {left : BumpAlloc} {queue : DeploymentQueue}

/-- What `ggl_deployment_enqueue` answers when the id is that of a deployment of the same
document. -/
def knownResult : GglDeploymentState → Except GglError Unit
  | .queued => .ok ()
  | .inProgress => .error .failure

theorem enqueue_known {uuid : Buffer} (parses : parseDeploymentObj uuid doc = .ok deployment)
    (idFits : deployment.deploymentId.length ≤ currentIdSize)
    (copies : deepCopyDeployment { deployment with state := .queued } = .ok left)
    (distinct : (queue.contents.map GglDeployment.deploymentId).Nodup)
    (present : { deployment with state := status } ∈ queue.contents) :
    ∃ next, gglDeploymentEnqueue queue uuid doc (some (.empty UInt8 currentIdSize)) =
      ⟨knownResult status, some ⟨deployment.deploymentId, idFits⟩, next⟩ ∧
        next.contents = queue.contents := by
  rw [gglDeploymentEnqueue_eq parses (appendId_empty idFits)]
  refine ⟨(queue.place { deployment with state := .queued }).2, ?_⟩
  have law := (queue.place_fifo rfl fun _ => ⟨left, copies⟩).enqueueLaw distinct
  rcases append_of_mem present with ⟨before, after, split⟩
  have known := law.1 before _ after split rfl
  cases status with
  | queued =>
    rcases known.1 rfl with ⟨ret, contents⟩
    exact ⟨by rw [ret]; rfl, contents.trans split.symm⟩
  | inProgress =>
    rcases known.2 rfl with ⟨ret, contents⟩
    exact ⟨by rw [ret]; rfl, contents⟩

theorem retries_known (parses : ∀ uuid, parseDeploymentObj uuid doc = .ok deployment)
    (idFits : deployment.deploymentId.length ≤ currentIdSize)
    (copies : deepCopyDeployment { deployment with state := .queued } = .ok left)
    (distinct : (queue.contents.map GglDeployment.deploymentId).Nodup)
    (present : { deployment with state := status } ∈ queue.contents)
    {ret : Except GglError Unit} {final : Vec UInt8 currentIdSize} {last : DeploymentQueue}
    (tries : EnqueueRetries doc queue (.empty UInt8 currentIdSize) ret final last) :
    ret = knownResult status ∧ final = ⟨deployment.deploymentId, idFits⟩ ∧
      last.contents = queue.contents := by
  cases tries with
  | @done _ _ _ _ uuid _ random enqueued ready =>
    rcases enqueue_known (parses uuid) idFits copies distinct present with ⟨next, result, same⟩
    cases result.symm.trans enqueued
    exact ⟨rfl, rfl, same⟩
  | @busy _ _ _ _ _ _ _ uuid _ random enqueued retried =>
    rcases enqueue_known (parses uuid) idFits copies distinct present with ⟨next, result, same⟩
    have ret := congrArg Enqueued.ret (result.symm.trans enqueued)
    cases status with
    | queued | inProgress => cases ret

end Known

/-! ## A document without an id -/

section Unnamed

variable {doc : GglMap} {deployment : GglDeployment} {queue : DeploymentQueue}

/-- A second id does not fit behind the first. -/
theorem enqueue_second_id {uuid : Buffer} {id : Vec UInt8 currentIdSize}
    (parses : parseDeploymentObj uuid doc = .ok { deployment with deploymentId := uuid })
    (length : uuid.length = 36) (filled : id.items.length = 36) :
    gglDeploymentEnqueue queue uuid doc (some id) = ⟨.error .nomem, some id, queue⟩ := by
  have overflow : gglByteVecAppend id uuid = .error .nomem := by
    rw [gglByteVecAppend, Vec.append, dif_pos]
    rw [length, filled]
    decide
  have appends : appendId (some id) uuid = .error .nomem := by
    rw [appendId, overflow]
  rw [gglDeploymentEnqueue, gglDeploymentEnqueueBy, parses]
  simp [appends]

/-- A deployment under a new id is one deployment more. -/
theorem enqueue_added {idSize : Nat} {id longer final : Option (Vec UInt8 idSize)} {uuid : Buffer}
    {parsed : GglDeployment} {next : DeploymentQueue}
    (parses : parseDeploymentObj uuid doc = .ok parsed)
    (appends : appendId id parsed.deploymentId = .ok longer)
    (absent : parsed.deploymentId ∉ queue.contents.map GglDeployment.deploymentId)
    (enqueued : gglDeploymentEnqueue queue uuid doc id = ⟨.ok (), final, next⟩) :
    next.contents.length = queue.contents.length + 1 := by
  rw [gglDeploymentEnqueue_eq parses appends] at enqueued
  have ret := congrArg Enqueued.ret enqueued
  have placed := congrArg Enqueued.queue enqueued
  rcases DeploymentQueue.deepCopy_of_place_ok ret with ⟨left, copies⟩
  have stepped := queue.place_fifo rfl fun _ => ⟨left, copies⟩
  rw [DeploymentQueue.getMatchingDeployment_eq_none_iff.mpr absent] at stepped
  dsimp only at ret placed
  rw [ret, placed] at stepped
  exact stepped.length_of_added

/-- When it is enqueued there is one deployment more. -/
theorem retries_unnamed
    (parses : ∀ uuid, parseDeploymentObj uuid doc = .ok { deployment with deploymentId := uuid })
    {final : Vec UInt8 currentIdSize} {last : DeploymentQueue}
    (tries : EnqueueRetries doc queue (.empty UInt8 currentIdSize) (.ok ()) final last) :
    last.contents.length = queue.contents.length + 1 := by
  have fits : ∀ {uuid : Buffer}, RandomId queue uuid → uuid.length ≤ currentIdSize := by
    intro uuid random
    rw [random.1]
    decide
  cases tries with
  | @done _ _ _ _ uuid _ random enqueued ready =>
    exact enqueue_added (parses uuid) (appendId_empty (fits random)) random.2 enqueued
  | @busy _ _ _ _ _ longer _ uuid _ random enqueued retried =>
    rw [gglDeploymentEnqueue_eq (parses uuid) (appendId_empty (fits random))] at enqueued
    cases congrArg Enqueued.id enqueued
    have length := random.1
    cases retried with
    | done random again | busy random again =>
      cases (enqueue_second_id (parses _) random.1 length).symm.trans again

end Unnamed

/-! ## Deliveries -/

section Deliveries

variable {jobId : Buffer} {doc : GglMap} {deployment : GglDeployment}
  {status : GglDeploymentState} {left : BumpAlloc} {state next : JobsState}

/-- What is known of a job that was enqueued before: its ids fit the buffers they are
tracked in, and its document was parsed to a deployment that could be copied. -/
structure EnqueuedBefore (jobId : Buffer) (doc : GglMap) (deployment : GglDeployment) :
    Prop where
  jobFits : jobId.length ≤ currentIdSize
  idFits : deployment.deploymentId.length ≤ currentIdSize
  parsed : ∃ uuid, parseDeploymentObj uuid doc = .ok deployment
  copied : ∃ left, deepCopyDeployment { deployment with state := .queued } = .ok left

/-- A delivery of a job whose deployment is found: the queue stays as it is.  The job is
tracked anew, and a deployment in progress is reported as failed. -/
theorem EnqueueJob.known {calls : List IotCall} (before : EnqueuedBefore jobId doc deployment)
    (parses : ∀ uuid, parseDeploymentObj uuid doc = .ok deployment)
    (distinct : (state.queue.contents.map GglDeployment.deploymentId).Nodup)
    (present : { deployment with state := status } ∈ state.queue.contents)
    (delivered : EnqueueJob doc jobId state calls next) :
    next.queue.contents = state.queue.contents ∧
      (status = .queued → calls = [] ∧ next.listener =
        ⟨state.listener.thingName, ⟨jobId, before.jobFits⟩,
          ⟨deployment.deploymentId, before.idFits⟩, 1⟩) ∧
      (status = .inProgress → calls ≠ []) := by
  rcases before.copied with ⟨left, copies⟩
  have tracks := state.listener.trackJob_of_fits before.jobFits
  cases delivered with
  | tooLong tracked => cases tracks.symm.trans tracked
  | enqueued tracked tries =>
    cases tracks.symm.trans tracked
    rcases retries_known parses before.idFits copies distinct present tries with ⟨ret, rfl, same⟩
    refine ⟨same, fun _ => ⟨rfl, rfl⟩, ?_⟩
    rintro rfl
    cases ret
  | failed tracked tries =>
    cases tracks.symm.trans tracked
    rcases retries_known parses before.idFits copies distinct present tries with ⟨ret, _, same⟩
    refine ⟨same, ?_, ?_⟩
    · rintro rfl
      cases ret
    · intro _
      rcases JobsListener.updateJob_of_fits _ before.jobFits (gglStr "FAILURE") with ⟨topic, made⟩
      rw [made]
      exact cons_ne_nil _ _

/-- A delivery of a document without an id leads to a call, or to one deployment more. -/
theorem EnqueueJob.unnamed {calls : List IotCall} (jobFits : jobId.length ≤ currentIdSize)
    (parses : ∀ uuid, parseDeploymentObj uuid doc = .ok { deployment with deploymentId := uuid })
    (delivered : EnqueueJob doc jobId state calls next) (silent : calls = []) :
    next.queue.contents.length = state.queue.contents.length + 1 := by
  have tracks := state.listener.trackJob_of_fits jobFits
  cases delivered with
  | tooLong tracked => cases tracks.symm.trans tracked
  | enqueued tracked tries =>
    cases tracks.symm.trans tracked
    exact retries_unnamed parses tries
  | failed tracked tries =>
    rcases JobsListener.updateJob_of_fits _ jobFits (gglStr "FAILURE") with ⟨topic, made⟩
    rw [made] at silent
    cases silent

variable {history : List (List IotCall)}

theorem redeliveries_known (before : EnqueuedBefore jobId doc deployment)
    (parses : ∀ uuid, parseDeploymentObj uuid doc = .ok deployment)
    (distinct : (state.queue.contents.map GglDeployment.deploymentId).Nodup)
    (present : { deployment with state := status } ∈ state.queue.contents)
    (run : Run (Redelivery jobId doc) state history next) :
    next.queue.contents = state.queue.contents ∧
      (status = .queued → (∀ calls ∈ history, calls = []) ∧
        next.listener.thingName = state.listener.thingName ∧
        (history ≠ [] → next.listener =
          ⟨state.listener.thingName, ⟨jobId, before.jobFits⟩,
            ⟨deployment.deploymentId, before.idFits⟩, 1⟩)) ∧
      (status = .inProgress → ∀ calls ∈ history, calls ≠ []) := by
  induction run with
  | refl => exact ⟨rfl, fun _ => ⟨nofun, rfl, fun some => absurd rfl some⟩, fun _ => nofun⟩
  | @tail history middle next calls earlier stepped ih =>
    rcases ih with ⟨same, waits, runs⟩
    have delivered := stepped.enqueueJob.known before parses (same ▸ distinct) (same ▸ present)
    rcases delivered with ⟨kept, silent, reported⟩
    refine ⟨kept.trans same, ?_, ?_⟩
    · intro queued
      rcases waits queued with ⟨others, name, _⟩
      rcases silent queued with ⟨none, listener⟩
      rw [name] at listener
      exact ⟨forall_mem_cons.mpr ⟨none, others⟩, by rw [listener], fun _ => listener⟩
    · intro inProgress
      exact forall_mem_cons.mpr ⟨reported inProgress, runs inProgress⟩

theorem redeliveries_unnamed (jobFits : jobId.length ≤ currentIdSize)
    (parses : ∀ uuid, parseDeploymentObj uuid doc = .ok { deployment with deploymentId := uuid })
    (run : Run (Redelivery jobId doc) state history next)
    (silent : ∀ calls ∈ history, calls = []) :
    next.queue.contents.length = state.queue.contents.length + history.length := by
  induction run with
  | refl => rfl
  | tail earlier stepped ih =>
    rw [forall_mem_cons] at silent
    rw [stepped.enqueueJob.unnamed jobFits parses silent.1, ih silent.2]
    rfl

/-- However often a job is delivered again, it creates no second deployment, reports no
failure and leaves what is tracked unchanged, exactly when its document names the id of the
deployment, the deployment still waits, and the job is already tracked with its deployment
and its first version. -/
theorem redelivery_unchanged_iff {past : List QueueEvent}
    {dequeued : Option (Fin deploymentQueueSize)}
    (reached : Run QueueStep .initial past ⟨state.queue, dequeued⟩)
    (before : EnqueuedBefore jobId doc deployment)
    (present : { deployment with state := status } ∈ state.queue.contents)
    (run : Run (Redelivery jobId doc) state history next) (delivered : history ≠ []) :
    (next.queue.contents.map GglDeployment.deploymentId =
        state.queue.contents.map GglDeployment.deploymentId ∧
      (∀ calls ∈ history, calls = []) ∧ next.listener = state.listener) ↔
      (gglMapGet doc (gglStr "deployment_id") = some (.buf deployment.deploymentId) ∧
        status = .queued ∧ state.listener.currentJobId.items = jobId ∧
        state.listener.currentDeploymentId.items = deployment.deploymentId ∧
        state.listener.currentJobVersion = 1) := by
  have distinct := (fifoInvariant_of_run (fifo_of_run reached).1).distinct
  rcases before.parsed with ⟨uuid, parsed⟩
  rcases parseDeploymentObj_eq_ok parsed with ⟨named, parses⟩ | ⟨unnamed, parses⟩
  · rcases redeliveries_known before parses distinct present run with ⟨same, waits, runs⟩
    cases status with
    | inProgress =>
      constructor
      · rintro ⟨_, silent, _⟩
        rcases exists_mem_of_ne_nil history delivered with ⟨calls, listed⟩
        exact absurd (silent calls listed) (runs rfl calls listed)
      · rintro ⟨_, absurdity, _⟩
        cases absurdity
    | queued =>
      rcases waits rfl with ⟨silent, _, tracked⟩
      rw [tracked delivered]
      constructor
      · rintro ⟨_, _, unchanged⟩
        rw [← unchanged]
        exact ⟨named, rfl, rfl, rfl, rfl⟩
      · rintro ⟨_, _, job, id, version⟩
        refine ⟨by rw [same], silent, ?_⟩
        exact JobsListener.ext rfl (Vec.ext job.symm) (Vec.ext id.symm) version.symm
  · constructor
    · rintro ⟨ids, silent, _⟩
      have grown := redeliveries_unnamed before.jobFits parses run silent
      have length := congrArg length ids
      rw [length_map, length_map] at length
      exact absurd (eq_nil_of_length_eq_zero (by omega)) delivered
    · rintro ⟨named, _⟩
      cases unnamed.symm.trans named

end Deliveries

/-! ## Two deliveries -/

/-- A document that names only the id of its deployment. -/
def namedDoc : GglMap :=
  [(gglStr "deployment_id", .buf [7])]

/-- What it is parsed to. -/
def namedDeployment : GglDeployment :=
  { deploymentId := [7], thingGroup := gglStr "LOCAL_DEPLOYMENTS" }

theorem namedDoc_enqueued : EnqueuedBefore [1] namedDoc namedDeployment where
  jobFits := by decide
  idFits := by decide
  parsed := ⟨[], rfl⟩
  copied := ⟨⟨18, 5000⟩, rfl⟩

theorem namedDoc_carried : Carries [1] namedDoc
    (.map [(gglStr "execution", .map [(gglStr "jobId", .buf [1]),
      (gglStr "status", .buf (gglStr "QUEUED")), (gglStr "jobDocument", .map namedDoc)])]) :=
  ⟨_, _, gglStr "QUEUED", rfl, rfl, rfl, rfl, rfl, .inl rfl⟩

/-- The queue that holds this deployment alone. -/
def namedQueue : DeploymentQueue :=
  (gglDeploymentEnqueue .empty [] namedDoc (none : Option (Vec UInt8 currentIdSize))).queue

theorem namedQueue_reached : ∃ past, Run QueueStep .initial past ⟨namedQueue, none⟩ := by
  have parses : parseDeploymentObj [] namedDoc = .ok namedDeployment := rfl
  have appends : appendId (none : Option (Vec UInt8 currentIdSize)) [7] = .ok none := rfl
  have copies : deepCopyDeployment namedDeployment = .ok ⟨18, 5000⟩ := rfl
  exact ⟨_, .tail .refl (.enqueue parses appends fun _ => ⟨_, copies⟩)⟩

/-- The listener that tracks the job with its first version. -/
def namedListener : JobsListener where
  thingName := .empty UInt8 maxThingNameLen
  currentJobId := ⟨[1], namedDoc_enqueued.jobFits⟩
  currentDeploymentId := ⟨[7], namedDoc_enqueued.idFits⟩
  currentJobVersion := 1

theorem redelivery_unchanged_iff_waiting :
    ∃ next, Redelivery [1] namedDoc ⟨namedListener, namedQueue⟩ [] next ∧
      next.listener = namedListener := by
  rcases namedQueue_reached with ⟨past, reached⟩
  have random : RandomId namedQueue (replicate 36 48) := ⟨rfl, by decide⟩
  have delivery : Redelivery [1] namedDoc ⟨namedListener, namedQueue⟩ [] _ :=
    ⟨_, namedDoc_carried, .job rfl (.enqueued rfl (.done random rfl nofun))⟩
  have unchanged := (redelivery_unchanged_iff reached namedDoc_enqueued mem_cons_self
    (.tail .refl delivery) (cons_ne_nil _ _)).mpr ⟨rfl, rfl, rfl, rfl, rfl⟩
  exact ⟨_, delivery, unchanged.2.2⟩

/-- The deployment of a job is in progress, and the job is delivered again: it is reported as
failed. -/
theorem running_job_reported :
    ∃ past slot queue next call, Run QueueStep .initial past ⟨queue, some slot⟩ ∧
      { namedDeployment with state := .inProgress } ∈ queue.contents ∧
      Redelivery [1] namedDoc ⟨namedListener, queue⟩ [call] next ∧
      call.payload = updateJobPayload (gglStr "FAILURE") 1 := by
  rcases namedQueue_reached with ⟨past, reached⟩
  have running := Run.tail reached (.dequeue rfl)
  have random : RandomId (namedQueue.setSlot namedQueue.start
      { namedQueue.slots namedQueue.start with state := .inProgress }) (replicate 36 48) :=
    ⟨rfl, by decide⟩
  have tries : EnqueueRetries namedDoc (namedQueue.setSlot namedQueue.start
      { namedQueue.slots namedQueue.start with state := .inProgress })
      (.empty UInt8 currentIdSize) (.error .failure) ⟨[7], namedDoc_enqueued.idFits⟩ _ :=
    .done random rfl (by rintro ⟨⟩)
  have reported : EnqueueJob namedDoc [1] ⟨namedListener, _⟩ _ _ := .failed rfl tries
  rcases JobsListener.updateJob_of_fits _ namedDoc_enqueued.jobFits (gglStr "FAILURE") with
    ⟨topic, made⟩
  rw [made] at reported
  exact ⟨_, _, _, _, _, running, mem_cons_self, ⟨_, namedDoc_carried, .job rfl reported⟩, rfl⟩

end GreengrassLite

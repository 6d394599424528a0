import GreengrassLite.Deployment.Jobs
import GreengrassLite.Library.Threads

/-!
# The threads of the jobs listener

Three threads use the jobs listener.  The listener thread asks the cloud for the next
job and holds `topic_scratch_mutex` until the job is enqueued.  The subscription thread
of the core bus runs the callback for a new job, and it alone delivers the answers that
`ggl_aws_iot_call` waits for.  The deployment thread reports what becomes of a
deployment before it releases it.

What the deployment queue and the cloud answer is left to the environment.
-/

namespace GreengrassLite

open Library List

variable {jobStatus deploymentId : Buffer} {answers : EnqueueAnswers}
  {jobId : Buffer}

inductive JobsLock where
  /-- `topic_scratch_mutex`. -/
  | topicScratch
  /-- `mem_mtx` of `ggl_aws_iot_call`. -/
  | iotCallMem
  /-- `queue_mtx`. -/
  | queue
  deriving DecidableEq

/-- The calls that are noted. -/
inductive JobsCall where
  /-- `ggl_aws_iot_call` waits for its answer. -/
  | awaitsResponse
  /-- `enqueue_job` sleeps, as the queue is full. -/
  | retries
  /-- A deployment was dequeued and not released. -/
  | deployment
  deriving DecidableEq

inductive JobsThread where
  | listener
  | subscription
  | deployment
  deriving DecidableEq

abbrev JobsProgram (α : Type) :=
  Program JobsLock JobsCall JobsListener α

abbrev JobsThreads :=
  Threads JobsThread JobsLock JobsCall JobsListener

/-- What `ggl_deployment_enqueue` answers to one `enqueue_job`, with what it leaves in
`current_deployment_id`. -/
structure EnqueueAnswers where
  /-- The tries that were answered with `GGL_ERR_BUSY`. -/
  busy : List (Vec UInt8 currentIdSize)
  /-- The last try. -/
  ret : Except GglError Unit
  id : Vec UInt8 currentIdSize
  ready : ret ≠ .error .busy

/-- The first try succeeds. -/
def EnqueueAnswers.Accepted (answers : EnqueueAnswers) : Prop :=
  answers.busy = [] ∧ answers.ret = .ok ()

namespace JobsProgram

open Program hiding pure bind

/-- `ggl_aws_iot_call`: whether the request was sent, so that there may be an answer. -/
def gglAwsIotCall : JobsProgram Bool :=
  holding .iotCallMem do
    let failure ← ask
    if failure = 0 then during .awaitsResponse (return true) else return false

/-- `update_job`. -/
def updateJob (jobId jobStatus : Buffer) : JobsProgram Unit :=
  holding .topicScratch do
    let listener ← read
    match listener.updateJobCall jobId jobStatus with
    | .error _ => return ()
    | .ok _ => do
      let _ ← gglAwsIotCall
      modify JobsListener.jobUpdated

/-- `ggl_deployment_enqueue`, which leaves this deployment id. -/
def gglDeploymentEnqueue (id : Vec UInt8 currentIdSize) : JobsProgram Unit :=
  holding .queue (modify fun listener => { listener with currentDeploymentId := id })

/-- The loop of `enqueue_job` as long as the queue is full. -/
def retryLoop : List (Vec UInt8 currentIdSize) → JobsProgram Unit
  | [] => return ()
  | id :: ids => do
    gglDeploymentEnqueue id
    during .retries (return ())
    retryLoop ids

variable (answers : EnqueueAnswers)

/-- `enqueue_job`. -/
def enqueueJob (jobId : Buffer) : JobsProgram Unit := do
  let listener ← .update (fun listener => (listener.trackJob jobId).2) .pure
  match (listener.trackJob jobId).1 with
  | .error _ => return ()
  | .ok () => do
    retryLoop answers.busy
    gglDeploymentEnqueue answers.id
    match answers.ret with
    | .ok () => return ()
    | .error _ => updateJob jobId (gglStr "FAILURE")

/-- What is done with a notification of a job and with the answer to `describe_next_job`. -/
def processMessage (message : GglObject) : JobsProgram Unit :=
  match processJobMessage message with
  | .ok (some (jobId, _)) => enqueueJob answers jobId
  | _ => return ()

/-- `describe_next_job`. -/
def describeNextJob (jobDescription : GglObject) : JobsProgram Unit :=
  holding .topicScratch do
    let listener ← read
    match listener.describeNextJobCall with
    | .error _ => return ()
    | .ok _ => do
      let sent ← gglAwsIotCall
      processMessage answers (if sent then jobDescription else .null)

/-- `update_current_jobs_deployment`, which reads the ids without a mutex. -/
def updateCurrentJobsDeployment (deploymentId jobStatus : Buffer) : JobsProgram Unit := do
  let listener ← read
  match listener.currentJobOf deploymentId with
  | .error _ => return ()
  | .ok jobId => updateJob jobId jobStatus

/-- A round of the loop of `ggl_deployment_listen`, from `ggl_deployment_dequeue` to
`ggl_deployment_release`, which takes no mutex. -/
def handleDeployment (deploymentId : Buffer) (succeeded : Bool) : JobsProgram Unit := do
  holding .queue (return ())
  during .deployment do
    updateCurrentJobsDeployment deploymentId (gglStr "IN_PROGRESS")
    updateCurrentJobsDeployment deploymentId
      (if succeeded then gglStr "SUCCEEDED" else gglStr "FAILED")

end JobsProgram

/-- What the threads do when `ggl_deployment_enqueue` answers as allowed. -/
inductive JobsStarts (allowed : EnqueueAnswers → Prop) : JobsThread → JobsProgram Unit → Prop
  | describe {answers : EnqueueAnswers} (isAllowed : allowed answers)
      (jobDescription : GglObject) :
      JobsStarts allowed .listener (JobsProgram.describeNextJob answers jobDescription)
  | notification {answers : EnqueueAnswers} (isAllowed : allowed answers) (message : GglObject) :
      JobsStarts allowed .subscription (JobsProgram.processMessage answers message)
  | deployment (deploymentId : Buffer) (succeeded : Bool) :
      JobsStarts allowed .deployment (JobsProgram.handleDeployment deploymentId succeeded)

/-- The mutexes are no recursive ones. -/
def JobsLock.Reentrant (_ : JobsLock) : Prop :=
  False

instance : DecidablePred JobsLock.Reentrant :=
  fun _ => inferInstanceAs (Decidable False)

instance : Fintype JobsThread :=
  ⟨{.listener, .subscription, .deployment}, fun thread => by cases thread <;> simp⟩

/-- The steps of the three threads. -/
abbrev JobsStep (allowed : EnqueueAnswers → Prop) :
    JobsThreads → JobsThread → JobsThreads → Prop :=
  Threads.Step JobsLock.Reentrant (JobsStarts allowed)

namespace JobsThreads

/-- The threads before any job has come. -/
def initial (thingName : Vec UInt8 maxThingNameLen) : JobsThreads :=
  ⟨.initial thingName, fun _ => .idle⟩

/-- Some run leads to the state. -/
def Reachable (allowed : EnqueueAnswers → Prop) (state : JobsThreads) : Prop :=
  ∃ thingName history, Run (JobsStep allowed) (initial thingName) history state

/-- The deployment thread can only go on after the other one: it waits for a mutex of that
one, or for an answer which that one delivers. -/
def Blocks (state : JobsThreads) (thread : JobsThread) : Prop :=
  state.WaitsFor JobsLock.Reentrant .deployment thread ∨
    thread = .subscription ∧ .awaitsResponse ∈ (state.thread .deployment).calls

/-- No thread takes `topic_scratch_mutex` again, the subscription thread does not wait for an
answer, and no thread waits for room in the queue while the deployment thread, which is about
to make room, waits for that thread. -/
structure Progresses (state : JobsThreads) : Prop where
  untaken : ∀ thread, (state.thread thread).program.wants = some .topicScratch →
    .topicScratch ∉ (state.thread thread).held
  answered : .awaitsResponse ∉ (state.thread .subscription).calls
  released : ∀ thread, .retries ∈ (state.thread thread).calls →
    .deployment ∈ (state.thread .deployment).calls → ¬state.Blocks thread

end JobsThreads

/-! ## The locks of the programs -/

/-- The variables of the listener are not protected. -/
def jobsProtection : Protection JobsLock JobsListener :=
  ⟨fun _ _ _ => True, fun _ _ => trivial, fun _ _ => trivial⟩

/-- No thread takes a mutex that it holds. -/
def jobsConduct : Conduct JobsLock JobsCall JobsListener :=
  ⟨fun _ _ => True, fun held _ _ lock => lock ∉ held⟩

namespace JobsProgram

open Program hiding pure bind

section Locks

variable {held : List JobsLock} {calls : List JobsCall} {seen : JobsListener}

theorem gglAwsIotCall_balanced (untaken : .iotCallMem ∉ held) :
    gglAwsIotCall.Balanced jobsProtection jobsConduct held calls seen := by
  apply Balanced.holding
  intro now _
  refine ⟨untaken, ?_⟩
  apply keeps_ask
  intro failure
  by_cases isSent : failure = 0
  · rw [if_pos isSent]
    exact Balanced.during balanced_pure
  · rw [if_neg isSent]
    exact balanced_pure

theorem updateJob_balanced (untaken : .topicScratch ∉ held) (callUntaken : .iotCallMem ∉ held) :
    (updateJob jobId jobStatus).Balanced jobsProtection jobsConduct held calls seen := by
  apply Balanced.holding
  intro now _
  refine ⟨untaken, ?_⟩
  apply keeps_read
  intro listener _ _
  cases listener.updateJobCall jobId jobStatus with
  | error error => exact balanced_pure
  | ok call =>
    apply Balanced.bind
    · apply gglAwsIotCall_balanced
      simp [callUntaken]
    · intro sent seen
      exact balanced_modify fun _ _ _ => trivial

theorem gglDeploymentEnqueue_balanced {id : Vec UInt8 currentIdSize} (untaken : .queue ∉ held) :
    (gglDeploymentEnqueue id).Balanced jobsProtection jobsConduct held calls seen := by
  apply Balanced.holding
  intro now _
  exact ⟨untaken, balanced_modify fun _ _ _ => trivial⟩

theorem enqueueJob_balanced (accepted : answers.Accepted) (untaken : .queue ∉ held) :
    (enqueueJob answers jobId).Balanced jobsProtection jobsConduct held calls seen := by
  intro listener _ _
  refine ⟨fun _ _ => trivial, ?_⟩
  cases tracked : (listener.trackJob jobId).1 with
  | error error =>
    simp only [Program.bind, tracked]
    exact balanced_pure
  | ok done =>
    simp only [Program.bind, tracked, accepted.1, accepted.2]
    apply balanced_pure.bind
    intro _ _
    apply (gglDeploymentEnqueue_balanced untaken).bind
    intro _ _
    exact balanced_pure

theorem processMessage_balanced (accepted : answers.Accepted) {message : GglObject}
    (untaken : .queue ∉ held) :
    (processMessage answers message).Balanced jobsProtection jobsConduct held calls seen := by
  unfold processMessage
  split
  · exact enqueueJob_balanced accepted untaken
  · exact balanced_pure

theorem describeNextJob_balanced (accepted : answers.Accepted) {jobDescription : GglObject} :
    (describeNextJob answers jobDescription).Balanced jobsProtection jobsConduct [] [] seen := by
  apply Balanced.holding
  intro now _
  refine ⟨not_mem_nil, ?_⟩
  apply keeps_read
  intro listener _ _
  cases listener.describeNextJobCall with
  | error error => exact balanced_pure
  | ok call =>
    apply (gglAwsIotCall_balanced (by simp)).bind
    intro sent seen
    exact processMessage_balanced accepted (by simp)

theorem updateCurrentJobsDeployment_balanced :
    (updateCurrentJobsDeployment deploymentId jobStatus).Balanced jobsProtection jobsConduct []
      calls seen := by
  apply keeps_read
  intro listener _ _
  cases listener.currentJobOf deploymentId with
  | error error => exact balanced_pure
  | ok jobId => exact updateJob_balanced not_mem_nil not_mem_nil

theorem handleDeployment_balanced {succeeded : Bool} :
    (handleDeployment deploymentId succeeded).Balanced jobsProtection jobsConduct [] [] seen := by
  apply Balanced.bind
  · apply Balanced.holding
    intro now _
    exact ⟨not_mem_nil, balanced_pure⟩
  · intro _ _
    apply Balanced.during
    apply updateCurrentJobsDeployment_balanced.bind
    intro _ _
    exact updateCurrentJobsDeployment_balanced

end Locks

/-! ## The calls of the programs -/

section Calls

variable {forbidden : JobsCall → Prop}

theorem gglAwsIotCall_avoids (allowed : ¬forbidden .awaitsResponse) :
    gglAwsIotCall.Avoids forbidden := by
  apply Avoids.holding
  apply avoids_ask
  intro failure
  by_cases isSent : failure = 0
  · rw [if_pos isSent]
    exact Avoids.during allowed trivial
  · rw [if_neg isSent]
    trivial

theorem updateJob_avoids (allowed : ¬forbidden .awaitsResponse) :
    (updateJob jobId jobStatus).Avoids forbidden := by
  apply Avoids.holding
  apply avoids_read
  intro listener
  cases listener.updateJobCall jobId jobStatus with
  | error error => trivial
  | ok call => exact (gglAwsIotCall_avoids allowed).bind fun _ _ => trivial

/-- A job that is accepted at once leads to no call. -/
theorem enqueueJob_avoids (accepted : answers.Accepted) :
    (enqueueJob answers jobId).Avoids forbidden := by
  intro listener
  cases tracked : (listener.trackJob jobId).1 with
  | error error =>
    simp only [Program.bind, tracked]
    trivial
  | ok done =>
    simp only [Program.bind, tracked, accepted.1, accepted.2]
    exact fun _ => trivial

theorem processMessage_avoids (accepted : answers.Accepted) {message : GglObject} :
    (processMessage answers message).Avoids forbidden := by
  unfold processMessage
  split
  · exact enqueueJob_avoids accepted
  · trivial

theorem describeNextJob_avoids (accepted : answers.Accepted) {jobDescription : GglObject}
    (allowed : ¬forbidden .awaitsResponse) :
    (describeNextJob answers jobDescription).Avoids forbidden := by
  apply Avoids.holding
  apply avoids_read
  intro listener
  cases listener.describeNextJobCall with
  | error error => trivial
  | ok call => exact (gglAwsIotCall_avoids allowed).bind fun _ => processMessage_avoids accepted

theorem updateCurrentJobsDeployment_avoids (allowed : ¬forbidden .awaitsResponse) :
    (updateCurrentJobsDeployment deploymentId jobStatus).Avoids forbidden := by
  apply avoids_read
  intro listener
  cases listener.currentJobOf deploymentId with
  | error error => trivial
  | ok jobId => exact updateJob_avoids allowed

theorem handleDeployment_avoids {succeeded : Bool} (allowed : ¬forbidden .awaitsResponse)
    (handled : ¬forbidden .deployment) :
    (handleDeployment deploymentId succeeded).Avoids forbidden := by
  apply Avoids.bind
  · exact .holding trivial
  · intro _
    apply Avoids.during handled
    apply (updateCurrentJobsDeployment_avoids allowed).bind
    intro _
    exact updateCurrentJobsDeployment_avoids allowed

end Calls

end JobsProgram

/-! ## Runs -/

section Runs

variable {allowed : EnqueueAnswers → Prop}
  {thread : JobsThread} {program : JobsProgram Unit}

theorem JobsStarts.balanced (starts : JobsStarts allowed thread program)
    (accepted : ∀ answers, allowed answers → answers.Accepted) (seen : JobsListener) :
    program.Balanced jobsProtection jobsConduct [] [] seen := by
  cases starts with
  | describe isAllowed => exact JobsProgram.describeNextJob_balanced (accepted _ isAllowed)
  | notification isAllowed =>
    exact JobsProgram.processMessage_balanced (accepted _ isAllowed) not_mem_nil
  | deployment => exact JobsProgram.handleDeployment_balanced

/-- The calls that a thread does not make as long as every job is accepted at once. -/
def JobsThread.Spares (thread : JobsThread) (call : JobsCall) : Prop :=
  call = .retries ∨ thread = .subscription ∧ call = .awaitsResponse

theorem JobsStarts.avoids (starts : JobsStarts allowed thread program)
    (accepted : ∀ answers, allowed answers → answers.Accepted) : program.Avoids thread.Spares := by
  cases starts with
  | describe isAllowed =>
    exact JobsProgram.describeNextJob_avoids (accepted _ isAllowed) (by simp [JobsThread.Spares])
  | notification isAllowed => exact JobsProgram.processMessage_avoids (accepted _ isAllowed)
  | deployment =>
    apply JobsProgram.handleDeployment_avoids <;> simp [JobsThread.Spares]

/-- If every job is accepted at once, the threads progress. -/
theorem JobsThreads.Reachable.progresses {state : JobsThreads}
    (reachable : state.Reachable allowed)
    (accepted : ∀ answers, allowed answers → answers.Accepted) : state.Progresses := by
  rcases reachable with ⟨thingName, history, run⟩
  have orderly : state.Orderly jobsProtection fun _ => jobsConduct := by
    apply run.invariant (fun _ state => state.Orderly jobsProtection fun _ => jobsConduct)
    · exact Threads.orderly_of_idle fun _ => rfl
    · intro history state thread next orderly step
      exact orderly.step step (fun program seen starts => starts.balanced accepted seen) trivial
  have spared : ∀ thread, ∀ call ∈ (state.thread thread).calls, ¬thread.Spares call := by
    intro thread
    exact Threads.avoids_of_run run rfl fun program starts => starts.avoids accepted
  constructor
  · intro thread wants
    exact orderly.mayWant wants
  · intro waits
    exact spared _ _ waits (.inr ⟨rfl, rfl⟩)
  · intro thread retries
    exact absurd (.inl rfl) (spared _ _ retries)

/-! ## Answers that do not accept a job -/

/-- A notification of a queued job, without the rest of its document. -/
def queuedJob (jobId : Buffer) : GglObject :=
  .map [(gglStr "execution", .map [(gglStr "jobId", .buf jobId),
    (gglStr "status", .buf (gglStr "QUEUED")), (gglStr "jobDocument", .map [])])]

abbrev JobsTurn :=
  Turn JobsThread JobsLock JobsCall JobsListener

/-- The next operations of a thread, all of which succeed. -/
def jobsAdvances (thread : JobsThread) (count : Nat) : List JobsTurn :=
  (replicate count 0).map (.advance thread)

/-- The listener thread has asked for the next job, which is enqueued with these answers. -/
def describesTurns (answers : EnqueueAnswers) (count : Nat) : List JobsTurn :=
  .start .listener (JobsProgram.describeNextJob answers (queuedJob [1])) ::
    jobsAdvances .listener count

/-- The deployment thread has dequeued a deployment and is about to report it. -/
def dequeuesTurns (deploymentId : Buffer) : List JobsTurn :=
  .start .deployment (JobsProgram.handleDeployment deploymentId true) ::
    jobsAdvances .deployment 4

theorem describesTurns_begins {answers : EnqueueAnswers} (isAllowed : allowed answers)
    (count : Nat) : Turn.Begins (JobsStarts allowed) (describesTurns answers count) :=
  .start (.describe isAllowed _) (Turn.begins_advances _ _)

theorem dequeuesTurns_begins (deploymentId : Buffer) :
    Turn.Begins (JobsStarts allowed) (dequeuesTurns deploymentId) :=
  .start (.deployment _ _) (Turn.begins_advances _ _)

theorem exists_reachable {property : JobsThreads → Prop} [DecidablePred property]
    {turns : List JobsTurn} (begins : Turn.Begins (JobsStarts allowed) turns)
    (computed : ((JobsThreads.initial (.empty UInt8 maxThingNameLen)).schedule
      JobsLock.Reentrant (fun _ => True) turns).any (fun state => decide (property state))
        = true) :
    ∃ state, JobsThreads.Reachable allowed state ∧ property state := by
  rcases Threads.exists_run_of_schedule (fun _ => True) (fun step _ => step) begins computed with
    ⟨history, state, run, holds⟩
  exact ⟨state, ⟨_, history, run⟩, holds⟩

/-- A job that fails is reported while the listener thread holds the mutex. -/
theorem exists_relock {error : GglError} (isAllowed : allowed answers) (first : answers.busy = [])
    (failed : answers.ret = .error error) :
    ∃ state, JobsThreads.Reachable allowed state ∧
      (state.thread .listener).program.wants = some .topicScratch ∧
      .topicScratch ∈ (state.thread .listener).held := by
  apply exists_reachable (describesTurns_begins isAllowed 11)
  rcases answers with ⟨busy, ret, id, ready⟩
  cases first
  cases failed
  rfl

/-- A job that finds the queue full waits while the listener thread holds the mutex, which
the deployment thread needs. -/
theorem exists_blocked {id : Vec UInt8 currentIdSize} {ids : List (Vec UInt8 currentIdSize)}
    (isAllowed : allowed answers) (full : answers.busy = id :: ids) :
    ∃ state, JobsThreads.Reachable allowed state ∧ .retries ∈ (state.thread .listener).calls ∧
      .deployment ∈ (state.thread .deployment).calls ∧
      state.WaitsFor JobsLock.Reentrant .deployment .listener := by
  apply exists_reachable ((dequeuesTurns_begins []).append (describesTurns_begins isAllowed 12))
  rcases answers with ⟨busy, ret, id, ready⟩
  cases full
  rfl

end Runs

/-- The threads progress in every run exactly if the deployment queue accepts every job the
first time. -/
theorem jobsListener_progresses_iff (allowed : EnqueueAnswers → Prop) :
    (∀ state, JobsThreads.Reachable allowed state → state.Progresses) ↔
      ∀ answers, allowed answers → answers.Accepted := by
  constructor
  · intro progresses answers isAllowed
    have first : answers.busy = [] := by
      cases full : answers.busy with
      | nil => rfl
      | cons id ids =>
        rcases exists_blocked isAllowed full with ⟨state, reachable, retries, handles, waits⟩
        exact absurd (.inl waits) ((progresses state reachable).released _ retries handles)
    refine ⟨first, ?_⟩
    cases failed : answers.ret with
    | ok done => rfl
    | error error =>
      rcases exists_relock isAllowed first failed with ⟨state, reachable, wants, held⟩
      exact absurd held ((progresses state reachable).untaken _ wants)
  · intro accepted state reachable
    exact reachable.progresses accepted

section Examples

/-- The answers for a job that is accepted, and leads to the deployment with the id 2. -/
def acceptedAnswers : EnqueueAnswers :=
  ⟨[], .ok (), ⟨[2], by decide⟩, nofun⟩

/-- The answers for a job that cannot be enqueued. -/
def failedAnswers : EnqueueAnswers :=
  ⟨[], .error .failure, .empty UInt8 currentIdSize, nofun⟩

/-- The answers for a job that is enqueued at the second try. -/
def busyAnswers : EnqueueAnswers :=
  ⟨[⟨[3], by decide⟩], .ok (), ⟨[3], by decide⟩, nofun⟩

/-- A job is notified and enqueued with these answers. -/
def notifiesTurns (answers : EnqueueAnswers) (count : Nat) : List JobsTurn :=
  .start .subscription (JobsProgram.processMessage answers (queuedJob [1])) ::
    jobsAdvances .subscription count

theorem notifiesTurns_begins {allowed : EnqueueAnswers → Prop} {answers : EnqueueAnswers}
    (isAllowed : allowed answers) (count : Nat) :
    Turn.Begins (JobsStarts allowed) (notifiesTurns answers count) :=
  .start (.notification isAllowed _) (Turn.begins_advances _ _)

/-- A deployment is reported while the listener thread waits for the answer of the cloud. -/
theorem jobsListener_progresses_iff_accepted :
    ∃ state, JobsThreads.Reachable EnqueueAnswers.Accepted state ∧
      (.awaitsResponse ∈ (state.thread .listener).calls ∧
        state.WaitsFor JobsLock.Reentrant .deployment .listener) ∧
      state.Progresses := by
  have accepted : acceptedAnswers.Accepted := ⟨rfl, rfl⟩
  have found : ∃ state, JobsThreads.Reachable EnqueueAnswers.Accepted state ∧
      (.awaitsResponse ∈ (state.thread .listener).calls ∧
        state.WaitsFor JobsLock.Reentrant .deployment .listener) :=
    exists_reachable (((notifiesTurns_begins accepted 4).append (dequeuesTurns_begins [2])).append
      (describesTurns_begins accepted 5)) (by decide +kernel)
  rcases found with ⟨state, reachable, waiting⟩
  exact ⟨state, reachable, waiting,
    (jobsListener_progresses_iff EnqueueAnswers.Accepted).mpr (fun _ isAccepted => isAccepted)
      state reachable⟩

/-- If the queue may answer anything, the listener thread takes `topic_scratch_mutex` again, the
subscription thread waits for an answer that it should deliver, and each of the two waits for
room in the queue while the deployment thread waits for it. -/
theorem jobsListener_caught :
    (∃ state, JobsThreads.Reachable (fun _ => True) state ∧
      (state.thread .listener).program.wants = some .topicScratch ∧
      .topicScratch ∈ (state.thread .listener).held) ∧
    (∃ state, JobsThreads.Reachable (fun _ => True) state ∧
      .awaitsResponse ∈ (state.thread .subscription).calls) ∧
    (∃ state, JobsThreads.Reachable (fun _ => True) state ∧
      .retries ∈ (state.thread .listener).calls ∧
      .deployment ∈ (state.thread .deployment).calls ∧
      state.WaitsFor JobsLock.Reentrant .deployment .listener) ∧
    ∃ state, JobsThreads.Reachable (fun _ => True) state ∧
      .retries ∈ (state.thread .subscription).calls ∧
      .deployment ∈ (state.thread .deployment).calls ∧
      .awaitsResponse ∈ (state.thread .deployment).calls := by
  -- a job was accepted and its deployment is about to be reported
  have reports : Turn.Begins (JobsStarts fun _ => True)
      (notifiesTurns acceptedAnswers 4 ++ dequeuesTurns [2]) :=
    (notifiesTurns_begins trivial 4).append (dequeuesTurns_begins [2])
  refine ⟨?_, ?_, ?_, ?_⟩
  · exact exists_reachable (@describesTurns_begins _ failedAnswers trivial 11)
      (by decide +kernel)
  · exact exists_reachable (@notifiesTurns_begins _ failedAnswers trivial 9)
      (by decide +kernel)
  · exact exists_reachable (reports.append (@describesTurns_begins _ busyAnswers trivial 12))
      (by decide +kernel)
  · have sends := reports.append (Turn.begins_advances .deployment (.replicate 5 0))
    exact exists_reachable (sends.append (@notifiesTurns_begins _ busyAnswers trivial 5))
      (by decide +kernel)

end Examples

end GreengrassLite

import GreengrassLite.Deployment.Redelivery

/-!
# The deployment of the tracked job

`enqueue_job` empties `current_deployment_id` once and hands it to every try of
`ggl_deployment_enqueue`, which appends the id of the deployment even when the queue is
busy.  After a busy try the id of the deployment therefore stands there more than once, and
`update_current_jobs_deployment` does not find the job of the deployment.
-/

namespace GreengrassLite

open List

/-- The loop of `enqueue_job` that ends with a deployment in the queue: the number of busy
tries before that, and the id under which the deployment was placed. -/
inductive EnqueueTries (doc : GglMap) : Nat → Buffer → DeploymentQueue →
    Vec UInt8 currentIdSize → Vec UInt8 currentIdSize → DeploymentQueue → Prop
  | accepted {queue next id longer uuid}
      {deployment : GglDeployment} (random : RandomId queue uuid)
      (parses : parseDeploymentObj uuid doc = .ok deployment)
      (enqueued : gglDeploymentEnqueue queue uuid doc (some id) = ⟨.ok (), some longer, next⟩) :
      EnqueueTries doc 0 deployment.deploymentId queue id longer next
  | busy {n placed queue next later last id longer final uuid} (random : RandomId queue uuid)
      (enqueued : gglDeploymentEnqueue queue uuid doc (some id) =
        ⟨.error .busy, some longer, next⟩)
      (retried : EnqueueTries doc n placed later longer final last) :
      EnqueueTries doc (n + 1) placed queue id final last

section

variable {doc : GglMap} {queue next last : DeploymentQueue} {uuid : Buffer}
  {id longer final : Vec UInt8 currentIdSize} {ret : Except GglError Unit}

/-- Every try that reaches the queue appends the id. -/
theorem enqueue_appends
    (enqueued : gglDeploymentEnqueue queue uuid doc (some id) = ⟨ret, some longer, next⟩)
    (reached : ret = .ok () ∨ ret = .error .busy) :
    ∃ deployment, parseDeploymentObj uuid doc = .ok deployment ∧
      longer.items = id.items ++ deployment.deploymentId := by
  rw [gglDeploymentEnqueue, gglDeploymentEnqueueBy] at enqueued
  split at enqueued
  next error parses =>
    rw [parseDeploymentObj] at parses
    cases enqueued
    split at parses
    next => split at parses <;> cases parses
    next =>
      cases parses
      simp at reached
  next deployment parses =>
    refine ⟨deployment, parses, ?_⟩
    cases appended : gglByteVecAppend id deployment.deploymentId with
    | error error =>
      simp only [appendId, appended] at enqueued
      cases enqueued
      rw [gglByteVecAppend, Vec.append] at appended
      split at appended
      next =>
        cases appended
        simp at reached
      next => cases appended
    | ok result =>
      simp only [appendId, appended] at enqueued
      cases enqueued
      exact (Vec.append_eq_ok_iff id longer deployment.deploymentId).mp appended

/-- The ids of two tries have the same length. -/
theorem deploymentId_length_eq {other : Buffer} {deployment again : GglDeployment}
    (length : uuid.length = other.length) (parses : parseDeploymentObj uuid doc = .ok deployment)
    (parsesAgain : parseDeploymentObj other doc = .ok again) :
    deployment.deploymentId.length = again.deploymentId.length := by
  rcases parseDeploymentObj_eq_ok parses with ⟨-, same⟩ | ⟨-, renamed⟩
  · cases (same other).symm.trans parsesAgain
    rfl
  · cases (renamed other).symm.trans parsesAgain
    have own := Except.ok.inj (parses.symm.trans (renamed uuid))
    rw [own]
    exact length

/-- The vector grows by the length of the id with every try. -/
theorem EnqueueTries.length {n : Nat} {placed : Buffer}
    (tries : EnqueueTries doc n placed queue id final last) :
    final.items.length = id.items.length + (n + 1) * placed.length ∧
      ∃ uuid deployment, uuid.length = 36 ∧ parseDeploymentObj uuid doc = .ok deployment ∧
        deployment.deploymentId = placed := by
  induction tries with
  | accepted random parses enqueued =>
    rcases enqueue_appends enqueued (.inl rfl) with ⟨_, again, items⟩
    cases parses.symm.trans again
    refine ⟨?_, _, _, random.1, parses, rfl⟩
    simp [items]
  | busy random enqueued retried ih =>
    rcases enqueue_appends enqueued (.inr rfl) with ⟨_, parses, items⟩
    rcases ih with ⟨length, uuid, deployment, own, parsed, rfl⟩
    refine ⟨?_, uuid, deployment, own, parsed, rfl⟩
    rw [length, items, length_append,
      deploymentId_length_eq (random.1.trans own.symm) parses parsed]
    rw [Nat.succ_mul (_ + 1)]
    omega

/-- The tries of `enqueue_job` that succeed, counted. -/
theorem enqueueRetries_ok_iff :
    EnqueueRetries doc queue id (.ok ()) final last ↔
      ∃ n placed, EnqueueTries doc n placed queue id final last := by
  constructor
  · intro tries
    generalize ended : Except.ok () = ret at tries
    induction tries with
    | done random enqueued ready =>
      cases ended
      rcases enqueue_appends enqueued (.inl rfl) with ⟨_, parses, -⟩
      exact ⟨0, _, .accepted random parses enqueued⟩
    | busy random enqueued retried ih =>
      rcases ih ended with ⟨n, placed, tries⟩
      exact ⟨n + 1, placed, .busy random enqueued tries⟩
  · rintro ⟨n, placed, tries⟩
    induction tries with
    | accepted random parses enqueued => exact .done random enqueued nofun
    | busy random enqueued retried ih => exact .busy random enqueued ih

/-- Once `enqueue_job` has returned, the job is found for its deployment exactly if the queue
was never busy, or the document names an empty id. -/
theorem currentJobOf_placed_iff {listener tracked : JobsListener} {jobId placed : Buffer} {n : Nat}
    (tracks : listener.trackJob jobId = (.ok (), tracked))
    (tries : EnqueueTries doc n placed queue tracked.currentDeploymentId final last) :
    (final.items = placed ∧
      { tracked with currentDeploymentId := final }.currentJobOf placed = .ok jobId) ↔
      n = 0 ∨ placed = [] := by
  have job : tracked.currentJobId.items = jobId ∧
      tracked.currentDeploymentId = .empty UInt8 currentIdSize := by
    rw [JobsListener.trackJob] at tracks
    split at tracks
    next => cases tracks
    next appended =>
      cases tracks
      exact ⟨(Vec.append_eq_ok_iff _ _ _).mp appended, rfl⟩
  have found : { tracked with currentDeploymentId := final }.currentJobOf placed = .ok jobId ↔
      placed = final.items := by
    rw [JobsListener.currentJobOf, job.1]
    simp
  rw [found, @eq_comm _ final.items, and_self]
  rw [job.2] at tries
  have length := tries.length.1
  rw [Vec.empty_items, length_nil, Nat.zero_add] at length
  constructor
  · intro same
    rw [← same, Nat.succ_mul, Nat.right_eq_add, Nat.mul_eq_zero] at length
    exact length.imp_right eq_nil_of_length_eq_zero
  · rintro (rfl | rfl)
    · cases tries with
      | accepted random parses enqueued =>
        rcases enqueue_appends enqueued (.inl rfl) with ⟨_, again, items⟩
        cases parses.symm.trans again
        exact items.symm
    · exact (eq_nil_of_length_eq_zero length).symm

end

theorem currentJobOf_placed_iff_once :
    ∃ final last, EnqueueTries namedDoc 0 [7] .empty (.empty UInt8 currentIdSize) final last ∧
      final.items = [7] := by
  have random : RandomId .empty (replicate 36 48) := ⟨rfl, by decide⟩
  have tries : EnqueueTries namedDoc 0 namedDeployment.deploymentId .empty
      (.empty UInt8 currentIdSize) _ _ := .accepted random rfl rfl
  have tracks := namedListener.trackJob_of_fits namedDoc_enqueued.jobFits
  exact ⟨_, _, tries, ((currentJobOf_placed_iff tracks tries).mpr (.inl rfl)).1⟩

/-- A queue without room. -/
def fullQueue : DeploymentQueue where
  slots := fun index => { deploymentId := [UInt8.ofNat (10 + index.val)] }
  start := DeploymentQueue.empty.start
  count := 10
  bounded := Nat.le_refl 10

/-- The queue is full at the first try and empty at the second: the deployment is placed, and
its job is not found. -/
theorem busy_queue_loses_job :
    ∃ final last, EnqueueTries namedDoc 1 [7] fullQueue (.empty UInt8 currentIdSize) final last ∧
      { namedListener with currentDeploymentId := final }.currentJobOf [7] = .error .noentry := by
  have busy : RandomId fullQueue (replicate 36 48) := ⟨rfl, by decide⟩
  have random : RandomId .empty (replicate 36 48) := ⟨rfl, by decide⟩
  have tries : EnqueueTries namedDoc 1 namedDeployment.deploymentId fullQueue
      (.empty UInt8 currentIdSize) _ _ := .busy busy rfl (.accepted random rfl rfl)
  exact ⟨_, _, tries, rfl⟩

end GreengrassLite

import GreengrassLite.Deployment.Fifo

/-!
# Deployments that are refused

`ggl_deployment_enqueue` notes the id of a deployment and counts a new one before it knows
that there is a place for it and that it can be copied.  The copy goes into the memory of
the slot, which the entry of a deployment that is replaced still points into.  A document
that is refused for what it is leaves no trace; one that is refused later may.
-/

namespace GreengrassLite

open Library

/-- What the entry of a slot reads after a copy of `new` into the memory of the slot has
failed: its state, which is not in that memory, and whatever the copy has made of the rest. -/
def DeploymentQueue.overwrite (reread : GglDeployment → GglDeployment → GglDeployment)
    (queue : DeploymentQueue) (index : Fin deploymentQueueSize) (new : GglDeployment) :
    DeploymentQueue :=
  queue.setSlot index
    { reread (queue.slots index) new with state := (queue.slots index).state }

/-- The end of `ggl_deployment_enqueue`, with the memory of the slots. -/
def fillSlotMemory (reread : GglDeployment → GglDeployment → GglDeployment) : Filler :=
  fun queue index new =>
    match deepCopyDeployment new with
    | .error error => (.error error, queue.overwrite reread index new)
    | .ok _ => (.ok (), queue.setSlot index new)

variable {reread : GglDeployment → GglDeployment → GglDeployment} {queue : DeploymentQueue}
  {new : GglDeployment}

theorem appendId_eq_iff {idSize : Nat} {id longer : Option (Vec UInt8 idSize)}
    {deploymentId : Buffer} (appended : appendId id deploymentId = .ok longer) :
    longer = id ↔ id = none ∨ deploymentId = [] := by
  cases id with
  | none =>
    cases appended
    simp
  | some vector =>
    rw [appendId] at appended
    split at appended
    next => cases appended
    next result ok =>
      cases appended
      have items := (Vec.append_eq_ok_iff vector result deploymentId).mp ok
      simp [Vec.ext_iff, items]

namespace DeploymentQueue

theorem placeBy_of_not_hasPlace {fill : Filler} (noPlace : ¬queue.HasPlace new.deploymentId) :
    ∃ error, queue.placeBy fill new = (.error error, queue) := by
  rw [HasPlace] at noPlace
  rw [placeBy]
  split at noPlace
  · exact ⟨_, if_pos noPlace⟩
  · exact ⟨_, dif_neg noPlace⟩

theorem placeBy_of_copied {left : BumpAlloc} (copied : deepCopyDeployment new = .ok left)
    (place : queue.HasPlace new.deploymentId) :
    (queue.placeBy (fillSlotMemory reread) new).1 = .ok () := by
  rw [HasPlace] at place
  rw [placeBy]
  split at place <;> simp [place, fillSlotMemory, copied]

/-- A new deployment that cannot be copied is counted. -/
theorem placeBy_of_counted {error : GglError} (failed : deepCopyDeployment new = .error error)
    (isNew : queue.getMatchingDeployment new.deploymentId = none)
    (room : queue.count < deploymentQueueSize) :
    (queue.placeBy (fillSlotMemory reread) new).1 = .error error ∧
      (queue.placeBy (fillSlotMemory reread) new).2.contents ≠ queue.contents := by
  rw [placeBy, isNew]
  simp only [dif_pos room, fillSlotMemory, failed, true_and]
  intro same
  have longer := congrArg List.length same
  rw [Ring.length_contents, Ring.length_contents] at longer
  exact Nat.succ_ne_self _ longer

/-- One that cannot be copied over the deployment with its id has overwritten it. -/
theorem placeBy_of_overwritten {error : GglError} {index : Fin deploymentQueueSize}
    (failed : deepCopyDeployment new = .error error)
    (found : queue.getMatchingDeployment new.deploymentId = some index)
    (isQueued : (queue.slots index).state = .queued) :
    queue.placeBy (fillSlotMemory reread) new =
      (.error error, queue.overwrite reread index new) := by
  simp [placeBy, found, isQueued, fillSlotMemory, failed]

/-- The deployment that is overwritten may read as something else. -/
theorem exists_overwritten {index : Fin deploymentQueueSize}
    (found : queue.getMatchingDeployment new.deploymentId = some index) :
    ∃ reread, (queue.overwrite reread index new).contents ≠ queue.contents := by
  refine ⟨fun old _ => { old with deploymentId := 0 :: old.deploymentId }, ?_⟩
  rcases getMatchingDeployment_eq_some found with ⟨i, counted, rfl, -⟩
  intro same
  have entry := queue.getElem?_contents counted
  rw [← same, overwrite, queue.contents_setSlot counted,
    List.getElem?_set_self (by rwa [queue.length_contents])] at entry
  exact List.cons_ne_self _ _ (congrArg GglDeployment.deploymentId (Option.some.inj entry))

end DeploymentQueue

section

variable {idSize : Nat} (queue : DeploymentQueue) (uuid : Buffer) (doc : GglMap)
  (id : Option (Vec UInt8 idSize))

/-- If `ggl_deployment_enqueue` fails, the deployments of the queue and the id vector are what
they were. -/
def KeptOnError (reread : GglDeployment → GglDeployment → GglDeployment) : Prop :=
  let enqueued := gglDeploymentEnqueueBy (fillSlotMemory reread) queue uuid doc id
  ∀ error, enqueued.ret = .error error →
    enqueued.queue.contents = queue.contents ∧ enqueued.id = id

/-- Unless the document is refused for what it is, the deployment can be copied where there is
a place for it, and shows no id in the vector where there is none. -/
def RefusedInTime : Prop :=
  ∀ parsed longer, parseDeploymentObj uuid doc = .ok parsed →
    appendId id parsed.deploymentId = .ok longer →
    (queue.HasPlace parsed.deploymentId →
      ∃ left, deepCopyDeployment { parsed with state := .queued } = .ok left) ∧
    (¬queue.HasPlace parsed.deploymentId → id = none ∨ parsed.deploymentId = [])

/-- The deployment has the id of one in the queue, and the id is not noted. -/
def ReplacesUnnoted : Prop :=
  ∃ parsed index, parseDeploymentObj uuid doc = .ok parsed ∧
    queue.getMatchingDeployment parsed.deploymentId = some index ∧
    (id = none ∨ parsed.deploymentId = [])

end

section

variable {uuid : Buffer} {doc : GglMap} {idSize : Nat} {id : Option (Vec UInt8 idSize)}

theorem RefusedInTime.kept (condition : RefusedInTime queue uuid doc id) :
    KeptOnError queue uuid doc id reread := by
  intro error
  rw [gglDeploymentEnqueueBy]
  cases parses : parseDeploymentObj uuid doc with
  | error error => simp
  | ok parsed =>
    dsimp only
    cases appended : appendId id parsed.deploymentId with
    | error error => simp
    | ok longer =>
      obtain ⟨copies, unnoted⟩ := condition parsed longer parses appended
      intro refused
      by_cases place : queue.HasPlace parsed.deploymentId
      · obtain ⟨left, copied⟩ := copies place
        cases refused.symm.trans (DeploymentQueue.placeBy_of_copied copied place)
      · obtain ⟨error, unchanged⟩ := @DeploymentQueue.placeBy_of_not_hasPlace queue
          { parsed with state := .queued } (fillSlotMemory reread) place
        rw [unchanged]
        exact ⟨rfl, (appendId_eq_iff appended).mpr (unnoted place)⟩

/-- What a failed copy leaves matters only for a deployment that is replaced. -/
theorem KeptOnError.refusedInTime (kept : KeptOnError queue uuid doc id reread) :
    RefusedInTime queue uuid doc id ∨ ReplacesUnnoted queue uuid doc id := by
  refine or_iff_not_imp_right.mpr ?_
  intro notReplaced parsed longer parses appended
  simp only [KeptOnError, gglDeploymentEnqueueBy, parses, appended] at kept
  have unnoted : ∀ error,
      (queue.placeBy (fillSlotMemory reread) { parsed with state := .queued }).1 =
        .error error → id = none ∨ parsed.deploymentId = [] :=
    fun error refused => (appendId_eq_iff appended).mp (kept error refused).2
  constructor
  · intro place
    cases copied : deepCopyDeployment { parsed with state := .queued } with
    | ok left => exact ⟨left, rfl⟩
    | error error =>
      rw [DeploymentQueue.HasPlace] at place
      cases found : queue.getMatchingDeployment parsed.deploymentId with
      | none =>
        rw [found] at place
        obtain ⟨refused, changed⟩ :=
          DeploymentQueue.placeBy_of_counted copied found place
        exact absurd (kept error refused).1 changed
      | some index =>
        rw [found] at place
        refine absurd ⟨parsed, index, parses, found, unnoted error ?_⟩ notReplaced
        rw [DeploymentQueue.placeBy_of_overwritten copied found place]
  · intro noPlace
    obtain ⟨error, refused⟩ := @DeploymentQueue.placeBy_of_not_hasPlace queue
      { parsed with state := .queued } (fillSlotMemory reread) noPlace
    exact unnoted error (congrArg Prod.fst refused)

end

/-- A call that fails changes nothing, whatever a failed copy leaves of what it overwrites,
exactly if the deployment is refused in time.  What the copy leaves makes a difference at most
for a deployment that is replaced by a call that notes no id. -/
theorem gglDeploymentEnqueue_atomic_iff {idSize : Nat} (queue : DeploymentQueue) (uuid : Buffer)
    (doc : GglMap) (id : Option (Vec UInt8 idSize)) :
    ((∀ reread, KeptOnError queue uuid doc id reread) ↔ RefusedInTime queue uuid doc id) ∧
      ∀ reread, KeptOnError queue uuid doc id reread →
        RefusedInTime queue uuid doc id ∨ ReplacesUnnoted queue uuid doc id := by
  refine ⟨⟨?_, fun condition reread => condition.kept⟩, fun reread kept => kept.refusedInTime⟩
  intro kept
  rcases (kept fun old _ => old).refusedInTime with
    condition | ⟨parsed, index, parses, found, unnoted⟩
  · exact condition
  · intro same longer parsesSame appended
    cases parses.symm.trans parsesSame
    refine ⟨?_, fun _ => unnoted⟩
    intro place
    cases copied : deepCopyDeployment { parsed with state := .queued } with
    | ok left => exact ⟨left, rfl⟩
    | error error =>
      rw [DeploymentQueue.HasPlace, found] at place
      obtain ⟨reread, changed⟩ := @DeploymentQueue.exists_overwritten queue
        { parsed with state := .queued } index found
      have unchanged := kept reread
      simp only [KeptOnError, gglDeploymentEnqueueBy, parses, appended,
        DeploymentQueue.placeBy_of_overwritten copied found place] at unchanged
      exact absurd (unchanged error rfl).1 changed

/-- A document with a path that is longer than the memory of a slot, given to an empty queue. -/
def enqueueLongPath : Enqueued 64 :=
  gglDeploymentEnqueueBy (fillSlotMemory fun old _ => old) .empty []
    [⟨gglStr "recipe_directory_path", .buf (List.replicate 5000 47)⟩,
      ⟨gglStr "deployment_id", .buf (gglStr "a")⟩]
    (some (.empty UInt8 64))

/-- It is refused, but its id is noted and a deployment without an id is queued. -/
theorem refused_deployment_counted :
    enqueueLongPath.ret = .error .nomem ∧
      enqueueLongPath.queue.contents.map GglDeployment.deploymentId = [[]] ∧
      enqueueLongPath.id.map Vec.items = some (gglStr "a") := by
  refine ⟨?_, ?_, ?_⟩ <;> decide +kernel

end GreengrassLite

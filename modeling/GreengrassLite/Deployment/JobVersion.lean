import GreengrassLite.Deployment.Jobs

/-!
# The version of a job in the cloud

The cloud keeps a version of each job and counts it up with every update it accepts.  It
accepts an update only when the version that the device expects is its own.  The device
counts its version up with every update it sends, whatever becomes of the update, and
starts at one whenever a job is delivered.

The two versions stay equal exactly as long as every update is accepted and a job is
delivered only before its first update, provided that no job is delivered while an
update is in flight.
-/

namespace GreengrassLite

/-- An update that waits for its answer. -/
structure JobUpdate where
  jobId : Buffer
  expectedVersion : Int

/-- The device and the versions that the cloud has of the jobs. -/
structure JobsWorld where
  listener : JobsListener
  versions : Buffer → Int
  inFlight : Option JobUpdate

inductive CallOutcome where
  | accepted
  | rejected
  | timedOut
  deriving DecidableEq

inductive JobsEvent where
  /-- `enqueue_job` begins to track a job. -/
  | deliver (jobId : Buffer)
  /-- The deployment queue has noted the id of the deployment. -/
  | enqueue (deploymentId : Vec UInt8 currentIdSize)
  /-- `enqueue_job` reports the job that could not be enqueued. -/
  | fail (jobId : Buffer)
  /-- `update_current_jobs_deployment` reports the tracked job. -/
  | report (deploymentId jobStatus : Buffer)
  /-- The call of `update_job` returns. -/
  | answer (outcome : CallOutcome)

namespace JobsWorld

def initial (thingName : Vec UInt8 maxThingNameLen) : JobsWorld :=
  ⟨.initial thingName, fun _ => 1, none⟩

/-- What the cloud makes of an update. -/
def versionsAfter (versions : Buffer → Int) (update : JobUpdate) (outcome : CallOutcome) :
    Buffer → Int :=
  if outcome = .accepted ∧ versions update.jobId = update.expectedVersion then
    Function.update versions update.jobId (update.expectedVersion + 1)
  else versions

variable (world : JobsWorld)

/-- `update_job` sends its update.  There is one in flight at most, as `topic_scratch_mutex`
is held until the call returns. -/
def send (jobId jobStatus : Buffer) : JobsWorld :=
  match world.inFlight, world.listener.updateJobCall jobId jobStatus with
  | none, .ok _ => { world with inFlight := some ⟨jobId, world.listener.currentJobVersion⟩ }
  | _, _ => world

/-- The world after an event. -/
def apply : JobsEvent → JobsWorld
  | .deliver jobId => { world with listener := (world.listener.trackJob jobId).2 }
  | .enqueue deploymentId =>
    { world with listener := { world.listener with currentDeploymentId := deploymentId } }
  | .fail jobId => world.send jobId (gglStr "FAILURE")
  | .report deploymentId jobStatus =>
    match world.listener.currentJobOf deploymentId with
    | .error _ => world
    | .ok jobId => world.send jobId jobStatus
  | .answer outcome =>
    match world.inFlight with
    | none => world
    | some update =>
      ⟨world.listener.jobUpdated, versionsAfter world.versions update outcome, none⟩

/-- The world after a history, whose latest event comes first. -/
def after (thingName : Vec UInt8 maxThingNameLen) : List JobsEvent → JobsWorld
  | [] => .initial thingName
  | event :: earlier => (after thingName earlier).apply event

/-- When a job is tracked and no update is in flight, the device has the version of the
cloud; an update in flight expects it. -/
structure Agrees : Prop where
  quiet : world.listener.currentJobId.items ≠ [] → world.inFlight = none →
    world.listener.currentJobVersion = world.versions world.listener.currentJobId.items
  expected : world.listener.currentJobId.items ≠ [] → ∀ update, world.inFlight = some update →
    update.expectedVersion = world.versions update.jobId

/-- No job is delivered while an update is in flight, nor between the delivery of another job
and the report that this one failed. -/
def Sequential : JobsEvent → Prop
  | .deliver _ => world.inFlight = none
  | .enqueue _ => True
  | .fail jobId => jobId = world.listener.currentJobId.items
  | .report _ _ => True
  | .answer _ => True

/-- A job is delivered before its first update, and an update is accepted. -/
def Harmless : JobsEvent → Prop
  | .deliver jobId =>
    (world.listener.trackJob jobId).2.currentJobId.items ≠ [] →
      world.versions (world.listener.trackJob jobId).2.currentJobId.items = 1
  | .enqueue _ => True
  | .fail _ => True
  | .report _ _ => True
  | .answer outcome =>
    world.listener.currentJobId.items ≠ [] → world.inFlight ≠ none → outcome = .accepted

/-- An update in flight is that of the tracked job, with its version. -/
def Coherent : Prop :=
  ∀ update, world.inFlight = some update →
    update = ⟨world.listener.currentJobId.items, world.listener.currentJobVersion⟩

variable {world : JobsWorld} {event : JobsEvent}

@[simp]
theorem trackJob_version (listener : JobsListener) (jobId : Buffer) :
    (listener.trackJob jobId).2.currentJobVersion = 1 := by
  rw [JobsListener.trackJob]
  split <;> rfl

/-- A report leaves the world as it is, or sends an update of the tracked job. -/
theorem send_eq (world : JobsWorld) (jobId jobStatus : Buffer) :
    world.send jobId jobStatus = world ∨ world.inFlight = none ∧
      world.send jobId jobStatus =
        { world with inFlight := some ⟨jobId, world.listener.currentJobVersion⟩ } := by
  rw [send]
  split
  case h_1 quiet call => exact .inr ⟨quiet, rfl⟩
  case h_2 => exact .inl rfl

@[inherit_doc send_eq]
theorem apply_report (world : JobsWorld) (deploymentId jobStatus : Buffer) :
    world.apply (.report deploymentId jobStatus) = world ∨
      world.apply (.report deploymentId jobStatus) =
        world.send world.listener.currentJobId.items jobStatus := by
  rw [apply, JobsListener.currentJobOf]
  by_cases other : deploymentId ≠ world.listener.currentDeploymentId.items
  · rw [if_pos other]
    exact .inl rfl
  · rw [if_neg other]
    exact .inr rfl

theorem Coherent.send (coherent : world.Coherent) (jobStatus : Buffer) :
    (world.send world.listener.currentJobId.items jobStatus).Coherent := by
  rcases send_eq world world.listener.currentJobId.items jobStatus with same | ⟨_, sent⟩
  · rw [same]
    exact coherent
  · rw [sent]
    rintro update ⟨⟩
    rfl

theorem Agrees.send (agrees : world.Agrees) (jobStatus : Buffer) :
    (world.send world.listener.currentJobId.items jobStatus).Agrees := by
  rcases send_eq world world.listener.currentJobId.items jobStatus with same | ⟨quiet, sent⟩
  · rw [same]
    exact agrees
  · rw [sent]
    constructor
    · intro _ absurdity
      cases absurdity
    · rintro tracked update ⟨⟩
      exact agrees.quiet tracked quiet

theorem Coherent.apply (coherent : world.Coherent) (sequential : world.Sequential event) :
    (world.apply event).Coherent := by
  cases event with
  | deliver jobId =>
    intro update inFlight
    cases (sequential : world.inFlight = none).symm.trans inFlight
  | enqueue deploymentId => exact coherent
  | fail jobId =>
    cases sequential
    exact coherent.send _
  | report deploymentId jobStatus =>
    rcases apply_report world deploymentId jobStatus with same | sent
    · rw [same]
      exact coherent
    · rw [sent]
      exact coherent.send jobStatus
  | answer outcome =>
    rw [JobsWorld.apply]
    split
    case h_1 => exact coherent
    case h_2 => nofun

/-- The cloud counts the version of a job up exactly when it accepts an update that expects
it. -/
theorem versionsAfter_eq_iff {versions : Buffer → Int} {update : JobUpdate}
    (expected : versions update.jobId = update.expectedVersion) (outcome : CallOutcome) :
    versionsAfter versions update outcome update.jobId = update.expectedVersion + 1 ↔
      outcome = .accepted := by
  rw [versionsAfter]
  by_cases accepted : outcome = .accepted
  · rw [if_pos ⟨accepted, expected⟩, Function.update_self]
    exact iff_of_true rfl accepted
  · rw [if_neg fun both => accepted both.1]
    exact iff_of_false (by omega) accepted

/-- After one more event the versions agree exactly when the event was harmless. -/
theorem agrees_apply_iff (coherent : world.Coherent) (agrees : world.Agrees)
    (sequential : world.Sequential event) :
    (world.apply event).Agrees ↔ world.Harmless event := by
  cases event with
  | deliver jobId =>
    have quiet : world.inFlight = none := sequential
    constructor
    · intro later tracked
      exact (later.quiet tracked quiet).symm.trans (trackJob_version world.listener jobId)
    · intro harmless
      constructor
      · intro tracked _
        exact (trackJob_version world.listener jobId).trans (harmless tracked).symm
      · intro _ update inFlight
        cases quiet.symm.trans inFlight
  | enqueue deploymentId => exact iff_of_true ⟨agrees.quiet, agrees.expected⟩ trivial
  | fail jobId =>
    cases sequential
    exact iff_of_true (agrees.send _) trivial
  | report deploymentId jobStatus =>
    refine iff_of_true ?_ trivial
    rcases apply_report world deploymentId jobStatus with same | sent
    · rw [same]
      exact agrees
    · rw [sent]
      exact agrees.send jobStatus
  | answer outcome =>
    cases inFlight : world.inFlight with
    | none =>
      have same : world.apply (.answer outcome) = world := by
        rw [apply, inFlight]
      rw [same]
      exact iff_of_true agrees fun _ some => absurd inFlight some
    | some update =>
      have returned : world.apply (.answer outcome) =
          ⟨world.listener.jobUpdated, versionsAfter world.versions update outcome, none⟩ := by
        rw [apply, inFlight]
      have counted := fun tracked =>
        versionsAfter_eq_iff (agrees.expected tracked update inFlight).symm outcome
      cases coherent update inFlight
      rw [returned]
      constructor
      · intro later tracked _
        exact (counted tracked).mp (later.quiet tracked rfl).symm
      · intro harmless
        constructor
        · intro tracked _
          have sent : world.inFlight ≠ none := fun none => absurd (none.symm.trans inFlight) nofun
          exact ((counted tracked).mpr (harmless tracked sent)).symm
        · nofun

/-! ## Histories -/

variable {thingName : Vec UInt8 maxThingNameLen} {history : List JobsEvent}

theorem coherent_after
    (sequential : ∀ event earlier, event :: earlier <:+ history →
      (after thingName earlier).Sequential event) :
    (after thingName history).Coherent := by
  induction history with
  | nil => nofun
  | cons event earlier ih =>
    apply Coherent.apply
    · apply ih
      intro other before suffix
      exact sequential other before (suffix.trans (List.suffix_cons event earlier))
    · exact sequential event earlier List.suffix_rfl

end JobsWorld

open JobsWorld List

/-- As long as jobs are delivered and updated one after the other, the versions of the device
and of the cloud agree throughout exactly when every update of a job is accepted and every
job is delivered before its first update. -/
theorem jobVersion_agrees_iff {thingName : Vec UInt8 maxThingNameLen} {history : List JobsEvent}
    (sequential : ∀ event earlier, event :: earlier <:+ history →
      (after thingName earlier).Sequential event) :
    (∀ earlier, earlier <:+ history → (after thingName earlier).Agrees) ↔
      ∀ event earlier, event :: earlier <:+ history → (after thingName earlier).Harmless event := by
  induction history with
  | nil =>
    constructor
    · intro _ event earlier suffix
      cases suffix_nil.mp suffix
    · intro _ earlier suffix
      cases suffix_nil.mp suffix
      exact ⟨fun tracked => absurd rfl tracked, fun tracked => absurd rfl tracked⟩
  | cons event rest ih =>
    have before : ∀ other earlier, other :: earlier <:+ rest →
        (after thingName earlier).Sequential other := fun other earlier suffix =>
      sequential other earlier (suffix.trans (suffix_cons event rest))
    have step := fun agrees => agrees_apply_iff (coherent_after before) agrees
      (sequential event rest suffix_rfl)
    constructor
    · intro agrees
      have earlierAgrees : ∀ earlier, earlier <:+ rest → (after thingName earlier).Agrees :=
        fun earlier suffix => agrees earlier (suffix.trans (suffix_cons event rest))
      intro other earlier suffix
      rcases suffix_cons_iff.mp suffix with same | inside
      · cases same
        exact (step (earlierAgrees rest suffix_rfl)).mp
          (agrees (event :: rest) suffix_rfl)
      · exact (ih before).mp earlierAgrees other earlier inside
    · intro harmless
      have earlierAgrees := (ih before).mpr fun other earlier suffix =>
        harmless other earlier (suffix.trans (suffix_cons event rest))
      intro earlier suffix
      rcases suffix_cons_iff.mp suffix with rfl | inside
      · exact (step (earlierAgrees rest suffix_rfl)).mpr
          (harmless event rest suffix_rfl)
      · exact earlierAgrees earlier inside

/-- A job is delivered, and its deployment with the id 2 is reported as in progress. -/
def firstReport : List JobsEvent :=
  [.report [2] (gglStr "IN_PROGRESS"), .enqueue ⟨[2], Nat.le_of_ble_eq_true rfl⟩, .deliver [1]]

/-- The first update of a job is accepted, and the next update expects the version of the
cloud. -/
theorem jobVersion_agrees_iff_accepted :
    (after (.empty UInt8 maxThingNameLen)
      (.report [2] (gglStr "SUCCEEDED") :: .answer .accepted :: firstReport)).Agrees := by
  refine (jobVersion_agrees_iff ?_).mpr ?_ _ suffix_rfl
  · intro event earlier suffix
    simp only [firstReport, suffix_cons_iff, suffix_nil, reduceCtorEq, or_false,
      cons.injEq] at suffix
    rcases suffix with ⟨rfl, rfl⟩ | ⟨rfl, rfl⟩ | ⟨rfl, rfl⟩ | ⟨rfl, rfl⟩ | ⟨rfl, rfl⟩
    · trivial
    · trivial
    · trivial
    · trivial
    · rfl
  · intro event earlier suffix
    simp only [firstReport, suffix_cons_iff, suffix_nil, reduceCtorEq, or_false,
      cons.injEq] at suffix
    rcases suffix with ⟨rfl, rfl⟩ | ⟨rfl, rfl⟩ | ⟨rfl, rfl⟩ | ⟨rfl, rfl⟩ | ⟨rfl, rfl⟩
    · trivial
    · exact fun _ _ => rfl
    · trivial
    · trivial
    · exact fun _ => rfl

/-- The first update of a job is rejected: the device expects the second version, and the
cloud has the first. -/
theorem rejected_update_disagrees :
    ¬(after (.empty UInt8 maxThingNameLen) (.answer .rejected :: firstReport)).Agrees := by
  intro agrees
  have equal : (2 : Int) = 1 := agrees.quiet (cons_ne_nil _ _) rfl
  cases equal

end GreengrassLite

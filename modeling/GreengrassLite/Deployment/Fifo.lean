import GreengrassLite.Deployment.Queue
import Mathlib.Data.List.Nodup

/-!
# The deployment queue as a FIFO

The specification of the deployment queue is a list of deployments with distinct ids in
the order in which they came.  Only the first may be in progress.  The circular buffer
refines it: its contents move as the list does, with the same results.
-/

namespace GreengrassLite

open Library List

variable {new : GglDeployment}

/-! ## The specification -/

/-- A call.  `enqueue` has the deployment it parsed, whether its id was found in the queue
and the result; a document that cannot be parsed, or whose id does not fit the vector of
the caller, is `malformed`. -/
inductive QueueEvent where
  | enqueue (new : GglDeployment) (existing : Bool) (ret : Except GglError Unit)
  | malformed
  | dequeue (deployment : GglDeployment)
  | release (deployment : GglDeployment)

/-- The steps of a FIFO whose entries can be replaced until they are in progress. -/
inductive FifoStep : List GglDeployment → QueueEvent → List GglDeployment → Prop
  | add {waiting : List GglDeployment} {new : GglDeployment} :
      new.deploymentId ∉ waiting.map GglDeployment.deploymentId → new.state = .queued →
      waiting.length < deploymentQueueSize →
      FifoStep waiting (.enqueue new false (.ok ())) (waiting ++ [new])
  | full {waiting : List GglDeployment} {new : GglDeployment} :
      new.deploymentId ∉ waiting.map GglDeployment.deploymentId →
      waiting.length = deploymentQueueSize →
      FifoStep waiting (.enqueue new false (.error .busy)) waiting
  | replace {before after : List GglDeployment} {old new : GglDeployment} :
      old.deploymentId = new.deploymentId → old.state = .queued → new.state = .queued →
      FifoStep (before ++ old :: after) (.enqueue new true (.ok ())) (before ++ new :: after)
  | refuse {before after : List GglDeployment} {old new : GglDeployment} :
      old.deploymentId = new.deploymentId → old.state = .inProgress →
      FifoStep (before ++ old :: after) (.enqueue new true (.error .failure))
        (before ++ old :: after)
  | malformed {waiting : List GglDeployment} : FifoStep waiting .malformed waiting
  | dequeue {first : GglDeployment} {rest : List GglDeployment} :
      FifoStep (first :: rest) (.dequeue { first with state := .inProgress })
        ({ first with state := .inProgress } :: rest)
  | release {first : GglDeployment} {rest : List GglDeployment} :
      first.state = .inProgress → FifoStep (first :: rest) (.release first) rest

/-- The ids that were added, the first one first. -/
def added : List QueueEvent → List Buffer
  | [] => []
  | .enqueue new false (.ok ()) :: earlier => added earlier ++ [new.deploymentId]
  | _ :: earlier => added earlier

/-- The ids of the deployments that were released, the first one first. -/
def released : List QueueEvent → List Buffer
  | [] => []
  | .release deployment :: earlier => released earlier ++ [deployment.deploymentId]
  | _ :: earlier => released earlier

/-- What the steps of the FIFO keep. -/
structure FifoInvariant (history : List QueueEvent) (waiting : List GglDeployment) : Prop where
  order : added history = released history ++ waiting.map GglDeployment.deploymentId
  distinct : (waiting.map GglDeployment.deploymentId).Nodup
  bounded : waiting.length ≤ deploymentQueueSize
  behind : ∀ deployment ∈ waiting.tail, deployment.state = .queued
  inProgress : ∀ deployment since, Since history (.dequeue deployment) since →
    (∀ other, .release other ∉ since) →
    waiting.head? = some deployment ∧ deployment.state = .inProgress

section

variable {history : List QueueEvent} {waiting next : List GglDeployment} {event : QueueEvent}

theorem FifoInvariant.nil : FifoInvariant [] [] where
  order := rfl
  distinct := nodup_nil
  bounded := Nat.zero_le _
  behind := nofun
  inProgress := fun _ _ occurred => absurd occurred not_since_nil

/-- The deployment in progress stays at the front until it is released. -/
theorem FifoStep.head?_eq (stepped : FifoStep waiting event next) {first : GglDeployment}
    (head : waiting.head? = some first) (inProgress : first.state = .inProgress)
    (unreleased : ∀ deployment, event ≠ .release deployment) : next.head? = some first := by
  cases stepped with
  | add absent queued room =>
    rw [head?_append, head]
    rfl
  | full | refuse | malformed => exact head
  | @replace before after old new same waits queued =>
    cases before with
    | nil =>
      cases head
      exact absurd (waits.symm.trans inProgress) nofun
    | cons front before => exact head
  | dequeue =>
    cases head
    exact congrArg some (by rw [← inProgress])
  | @release first rest running => exact absurd rfl (unreleased first)

variable {deployment : GglDeployment}

theorem FifoInvariant.inProgress_step (kept : FifoInvariant history waiting)
    (stepped : FifoStep waiting event next) {since : List QueueEvent}
    (occurred : Since (event :: history) (.dequeue deployment) since)
    (unreleased : ∀ other, .release other ∉ since) :
    next.head? = some deployment ∧ deployment.state = .inProgress := by
  rcases since_cons_iff.mp occurred with ⟨_, rfl⟩ | ⟨older, rfl, earlier⟩
  · cases stepped
    exact ⟨rfl, rfl⟩
  · rcases kept.inProgress deployment older earlier
      fun released listed => unreleased released (mem_cons_of_mem _ listed) with ⟨head, state⟩
    refine ⟨stepped.head?_eq head state ?_, state⟩
    rintro released rfl
    exact unreleased released mem_cons_self

theorem FifoInvariant.step (kept : FifoInvariant history waiting)
    (stepped : FifoStep waiting event next) : FifoInvariant (event :: history) next := by
  have inProgress : ∀ deployment since, Since (event :: history) (.dequeue deployment) since →
      (∀ other, .release other ∉ since) →
      next.head? = some deployment ∧ deployment.state = .inProgress :=
    fun _ _ => kept.inProgress_step stepped
  cases stepped with
  | @add _ new absent queued room =>
    constructor
    case order =>
      change added history ++ [new.deploymentId] = released history ++ _
      rw [kept.order, map_append, append_assoc]
      rfl
    case distinct =>
      rw [map_append]
      exact (perm_append_singleton _ _).nodup_iff.mpr
        (nodup_cons.mpr ⟨absent, kept.distinct⟩)
    case bounded => exact (length_append).trans_le room
    case behind =>
      intro deployment listed
      cases waiting with
      | nil => cases listed
      | cons first rest =>
        rcases mem_append.mp listed with older | latest
        · exact kept.behind deployment older
        · exact mem_singleton.mp latest ▸ queued
    case inProgress => exact inProgress
  | full | refuse | malformed | dequeue =>
    exact ⟨kept.order, kept.distinct, kept.bounded, kept.behind, inProgress⟩
  | @replace before after old new same waits queued =>
    have ids : (before ++ new :: after).map GglDeployment.deploymentId =
        (before ++ old :: after).map GglDeployment.deploymentId := by
      rw [map_append, map_append, map_cons, map_cons, same]
    constructor
    case order => exact kept.order.trans (congrArg (released history ++ ·) ids.symm)
    case distinct => exact ids ▸ kept.distinct
    case bounded =>
      have bounded := kept.bounded
      rw [length_append] at bounded ⊢
      exact bounded
    case behind =>
      intro deployment listed
      cases before with
      | nil => exact kept.behind deployment listed
      | cons first before =>
        rcases mem_append.mp listed with front | rest
        · exact kept.behind deployment (mem_append_left _ front)
        · rcases mem_cons.mp rest with rfl | later
          · exact queued
          · exact kept.behind deployment (mem_append_right _ (mem_cons_of_mem _ later))
    case inProgress => exact inProgress
  | @release first rest running =>
    constructor
    case order =>
      change added history = released history ++ [first.deploymentId] ++ _
      rw [kept.order, append_assoc]
      rfl
    case distinct => exact (nodup_cons.mp kept.distinct).2
    case bounded => exact Nat.le_of_succ_le kept.bounded
    case behind =>
      exact fun deployment listed => kept.behind deployment (mem_of_mem_tail listed)
    case inProgress => exact inProgress

theorem fifoInvariant_of_run (run : Run FifoStep [] history waiting) :
    FifoInvariant history waiting :=
  run.invariant FifoInvariant .nil FifoInvariant.step

theorem FifoStep.length_of_added (stepped : FifoStep waiting (.enqueue new false (.ok ())) next) :
    next.length = waiting.length + 1 := by
  cases stepped with
  | add absent queued room => exact length_append

theorem FifoStep.dequeue_first (stepped : FifoStep waiting (.dequeue deployment) next) :
    ∃ later, waiting.map GglDeployment.deploymentId = deployment.deploymentId :: later := by
  cases stepped with
  | @dequeue first rest => exact ⟨rest.map GglDeployment.deploymentId, rfl⟩

/-- What enqueueing a deployment does: it takes the place of the one with its id as long as
that one waits, and is refused once that one is in progress; under a new id it goes to the
end, unless there are ten already. -/
def EnqueueLaw (waiting : List GglDeployment) (new : GglDeployment)
    (ret : Except GglError Unit) (next : List GglDeployment) : Prop :=
  (∀ before old after, waiting = before ++ old :: after →
    old.deploymentId = new.deploymentId →
      (old.state = .queued → ret = .ok () ∧ next = before ++ new :: after) ∧
        (old.state = .inProgress → ret = .error .failure ∧ next = waiting)) ∧
    (new.deploymentId ∉ waiting.map GglDeployment.deploymentId →
      (waiting.length < 10 → ret = .ok () ∧ next = waiting ++ [new]) ∧
        (waiting.length = 10 → ret = .error .busy ∧ next = waiting))

/-- An id leads to one place of the list. -/
theorem split_unique {before front after behind : List GglDeployment} {old other : GglDeployment}
    (distinct : ((before ++ old :: after).map GglDeployment.deploymentId).Nodup)
    (same : other.deploymentId = old.deploymentId)
    (split : before ++ old :: after = front ++ other :: behind) :
    before = front ∧ old = other ∧ after = behind := by
  rw [map_append, map_cons, nodup_middle, nodup_cons,
    mem_append] at distinct
  refine (append_cons_inj_of_notMem ?_ ?_).mp split
  · intro listed
    exact distinct.1 (.inl (same ▸ mem_map_of_mem listed))
  · intro listed
    exact distinct.1 (.inr (same ▸ mem_map_of_mem listed))

theorem FifoStep.enqueueLaw {existing : Bool} {ret : Except GglError Unit}
    (stepped : FifoStep waiting (.enqueue new existing ret) next)
    (distinct : (waiting.map GglDeployment.deploymentId).Nodup) :
    EnqueueLaw waiting new ret next := by
  cases stepped with
  | add absent queued room =>
    constructor
    · rintro before old after rfl same
      exact absurd (mem_map.mpr ⟨old, by simp, same⟩) absent
    · exact fun _ => ⟨fun _ => ⟨rfl, rfl⟩, fun full => absurd room (Nat.not_lt_of_le full.ge)⟩
  | full absent length =>
    constructor
    · rintro before old after rfl same
      exact absurd (mem_map.mpr ⟨old, by simp, same⟩) absent
    · exact fun _ => ⟨fun room => absurd room (Nat.not_lt_of_le length.ge), fun _ => ⟨rfl, rfl⟩⟩
  | @replace before after old new same waits queued =>
    constructor
    · intro front other behind split sameId
      rcases split_unique distinct (sameId.trans same.symm) split with ⟨rfl, rfl, rfl⟩
      exact ⟨fun _ => ⟨rfl, rfl⟩, fun running => absurd (waits.symm.trans running) nofun⟩
    · intro absent
      exact absurd (mem_map.mpr ⟨old, by simp, same⟩) absent
  | @refuse before after old new same running =>
    constructor
    · intro front other behind split sameId
      rcases split_unique distinct (sameId.trans same.symm) split with ⟨rfl, rfl, rfl⟩
      exact ⟨fun waits => absurd (waits.symm.trans running) nofun, fun _ => ⟨rfl, rfl⟩⟩
    · intro absent
      exact absurd (mem_map.mpr ⟨old, by simp, same⟩) absent

end

/-! ## The circular buffer -/

namespace DeploymentQueue

variable {queue : DeploymentQueue}
  {deploymentId : Buffer}

theorem getMatchingDeployment_eq_some {index : Fin deploymentQueueSize}
    (found : queue.getMatchingDeployment deploymentId = some index) :
    ∃ i, i < queue.count ∧ index = queue.position i ∧
      (queue.slots index).deploymentId = deploymentId := by
  have listed := mem_of_find?_eq_some found
  rcases mem_map.mp listed with ⟨i, counted, rfl⟩
  have same := find?_some found
  rw [decide_eq_true_eq] at same
  exact ⟨i, mem_range.mp counted, rfl, same.symm⟩

@[simp]
theorem getMatchingDeployment_eq_none_iff :
    queue.getMatchingDeployment deploymentId = none ↔
      deploymentId ∉ queue.contents.map GglDeployment.deploymentId := by
  simp only [getMatchingDeployment, Ring.contents, find?_eq_none, mem_map,
    mem_range, decide_eq_true_eq, not_exists, not_and]
  constructor
  · rintro absent deployment ⟨i, counted, rfl⟩ same
    exact absent _ ⟨i, counted, rfl⟩ same.symm
  · rintro absent index ⟨i, counted, rfl⟩ same
    exact absent _ ⟨i, counted, rfl⟩ same.symm

/-- Placing a deployment that can be copied, if there is a place for it, is a step of the FIFO. -/
theorem place_fifo (queued : new.state = .queued)
    (copies : queue.HasPlace new.deploymentId → ∃ left, deepCopyDeployment new = .ok left) :
    FifoStep queue.contents
      (.enqueue new (queue.getMatchingDeployment new.deploymentId).isSome (queue.place new).1)
      (queue.place new).2.contents := by
  cases found : queue.getMatchingDeployment new.deploymentId with
  | none =>
    have absent := getMatchingDeployment_eq_none_iff.mp found
    by_cases room : queue.count < deploymentQueueSize
    · obtain ⟨left, copied⟩ := copies (by rwa [HasPlace, found])
      have placed : queue.place new =
          (.ok (), (queue.extend room).setSlot (queue.position queue.count) new) := by
        rw [place, placeBy, found]
        simp only [dif_pos room, fillSlot, copied]
      rw [placed, queue.contents_extend_setSlot room]
      exact .add absent queued (queue.length_contents.trans_lt room)
    · have placed : queue.place new = (.error .busy, queue) := by
        rw [place, placeBy, found]
        simp [dif_neg room]
      rw [placed]
      exact .full absent
        (queue.length_contents.trans (Nat.le_antisymm queue.bounded (Nat.le_of_not_lt room)))
  | some index =>
    rcases getMatchingDeployment_eq_some found with ⟨i, counted, rfl, same⟩
    have inside : i < queue.contents.length := queue.length_contents.symm ▸ counted
    have entry : queue.contents[i] = queue.slots (queue.position i) :=
      Option.some.inj ((getElem?_eq_getElem inside).symm.trans
        (queue.getElem?_contents counted))
    have split : queue.contents = queue.contents.take i ++
        queue.slots (queue.position i) :: queue.contents.drop (i + 1) := by
      rw [← entry, getElem_cons_drop, take_append_drop]
    by_cases waits : (queue.slots (queue.position i)).state = .queued
    · obtain ⟨left, copied⟩ := copies (by rwa [HasPlace, found])
      have placed : queue.place new = (.ok (), queue.setSlot (queue.position i) new) := by
        rw [place, placeBy, found]
        simp only [waits, fillSlot, copied]
        rfl
      rw [placed, queue.contents_setSlot counted, set_eq_take_append_cons_drop,
        if_pos inside]
      nth_rewrite 1 [split]
      exact .replace same waits queued
    · have placed : queue.place new = (.error .failure, queue) := by
        rw [place, placeBy, found]
        exact if_pos waits
      rw [placed, split]
      refine .refuse same ?_
      cases state : (queue.slots (queue.position i)).state with
      | queued => exact absurd state waits
      | inProgress => rfl

/-- A deployment that was placed could be copied. -/
theorem deepCopy_of_place_ok (placed : (queue.place new).1 = .ok ()) :
    ∃ left, deepCopyDeployment new = .ok left := by
  cases copied : deepCopyDeployment new with
  | ok left => exact ⟨left, rfl⟩
  | error error =>
    rw [place, placeBy] at placed
    split at placed <;> split at placed <;> simp [fillSlot, copied] at placed

@[simp]
theorem fillSlot_start (index : Fin deploymentQueueSize) (new : GglDeployment) :
    (queue.fillSlot index new).2.start = queue.start := by
  rw [fillSlot]
  split <;> rfl

@[simp]
theorem place_start (new : GglDeployment) : (queue.place new).2.start = queue.start := by
  rw [place, placeBy]
  split <;> split <;> first | rfl | exact fillSlot_start _ _

end DeploymentQueue

/-! ## Runs of the queue -/

/-- The queue, with the slot that was dequeued and not released. -/
structure QueueState where
  queue : DeploymentQueue
  dequeued : Option (Fin deploymentQueueSize)

def QueueState.initial : QueueState :=
  ⟨.empty, none⟩

/-- The calls, each as one step.  Every deployment with a place can be copied, and only the
dequeued deployment is released. -/
inductive QueueStep : QueueState → QueueEvent → QueueState → Prop
  | enqueue {state : QueueState} {idSize : Nat} {id : Option (Vec UInt8 idSize)} {uuid : Buffer}
      {doc : GglMap} {parsed : GglDeployment} {longer : Option (Vec UInt8 idSize)}
      (parses : parseDeploymentObj uuid doc = .ok parsed)
      (appends : appendId id parsed.deploymentId = .ok longer)
      (copies : state.queue.HasPlace parsed.deploymentId →
        ∃ left, deepCopyDeployment { parsed with state := .queued } = .ok left) :
      QueueStep state
        (.enqueue { parsed with state := .queued }
          (state.queue.getMatchingDeployment parsed.deploymentId).isSome
          (gglDeploymentEnqueue state.queue uuid doc id).ret)
        { state with queue := (gglDeploymentEnqueue state.queue uuid doc id).queue }
  | malformed {state : QueueState} {idSize : Nat} {id : Option (Vec UInt8 idSize)}
      {uuid : Buffer} {doc : GglMap}
      (fails : ∀ parsed, parseDeploymentObj uuid doc = .ok parsed →
        ∃ error, appendId id parsed.deploymentId = .error error) :
      QueueStep state .malformed
        { state with queue := (gglDeploymentEnqueue state.queue uuid doc id).queue }
  | dequeue {state : QueueState} {slot : Fin deploymentQueueSize} {next : DeploymentQueue}
      (dequeues : gglDeploymentDequeue state.queue = some (slot, next)) :
      QueueStep state (.dequeue (next.slots slot)) ⟨next, some slot⟩
  | release {state : QueueState} {slot : Fin deploymentQueueSize} {next : DeploymentQueue}
      (dequeued : state.dequeued = some slot)
      (releases : gglDeploymentRelease state.queue slot = some next) :
      QueueStep state (.release (state.queue.slots slot)) ⟨next, none⟩

/-- The dequeued slot is the one at the front, and its deployment is in progress. -/
def QueueState.Consistent (state : QueueState) : Prop :=
  ∀ slot, state.dequeued = some slot → slot = state.queue.start ∧
    ∃ first, state.queue.contents.head? = some first ∧ first.state = .inProgress

theorem gglDeploymentEnqueue_eq {queue : DeploymentQueue} {idSize : Nat}
    {id longer : Option (Vec UInt8 idSize)} {uuid : Buffer} {doc : GglMap}
    {parsed : GglDeployment} (parses : parseDeploymentObj uuid doc = .ok parsed)
    (appends : appendId id parsed.deploymentId = .ok longer) :
    gglDeploymentEnqueue queue uuid doc id =
      ⟨(queue.place { parsed with state := .queued }).1, longer,
        (queue.place { parsed with state := .queued }).2⟩ := by
  rw [gglDeploymentEnqueue, gglDeploymentEnqueueBy, parses]
  simp [appends, DeploymentQueue.place]

theorem gglDeploymentEnqueue_queue_of_malformed {queue : DeploymentQueue} {idSize : Nat}
    {id : Option (Vec UInt8 idSize)} {uuid : Buffer} {doc : GglMap}
    (fails : ∀ parsed, parseDeploymentObj uuid doc = .ok parsed →
      ∃ error, appendId id parsed.deploymentId = .error error) :
    (gglDeploymentEnqueue queue uuid doc id).queue = queue := by
  rw [gglDeploymentEnqueue, gglDeploymentEnqueueBy]
  cases parses : parseDeploymentObj uuid doc with
  | error error => rfl
  | ok parsed =>
    rcases fails parsed parses with ⟨error, appends⟩
    simp [appends]

/-- The first entry of the contents stands in the start slot. -/
theorem DeploymentQueue.contents_eq_cons {queue : DeploymentQueue} (counted : queue.count ≠ 0) :
    queue.contents = queue.slots queue.start :: queue.contents.tail := by
  have head := queue.getElem?_contents (Nat.pos_of_ne_zero counted)
  rw [Ring.position_zero, ← head?_eq_getElem?] at head
  exact (cons_head?_tail head).symm

theorem QueueStep.simulates {state next : QueueState} {event : QueueEvent}
    (consistent : state.Consistent) (stepped : QueueStep state event next) :
    FifoStep state.queue.contents event next.queue.contents ∧ next.Consistent := by
  cases stepped with
  | @enqueue _ id _ _ parsed _ parses appends copies =>
    rw [gglDeploymentEnqueue_eq parses appends]
    have moved :=
      @DeploymentQueue.place_fifo { parsed with state := .queued } state.queue rfl copies
    refine ⟨moved, ?_⟩
    intro slot dequeued
    rcases consistent slot dequeued with ⟨front, first, head, inProgress⟩
    refine ⟨front.trans (DeploymentQueue.place_start _).symm, first, ?_, inProgress⟩
    apply moved.head?_eq head inProgress
    rintro deployment ⟨⟩
  | malformed fails =>
    rw [gglDeploymentEnqueue_queue_of_malformed fails]
    exact ⟨.malformed, consistent⟩
  | dequeue dequeues =>
    rw [gglDeploymentDequeue] at dequeues
    split at dequeues
    case isTrue => cases dequeues
    case isFalse counted =>
      cases dequeues
      have split := DeploymentQueue.contents_eq_cons counted
      have marked := state.queue.contents_setSlot (Nat.pos_of_ne_zero counted)
        { state.queue.slots state.queue.start with state := .inProgress }
      rw [Ring.position_zero, split] at marked
      have label : (state.queue.setSlot state.queue.start
          { state.queue.slots state.queue.start with state := .inProgress }).slots
            state.queue.start =
          { state.queue.slots state.queue.start with state := .inProgress } :=
        Function.update_self _ _ _
      constructor
      · rw [marked, label, split]
        exact .dequeue
      · rintro slot ⟨⟩
        exact ⟨rfl, _, congrArg head? marked, rfl⟩
  | release dequeued releases =>
    rcases consistent _ dequeued with ⟨rfl, first, head, inProgress⟩
    rw [gglDeploymentRelease, if_pos rfl] at releases
    cases releases
    have counted : state.queue.count ≠ 0 := by
      intro none
      have empty := state.queue.length_contents.trans none
      rw [eq_nil_of_length_eq_zero empty] at head
      cases head
    have split := DeploymentQueue.contents_eq_cons counted
    constructor
    · rw [Ring.contents_advance, split]
      rw [split] at head
      cases head
      exact .release inProgress
    · rintro slot ⟨⟩

theorem fifo_of_run {history : List QueueEvent} {state : QueueState}
    (run : Run QueueStep .initial history state) :
    Run FifoStep [] history state.queue.contents ∧ state.Consistent := by
  have initial : QueueState.initial.Consistent := nofun
  exact run.simulation (fun state => state.queue.contents) QueueState.Consistent initial
    QueueStep.simulates

/-- Over any sequence of calls the queue is a FIFO.  Deployments leave it in the order in
which they were added, the dequeued one being the first that was not released.  Their ids
are distinct, the one in progress is not altered before its release, and enqueueing follows
`EnqueueLaw`. -/
theorem deploymentQueue_fifo {history : List QueueEvent} {state : QueueState}
    (run : Run QueueStep .initial history state) :
    Run FifoStep [] history state.queue.contents ∧
      added history = released history ++ state.queue.contents.map GglDeployment.deploymentId ∧
      (∀ slot next, gglDeploymentDequeue state.queue = some (slot, next) →
        ∃ later, added history = released history ++ (next.slots slot).deploymentId :: later) ∧
      (state.queue.contents.map GglDeployment.deploymentId).Nodup ∧
      (∀ deployment since, Since history (.dequeue deployment) since →
        (∀ other, .release other ∉ since) → state.queue.contents.head? = some deployment) ∧
      (∀ slot, state.dequeued = some slot → slot = state.queue.start) ∧
      ∀ (idSize : Nat) (id longer : Option (Vec UInt8 idSize)) (uuid : Buffer) (doc : GglMap)
        (parsed : GglDeployment), parseDeploymentObj uuid doc = .ok parsed →
        appendId id parsed.deploymentId = .ok longer →
        (state.queue.HasPlace parsed.deploymentId →
          ∃ left, deepCopyDeployment { parsed with state := .queued } = .ok left) →
        EnqueueLaw state.queue.contents { parsed with state := .queued }
          (gglDeploymentEnqueue state.queue uuid doc id).ret
          (gglDeploymentEnqueue state.queue uuid doc id).queue.contents := by
  rcases fifo_of_run run with ⟨simulated, consistent⟩
  have kept := fifoInvariant_of_run simulated
  refine ⟨simulated, kept.order, ?_, kept.distinct, ?_, ?_, ?_⟩
  · intro slot next dequeues
    rcases QueueStep.simulates consistent (.dequeue dequeues) with ⟨moved, _⟩
    rcases moved.dequeue_first with ⟨later, first⟩
    exact ⟨later, kept.order.trans (congrArg (released history ++ ·) first)⟩
  · intro deployment since occurred unreleased
    exact (kept.inProgress deployment since occurred unreleased).1
  · intro slot dequeued
    exact (consistent slot dequeued).1
  · intro idSize id longer uuid doc parsed parses appends copies
    rcases QueueStep.simulates consistent (.enqueue parses appends copies) with ⟨moved, _⟩
    exact moved.enqueueLaw kept.distinct

/-- A document that names only its id is enqueued and dequeued: the second time its id comes
it is refused. -/
theorem deploymentQueue_fifo_refused :
    ∃ history state, Run QueueStep .initial history state ∧
      (gglDeploymentEnqueue state.queue [] [(gglStr "deployment_id", .buf [7])]
        (none : Option (Vec UInt8 64))).ret = .error .failure := by
  have parses : parseDeploymentObj [] [(gglStr "deployment_id", .buf [7])] =
      .ok { deploymentId := [7], thingGroup := gglStr "LOCAL_DEPLOYMENTS" } := rfl
  have appends : appendId (none : Option (Vec UInt8 64)) [7] = .ok none := rfl
  have copies : deepCopyDeployment
      { deploymentId := [7], thingGroup := gglStr "LOCAL_DEPLOYMENTS" } = .ok ⟨18, 5000⟩ := rfl
  have first := Run.tail (.refl : Run QueueStep .initial [] _)
    (.enqueue parses appends fun _ => ⟨_, copies⟩)
  have second := Run.tail first (.dequeue rfl)
  have law := (deploymentQueue_fifo second).2.2.2.2.2.2 64 none none [] _ _ parses appends
    fun _ => ⟨_, copies⟩
  exact ⟨_, _, second, ((law.1 [] _ [] rfl rfl).2 rfl).1⟩

end GreengrassLite

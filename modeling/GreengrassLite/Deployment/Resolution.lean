import GreengrassLite.Deployment.Resolve
import GreengrassLite.Library.WorkList

/-!
# The resolution drains a work list

The loop of `resolve_dependencies` is a work list: the resolved components have
a version, those behind them in the vector wait with a requirement, and the
dependencies of a recipe are demands.  `Tracks` relates the two vectors to such
a work list, every round of the loop is a round of it, and the loop ends within
as many rounds as the vector has room for entries.

What a version has to satisfy is left open in `Reading`, so that results about
names alone need nothing of the requirements.
-/

namespace GreengrassLite.Deployment

open Library List

/-- The components that a `ComponentDependencies` map requires. -/
def dependencyRequirements (dependencies : GglMap) : List (Buffer × Buffer) :=
  dependencies.filterMap fun
    | (component, .map fields) =>
      match gglMapGet fields (gglStr "VersionRequirement") with
      | some (.buf requirement) => some (component, requirement)
      | _ => none
    | _ => none

section Steps

variable {σ : Type} {context : ResolveContext σ} {state next : ResolveState σ}
  {component requirement : Buffer}

/-- What a successful check of one dependency can do. -/
inductive Required (context : ResolveContext σ) (component requirement : Buffer)
    (state next : ResolveState σ) : Prop
  | checked {version} : state.resolved.items.lookup component = some version →
      isInRange context.pastEnd version requirement = true → next = state →
      Required context component requirement state next
  | joined {existing} : state.resolved.items.lookup component = none →
      state.toResolve.items.lookup component = some existing → next.resolved = state.resolved →
      next.toResolve.items = setRequirement component (joinRequirements existing requirement)
        state.toResolve.items →
      Required context component requirement state next
  | added : state.resolved.items.lookup component = none →
      state.toResolve.items.lookup component = none → next.resolved = state.resolved →
      next.toResolve.items = state.toResolve.items ++ [(component, requirement)] →
      Required context component requirement state next

theorem appendRequirement_ok {existing : Buffer}
    (ok : appendRequirement component existing requirement state = .ok next) :
    next.resolved = state.resolved ∧
      next.toResolve.items = setRequirement component (joinRequirements existing requirement)
        state.toResolve.items := by
  simp only [appendRequirement, except_bind_eq_ok_iff] at ok
  rcases ok with ⟨first, copied, second, separated, third, appended, stored⟩
  have bytes : third.items = joinRequirements existing requirement := by
    rw [(Vec.append_eq_ok_iff _ _ _).mp appended, Vec.items_of_push_eq_ok separated,
      (Vec.append_eq_ok_iff _ _ _).mp copied]
    simp [joinRequirements]
  split at stored
  · cases stored
  · cases stored
    exact ⟨rfl, congrArg (setRequirement component · state.toResolve.items) bytes⟩

theorem addComponent_ok (ok : addComponent component requirement state = .ok next) :
    next.resolved = state.resolved ∧
      next.toResolve.items = state.toResolve.items ++ [(component, requirement)] := by
  simp only [addComponent, except_bind_eq_ok_iff] at ok
  rcases ok with ⟨alloc, _, requirements, _, toResolve, pushed, stored⟩
  cases stored
  exact ⟨rfl, Vec.items_of_push_eq_ok pushed⟩

theorem requireDependency_ok
    (ok : requireDependency context component requirement state = .ok next) :
    Required context component requirement state next := by
  unfold requireDependency at ok
  cases found : state.resolved.items.lookup component with
  | some version =>
    rw [found] at ok
    by_cases inRange : isInRange context.pastEnd version requirement = true
    · simp only [inRange, if_true, Except.ok.injEq] at ok
      exact .checked found inRange ok.symm
    · simp [inRange] at ok
  | none =>
    rw [found] at ok
    cases waiting : state.toResolve.items.lookup component with
    | some existing =>
      rw [waiting] at ok
      rcases appendRequirement_ok ok with ⟨resolved, toResolve⟩
      exact .joined found waiting resolved toResolve
    | none =>
      rw [waiting] at ok
      rcases addComponent_ok ok with ⟨resolved, toResolve⟩
      exact .added found waiting resolved toResolve

theorem addResolved_ok {version : Buffer} (ok : addResolved component version state = .ok next) :
    next.toResolve = state.toResolve ∧
      next.resolved.items = state.resolved.items ++ [(component, version)] := by
  simp only [addResolved, except_bind_eq_ok_iff] at ok
  rcases ok with ⟨alloc, _, resolved, pushed, stored⟩
  cases stored
  exact ⟨rfl, Vec.items_of_push_eq_ok pushed⟩

end Steps

/-- The first entry with a name is the one whose requirement is set. -/
@[simp]
theorem setRequirement_append_cons {component existing requirement : Buffer}
    {before after : List (Buffer × Buffer)} (first : component ∉ before.map Prod.fst) :
    setRequirement component requirement (before ++ (component, existing) :: after) =
      before ++ (component, requirement) :: after := by
  induction before with
  | nil => simp [setRequirement]
  | cons entry before ih =>
    rw [map_cons, mem_cons, not_or] at first
    rw [cons_append, setRequirement, if_neg (Ne.symm first.1), ih first.2, cons_append]

theorem lookup_eq_none_iff_notMem {entries : List (Buffer × Buffer)} {component : Buffer} :
    entries.lookup component = none ↔ component ∉ entries.map Prod.fst := by
  rw [lookup_eq_none_iff]
  constructor
  · intro different member
    rcases mem_map.mp member with ⟨entry, isEntry, rfl⟩
    simpa using different entry isEntry
  · intro absent entry isEntry
    rw [bne_iff_ne]
    rintro rfl
    exact absent (mem_map_of_mem isEntry)

/-! ## Refinement -/

/-- What the resolution may rely on: how a version `satisfies` a requirement,
and which requirements are `good` enough to be joined. -/
structure Reading {σ : Type} (context : ResolveContext σ) (satisfies : Buffer → Buffer → Prop)
    (good : Buffer → Prop) : Prop where
  checked : ∀ version requirement, good requirement →
    isInRange context.pastEnd version requirement = true → satisfies version requirement
  good_join : ∀ first second, good first → good second → good (joinRequirements first second)
  split : ∀ version first second, good first → good second →
    satisfies version (joinRequirements first second) →
      satisfies version first ∧ satisfies version second
  chosen : ∀ component requirement world version next, good requirement →
    resolveVersion context component requirement world = (.ok version, next) →
      satisfies version requirement
  dependencies : ∀ component version dependencies,
    componentDependencies context component version = .ok dependencies →
      ∀ demand ∈ dependencyRequirements dependencies, good demand.2

/-- The demands that the recipe of a resolved component makes. -/
def recipeDemands {σ : Type} (context : ResolveContext σ) (component version : Buffer) :
    List (Buffer × Buffer) :=
  match componentDependencies context component version with
  | .ok dependencies => dependencyRequirements dependencies
  | .error _ => []

@[simp]
theorem recipeDemands_of_read {σ : Type} {context : ResolveContext σ} {component version : Buffer}
    {dependencies : GglMap} (read : componentDependencies context component version =
      .ok dependencies) :
    recipeDemands context component version = dependencyRequirements dependencies := by
  rw [recipeDemands, read]

/-- The vectors of the loop as a work list: behind the entries that were visited
are those that wait. -/
structure Tracks {σ : Type} (good : Buffer → Prop) (state : ResolveState σ)
    (work : WorkList Buffer Buffer Buffer) : Prop where
  chosen : work.chosen = state.resolved.items
  visited : ∃ visited, state.toResolve.items = visited ++ work.waiting ∧
    visited.map Prod.fst = work.chosen.map Prod.fst
  good : ∀ entry ∈ work.waiting, good entry.2

section Refinement

variable {σ : Type} {context : ResolveContext σ} {satisfies : Buffer → Buffer → Prop}
  {good : Buffer → Prop} {state next : ResolveState σ} {work : WorkList Buffer Buffer Buffer}
  {component requirement : Buffer}

/-- The keys of the work list are the components to resolve. -/
theorem Tracks.keys_eq (tracks : Tracks good state work) :
    work.keys = state.toResolve.items.map Prod.fst := by
  rcases tracks.visited with ⟨visited, split, names⟩
  rw [WorkList.keys, ← names, split, map_append]

/-- One dependency is one demand. -/
theorem Tracks.demand (reading : Reading context satisfies good) (tracks : Tracks good state work)
    (isGood : good requirement) (required : Required context component requirement state next) :
    ∃ nextWork, WorkList.Demand satisfies work component requirement nextWork ∧
      Tracks good next nextWork := by
  rcases tracks.visited with ⟨visited, split, names⟩
  cases required with
  | @checked version found inRange same =>
    subst same
    refine ⟨work, .check ?_ (reading.checked version requirement isGood inRange), tracks⟩
    rw [tracks.chosen]
    rcases lookup_eq_some_iff.mp found with ⟨before, after, entries, _⟩
    rw [entries]
    simp
  | @joined existing unresolved waiting resolved toResolve =>
    have notVisited : visited.lookup component = none := by
      rw [lookup_eq_none_iff_notMem, names, tracks.chosen]
      exact lookup_eq_none_iff_notMem.mp unresolved
    rw [split, lookup_append, notVisited] at waiting
    rcases lookup_eq_some_iff.mp waiting with ⟨before, after, entries, different⟩
    have notBefore : component ∉ (visited ++ before).map Prod.fst := by
      rw [map_append, mem_append, not_or]
      exact ⟨lookup_eq_none_iff_notMem.mp notVisited,
        lookup_eq_none_iff_notMem.mp (lookup_eq_none_iff.mpr different)⟩
    have goodExisting : good existing := tracks.good (component, existing) (by simp [entries])
    refine ⟨_, .strengthen entries fun version fits =>
      reading.split version existing requirement goodExisting isGood fits, ?_⟩
    constructor
    · rw [resolved]
      exact tracks.chosen
    · refine ⟨visited, ?_, names⟩
      rw [toResolve, split, entries, ← append_assoc, setRequirement_append_cons notBefore,
        append_assoc]
    · intro entry member
      rw [mem_append, mem_cons] at member
      rcases member with early | rfl | late
      · exact tracks.good entry (by simp [entries, early])
      · exact reading.good_join existing requirement goodExisting isGood
      · exact tracks.good entry (by simp [entries, late])
  | added unresolved fresh resolved toResolve =>
    refine ⟨_, .add ?_, ?_⟩
    · rw [tracks.keys_eq]
      exact lookup_eq_none_iff_notMem.mp fresh
    · constructor
      · rw [resolved]
        exact tracks.chosen
      · exact ⟨visited, by rw [toResolve, split, append_assoc], names⟩
      · intro entry member
        rcases mem_append.mp member with before | last
        · exact tracks.good entry before
        · rw [mem_singleton.mp last]
          exact isGood

/-- The dependencies of a recipe are its demands, and each states a requirement. -/
theorem Tracks.demands (reading : Reading context satisfies good) (tracks : Tracks good state work)
    {dependencies : GglMap}
    (isGood : ∀ demand ∈ dependencyRequirements dependencies, good demand.2)
    (ok : dependencies.foldlM (resolveDependency context) state = .ok next) :
    (∃ nextWork, WorkList.Demands satisfies work (dependencyRequirements dependencies) nextWork ∧
      Tracks good next nextWork) ∧
      (dependencyRequirements dependencies).map Prod.fst = dependencies.map Prod.fst := by
  induction dependencies generalizing state work with
  | nil =>
    cases ok
    exact ⟨⟨work, .nil, tracks⟩, rfl⟩
  | cons dependency dependencies ih =>
    rw [foldlM_cons, except_bind_eq_ok_iff] at ok
    rcases ok with ⟨middle, first, rest⟩
    rcases dependency with ⟨component, value⟩
    cases value with
    | map fields =>
      simp only [resolveDependency, except_bind_eq_ok_iff, gglMapValidateBuf_eq_ok_iff] at first
      rcases first with ⟨requirement, found, required⟩
      have demands : dependencyRequirements ((component, .map fields) :: dependencies) =
          (component, requirement) :: dependencyRequirements dependencies := by
        simp [dependencyRequirements, found]
      rw [demands] at isGood ⊢
      rcases tracks.demand reading (isGood _ mem_cons_self)
        (requireDependency_ok required) with ⟨middleWork, demand, middleTracks⟩
      rcases ih middleTracks (fun other member => isGood other (mem_cons_of_mem _ member))
        rest with ⟨⟨nextWork, later, nextTracks⟩, names⟩
      exact ⟨⟨nextWork, .cons demand later, nextTracks⟩, by simp [names]⟩
    | _ => cases first

/-- The recipe of a resolved component was read, and each of its dependencies
states a requirement. -/
def Readable (context : ResolveContext σ) (entry : Buffer × Buffer) : Prop :=
  ∃ dependencies, componentDependencies context entry.1 entry.2 = .ok dependencies ∧
    (recipeDemands context entry.1 entry.2).map Prod.fst = dependencies.map Prod.fst

/-- One round of the loop is one round of the work list. -/
theorem Tracks.round (reading : Reading context satisfies good) (tracks : Tracks good state work)
    {entry : Buffer × Buffer} {rest : List (Buffer × Buffer)} (head : work.waiting = entry :: rest)
    (ok : resolveEntry context entry state = .ok next) :
    ∃ version middleWork nextWork, WorkList.Choose satisfies entry.1 version work middleWork ∧
      WorkList.Demands satisfies middleWork (recipeDemands context entry.1 version) nextWork ∧
      Tracks good next nextWork ∧ Readable context (entry.1, version) := by
  rcases entry with ⟨component, requirement⟩
  rcases work with ⟨chosen, waiting⟩
  cases head
  unfold resolveEntry at ok
  rcases outcome : resolveVersion context component requirement state.world with
    ⟨error | version, world⟩
  · simp [outcome] at ok
  · simp only [outcome, except_bind_eq_ok_iff] at ok
    rcases ok with ⟨middle, added, dependencies, read, scanned⟩
    rcases addResolved_ok added with ⟨sameEntries, resolved⟩
    rcases tracks.visited with ⟨visited, split, names⟩
    have isGood : good requirement := tracks.good _ mem_cons_self
    have middleTracks : Tracks good middle ⟨chosen ++ [(component, version)], rest⟩ := by
      constructor
      · rw [resolved]
        exact congrArg (· ++ [(component, version)]) tracks.chosen
      · refine ⟨visited ++ [(component, requirement)], ?_, ?_⟩
        · rw [sameEntries]
          exact split.trans (by simp)
        · simpa using names
      · exact fun other member => tracks.good other (mem_cons_of_mem _ member)
    rcases middleTracks.demands reading (reading.dependencies _ _ _ read) scanned with
      ⟨⟨nextWork, run, nextTracks⟩, named⟩
    refine ⟨version, _, nextWork, .first (reading.chosen _ _ _ _ _ isGood outcome), ?_,
      nextTracks, dependencies, read, ?_⟩
    · rw [recipeDemands_of_read read]
      exact run
    · rw [recipeDemands_of_read read]
      exact named

theorem Tracks.getElem?_eq (tracks : Tracks good state work) :
    state.toResolve.items[work.chosen.length]? = work.waiting.head? := by
  rcases tracks.visited with ⟨visited, split, names⟩
  have size : work.chosen.length = visited.length := by
    simpa using (congrArg length names).symm
  rw [split, size, getElem?_append_right (Nat.le_refl _), Nat.sub_self,
    head?_eq_getElem?]

variable {fuel : Nat} {final : ResolveState σ}

/-- With nothing waiting the loop has ended. -/
theorem Tracks.final_eq {chosen : List (Buffer × Buffer)}
    (tracks : Tracks good state ⟨chosen, []⟩)
    (ok : resolveLoop context fuel chosen.length state = some (.ok final)) : final = state := by
  rw [resolveLoop_of_end tracks.getElem?_eq] at ok
  cases ok
  rfl

/-- A loop that completes drains the work list. -/
theorem Tracks.drains (reading : Reading context satisfies good) (tracks : Tracks good state work)
    (ok : resolveLoop context fuel work.chosen.length state = some (.ok final)) :
    ∃ finalWork, WorkList.Drains satisfies (recipeDemands context) work finalWork ∧
      Tracks good final finalWork ∧
      ∀ entry ∈ finalWork.chosen, entry ∈ work.chosen ∨ Readable context entry := by
  induction fuel generalizing state work with
  | zero =>
    have current := tracks.getElem?_eq
    rcases work with ⟨chosen, waiting⟩
    cases waiting with
    | nil =>
      rw [tracks.final_eq ok]
      exact ⟨_, .done, tracks, fun entry member => .inl member⟩
    | cons entry rest =>
      simp [resolveLoop, current] at ok
  | succ fuel ih =>
    have current := tracks.getElem?_eq
    rcases work with ⟨chosen, waiting⟩
    cases waiting with
    | nil =>
      rw [tracks.final_eq ok]
      exact ⟨_, .done, tracks, fun entry member => .inl member⟩
    | cons entry rest =>
      rw [resolveLoop_succ current] at ok
      cases resolved : resolveEntry context entry state with
      | error error => simp [resolved] at ok
      | ok next =>
        rcases tracks.round reading rfl resolved with
          ⟨version, middleWork, nextWork, choose, demands, nextTracks, readable⟩
        have chosenNext : nextWork.chosen = chosen ++ [(entry.1, version)] := by
          rw [demands.chosen_eq, choose.chosen_eq]
        have loop : resolveLoop context fuel nextWork.chosen.length next =
            some (.ok final) := by
          simpa [resolved, chosenNext] using ok
        rcases ih nextTracks loop with ⟨finalWork, run, finalTracks, read⟩
        refine ⟨finalWork, .round choose demands run, finalTracks, ?_⟩
        intro other member
        rcases read other member with before | isReadable
        · rw [chosenNext, mem_append, mem_singleton] at before
          rcases before with old | rfl
          · exact .inl old
          · exact .inr readable
        · exact .inr isReadable

/-- The loop ends within as many rounds as the vector has room for entries. -/
theorem resolveLoop_terminates (context : ResolveContext σ) {index : Nat}
    (enough : maxComponents ≤ index + fuel) (state : ResolveState σ) :
    ∃ outcome, resolveLoop context fuel index state = some outcome := by
  induction fuel generalizing index state with
  | zero =>
    have ended : state.toResolve.items[index]? = none :=
      getElem?_eq_none (state.toResolve.bounded.trans enough)
    exact ⟨_, resolveLoop_of_end ended⟩
  | succ fuel ih =>
    cases current : state.toResolve.items[index]? with
    | none => exact ⟨_, resolveLoop_of_end current⟩
    | some entry =>
      rw [resolveLoop_succ current]
      cases resolveEntry context entry state with
      | error error => exact ⟨_, rfl⟩
      | ok next =>
        have left : maxComponents ≤ index + 1 + fuel := by omega
        exact ih left next

end Refinement

end GreengrassLite.Deployment

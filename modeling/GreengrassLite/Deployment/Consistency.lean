import GreengrassLite.Deployment.Resolution

/-!
# Consistency of the resolved versions

When the loop of `resolve_dependencies` completes, its result is consistent
exactly if no root component was named twice: each component has one version, the
dependencies of every resolved recipe are resolved, and a version is in the range
of every requirement on its component, in whatever order the requirements were met
and however the recipes depend on each other.  The loop always ends.

Two assumptions are needed.  Requirements neither begin nor end with a space,
for joining them would otherwise change what they mean, and the cloud answers a
request with one candidate in the range it was asked for.
-/

namespace GreengrassLite.Deployment

open List

variable {component requirement version : Buffer}

section Purpose

variable {σ : Type}

variable (context : ResolveContext σ)

/-- The recipe of a resolved component places a requirement on a component. -/
def Requires (user : Buffer × Buffer) (component requirement : Buffer) : Prop :=
  ∃ dependencies fields, componentDependencies context user.1 user.2 = .ok dependencies ∧
    (component, .map fields) ∈ dependencies ∧
    gglMapGet fields (gglStr "VersionRequirement") = some (.buf requirement)

/-- What a deployment relies on in the resolved versions. -/
structure Consistent (roots resolved : List (Buffer × Buffer)) : Prop where
  once : (resolved.map Prod.fst).Nodup
  covered : ∀ root ∈ roots, root.1 ∈ resolved.map Prod.fst
  closed : ∀ user ∈ resolved, ∃ dependencies,
    componentDependencies context user.1 user.2 = .ok dependencies ∧
      ∀ dependency ∈ dependencies, dependency.1 ∈ resolved.map Prod.fst
  rootRange : ∀ component version requirement, (component, version) ∈ resolved →
    (component, requirement) ∈ roots → isInRange context.pastEnd version requirement = true
  recipeRange : ∀ component version requirement, (component, version) ∈ resolved →
    ∀ user ∈ resolved, Requires context user component requirement →
      isInRange context.pastEnd version requirement = true

/-- A well-formed response names one candidate. -/
def Answers (response : Buffer) (candidate : CloudComponent) : Prop :=
  ∃ fields candidateFields, context.jsonDecode response = .ok (.map fields) ∧
    gglMapGet fields (gglStr "resolvedComponentVersions") = some (.list [.map candidateFields]) ∧
    cloudComponent candidateFields = .ok candidate

/-- The cloud answers with a candidate in the range it was asked for, or with
the empty response. -/
def CloudInRange : Prop :=
  ∀ world component requirement response,
    context.resolveWithCloud world component requirement = .ok response →
    response = gglStr "\x7b\x7d" ∨ ∃ candidate, Answers context response candidate ∧
      isInRange context.pastEnd candidate.version requirement = true

/-- The loop starts from components none of which is resolved. -/
structure Rooted (state : ResolveState σ) : Prop where
  unresolved : state.resolved.items = []
  joinable : ∀ root ∈ state.toResolve.items, Joinable root.2

end Purpose

section Proof

variable {σ : Type} {context : ResolveContext σ}

@[simp]
theorem mem_recipeDemands_iff {user : Buffer × Buffer} :
    (component, requirement) ∈ recipeDemands context user.1 user.2 ↔
      Requires context user component requirement := by
  unfold recipeDemands Requires
  cases componentDependencies context user.1 user.2 with
  | error error => simp
  | ok dependencies =>
    simp only [dependencyRequirements, mem_filterMap, Except.ok.injEq]
    constructor
    · rintro ⟨⟨name, value⟩, member, demand⟩
      cases value with
      | map fields =>
        cases found : gglMapGet fields (gglStr "VersionRequirement") with
        | none => simp [found] at demand
        | some text =>
          cases text with
          | buf bytes =>
            simp only [found, Option.some.injEq, Prod.mk.injEq] at demand
            rcases demand with ⟨rfl, rfl⟩
            exact ⟨dependencies, fields, rfl, member, found⟩
          | _ => simp [found] at demand
      | _ => simp at demand
    · rintro ⟨_, fields, rfl, member, found⟩
      exact ⟨(component, .map fields), member, by simp [found]⟩

variable {world : σ} {state : ResolveState σ}

theorem findAvailableComponent_inRange
    (ok : findAvailableComponent context component requirement world = .ok version) :
    isInRange context.pastEnd version requirement = true := by
  unfold findAvailableComponent at ok
  split at ok
  · cases ok
  · split at ok
    · cases ok
    · rename_i found
      cases ok
      have fits := find?_some found
      rw [Bool.and_eq_true] at fits
      exact fits.2

theorem findActiveVersion_inRange
    (ok : findActiveVersion context component requirement world = .ok version) :
    isInRange context.pastEnd version requirement = true := by
  revert ok
  fun_cases findActiveVersion context component requirement world <;> rintro ⟨⟩
  case case3 _ accepted =>
    rw [not_or, Bool.not_eq_false] at accepted
    exact accepted.2

/-- A local candidate is in the range it was sought for. -/
theorem resolveComponentVersion_inRange
    (found : resolveComponentVersion context component requirement world = some version) :
    isInRange context.pastEnd version requirement = true := by
  unfold resolveComponentVersion at found
  split at found
  next running active =>
    cases found
    exact findActiveVersion_inRange active
  · cases available : findAvailableComponent context component requirement world <;>
      rw [available] at found <;> cases found
    exact findAvailableComponent_inRange available

/-- A well-formed response is read as the version of its candidate. -/
theorem Answers.version_eq {response : Buffer} {candidate : CloudComponent} {next : σ}
    (answers : Answers context response candidate)
    (ok : parseDataplaneResponseAndSaveRecipe context response world = (.ok version, next)) :
    version = candidate.version := by
  rcases answers with ⟨fields, candidateFields, decoded, listed, valid⟩
  simp only [parseDataplaneResponseAndSaveRecipe, decoded, listed, saveCandidates, valid] at ok
  split at ok
  · cases ok
  · split at ok
    · cases ok
    · cases ok
      rfl

/-- Wherever a version comes from, it is in the range. -/
theorem CloudInRange.resolveVersion_inRange (cloud : CloudInRange context) {next : σ}
    (ok : resolveVersion context component requirement world = (.ok version, next)) :
    isInRange context.pastEnd version requirement = true := by
  revert ok
  fun_cases resolveVersion context component requirement world with
  | case1 found candidate =>
    rintro ⟨⟩
    exact resolveComponentVersion_inRange candidate
  | case2 | case3 => rintro ⟨⟩
  | case4 _ response answer notEmpty =>
    intro ok
    rcases cloud world component requirement response answer with
      isEmpty | ⟨answered, answers, inRange⟩
    · exact absurd isEmpty notEmpty
    · rw [answers.version_eq ok]
      exact inRange

/-- The range check reads joined requirements as both of them. -/
theorem CloudInRange.reading (cloud : CloudInRange context)
    (joinable : ∀ user component requirement, Requires context user component requirement →
      Joinable requirement) :
    Reading context (fun version requirement =>
      isInRange context.pastEnd version requirement = true) Joinable where
  checked version requirement _ inRange := inRange
  good_join first second := Joinable.join
  split version first second firstJoinable secondJoinable :=
    (isInRange_join firstJoinable secondJoinable).mp
  chosen component requirement world version next _ ok := cloud.resolveVersion_inRange ok
  dependencies component version dependencies read demand member := by
    rw [← recipeDemands_of_read read] at member
    exact joinable (component, version) demand.1 demand.2 (mem_recipeDemands_iff.mp member)

theorem Rooted.tracks (rooted : Rooted state) :
    Tracks Joinable state ⟨[], state.toResolve.items⟩ where
  chosen := rooted.unresolved.symm
  visited := ⟨[], rfl, rfl⟩
  good := rooted.joinable

/-- In a list of distinct names, a name has one value. -/
theorem eq_of_mem_of_nodup_names {entries : List (Buffer × Buffer)} {name first second : Buffer}
    (distinct : (entries.map Prod.fst).Nodup) (isFirst : (name, first) ∈ entries)
    (isSecond : (name, second) ∈ entries) : first = second :=
  congrArg Prod.snd (inj_on_of_nodup_map distinct isFirst isSecond rfl)

/-- A drained work list is consistent if it began with distinct components. -/
theorem Rooted.consistent_iff {final : ResolveState σ} (rooted : Rooted state)
    (cloud : CloudInRange context)
    (joinable : ∀ user component requirement, Requires context user component requirement →
      Joinable requirement) (ok : resolveLoop context maxComponents 0 state = some (.ok final)) :
    Consistent context state.toResolve.items final.resolved.items ↔
      (state.toResolve.items.map Prod.fst).Nodup := by
  rcases rooted.tracks.drains (cloud.reading joinable) ok with ⟨work, run, tracks, readable⟩
  constructor
  · intro consistent
    have once := consistent.once
    rw [← tracks.chosen, ← run.keys_eq] at once
    exact run.keys_prefix_keys.sublist.nodup once
  intro roots
  have distinct : (work.chosen.map Prod.fst).Nodup := by
    rw [← run.keys_eq]
    exact run.nodup_keys roots
  have demanded : ∀ user ∈ work.chosen, ∀ demand ∈ recipeDemands context user.1 user.2,
      ∃ version, (demand.1, version) ∈ work.chosen ∧
        isInRange context.pastEnd version demand.2 = true := by
    intro user resolved demand member
    exact (run.meets resolved not_mem_nil member).of_drained run.waiting_eq_nil
  have rootMet : ∀ root ∈ state.toResolve.items, ∃ version, (root.1, version) ∈ work.chosen ∧
      isInRange context.pastEnd version root.2 = true := by
    intro root isRoot
    exact (run.meets_of_meets (.inr ⟨root.2, isRoot, fun _ => id⟩)).of_drained
      run.waiting_eq_nil
  rw [← tracks.chosen]
  constructor
  · exact distinct
  · intro root isRoot
    rcases rootMet root isRoot with ⟨version, resolved, _⟩
    exact mem_map.mpr ⟨_, resolved, rfl⟩
  · intro user resolved
    rcases readable user resolved with before | ⟨dependencies, read, named⟩
    · cases before
    · refine ⟨dependencies, read, fun dependency member => ?_⟩
      have listed : dependency.1 ∈ (recipeDemands context user.1 user.2).map Prod.fst := by
        rw [named]
        exact mem_map_of_mem member
      rcases mem_map.mp listed with ⟨demand, isDemand, same⟩
      rcases demanded user resolved demand isDemand with ⟨version, chosen, _⟩
      rw [← same]
      exact mem_map.mpr ⟨_, chosen, rfl⟩
  · intro component version requirement resolved isRoot
    rcases rootMet _ isRoot with ⟨chosen, isChosen, inRange⟩
    rwa [eq_of_mem_of_nodup_names distinct resolved isChosen]
  · intro component version requirement resolved user isUser requires
    rcases demanded user isUser _ (mem_recipeDemands_iff.mpr requires) with
      ⟨chosen, isChosen, inRange⟩
    rwa [eq_of_mem_of_nodup_names distinct resolved isChosen]

/-- The loop of `resolve_dependencies` ends for every dependency graph, and if it
completes, the resolved versions are consistent exactly if the root components are
distinct. -/
theorem resolveLoop_consistent {state : ResolveState σ} (rooted : Rooted state)
    (cloud : CloudInRange context)
    (joinable : ∀ user component requirement, Requires context user component requirement →
      Joinable requirement) :
    ∃ outcome, resolveLoop context maxComponents 0 state = some outcome ∧
      ∀ final, outcome = .ok final →
        (Consistent context state.toResolve.items final.resolved.items ↔
          (state.toResolve.items.map Prod.fst).Nodup) := by
  rcases resolveLoop_terminates context (Nat.le_add_left maxComponents 0) state with
    ⟨outcome, ended⟩
  refine ⟨outcome, ended, ?_⟩
  rintro final rfl
  exact rooted.consistent_iff cloud joinable ended

end Proof

section Cycle

/-- A recipe with one dependency. -/
def recipeDependingOn (component requirement : String) : GglObject :=
  .map [(gglStr "ComponentDependencies",
    .map [(gglStr component,
      .map [(gglStr "VersionRequirement", .buf (gglStr requirement))])])]

/-- Two installed components that depend on each other, without a cloud. -/
def cyclicContext : ResolveContext Unit where
  writeRoots _ := .ok ()
  deviceThingGroups := .error .noconn
  jsonDecode _ := .error .parse
  readGroup _ alloc := (.error .noentry, alloc)
  activeVersion _ component :=
    .ok (if component = gglStr "a" then gglStr "1.0.0" else gglStr "1.5.0")
  recipeDirectory _ := .ok []
  resolveWithCloud _ _ _ := .error .noconn
  saveRecipe world _ := (.ok (), world)
  recipe component _ :=
    .ok (if component = gglStr "a" then recipeDependingOn "b" "<2.0.0"
      else recipeDependingOn "a" ">=1.0.0")
  uninitialized := []
  pastEnd := 0

/-- The loop starts with one of the two. -/
def cyclicState : ResolveState Unit where
  toResolve := ⟨[(gglStr "a", gglStr "1.0.0")], by decide⟩
  resolved := Vec.empty _ maxComponents
  alloc := gglBumpAllocInit 8192
  requirements := gglBumpAllocInit 2048
  world := ()

theorem cyclicState_rooted : Rooted cyclicState where
  unresolved := rfl
  joinable root isRoot := by
    rw [mem_singleton.mp isRoot]
    exact ⟨⟨49, gglStr ".0.0", rfl, by decide⟩, ⟨gglStr "1.0.", 48, rfl, by decide⟩⟩

theorem cyclicContext_joinable (user : Buffer × Buffer) (component requirement : Buffer)
    (requires : Requires cyclicContext user component requirement) : Joinable requirement := by
  rcases requires with ⟨dependencies, fields, read, member, found⟩
  by_cases isFirst : user.1 = gglStr "a"
  · simp only [componentDependencies, cyclicContext, isFirst, if_true] at read
    cases read
    cases mem_singleton.mp member
    cases found
    exact ⟨⟨60, gglStr "2.0.0", rfl, by decide⟩, ⟨gglStr "<2.0.", 48, rfl, by decide⟩⟩
  · simp only [componentDependencies, cyclicContext, isFirst, if_false] at read
    cases read
    cases mem_singleton.mp member
    cases found
    exact ⟨⟨62, gglStr "=1.0.0", rfl, by decide⟩, ⟨gglStr ">=1.0.", 48, rfl, by decide⟩⟩

theorem resolveLoop_consistent_cycle :
    ∃ final, resolveLoop cyclicContext maxComponents 0 cyclicState = some (.ok final) ∧
      final.resolved.items = [(gglStr "a", gglStr "1.0.0"), (gglStr "b", gglStr "1.5.0")] ∧
      Consistent cyclicContext cyclicState.toResolve.items final.resolved.items := by
  have noCloud : CloudInRange cyclicContext := by
    intro world component requirement response answer
    cases answer
  have completed : ((resolveLoop cyclicContext maxComponents 0 cyclicState).bind
      Except.toOption).map (fun final => final.resolved.items) =
      some [(gglStr "a", gglStr "1.0.0"), (gglStr "b", gglStr "1.5.0")] := by
    decide +kernel
  rcases resolveLoop_consistent cyclicState_rooted noCloud cyclicContext_joinable with
    ⟨outcome, ended, consistent⟩
  rw [ended] at completed
  cases outcome with
  | error error => cases completed
  | ok final =>
    refine ⟨final, ended, ?_, (consistent final rfl).mpr (by decide)⟩
    simpa [Except.toOption] using completed

/-- The loop starts with one component named twice. -/
def repeatedState : ResolveState Unit :=
  { cyclicState with
    toResolve := ⟨[(gglStr "a", gglStr "1.0.0"), (gglStr "a", gglStr ">=1.0.0")], by decide⟩ }

/-- It is resolved twice. -/
theorem repeated_root_inconsistent :
    ∃ final, resolveLoop cyclicContext maxComponents 0 repeatedState = some (.ok final) ∧
      ¬Consistent cyclicContext repeatedState.toResolve.items final.resolved.items := by
  have completed : ((resolveLoop cyclicContext maxComponents 0 repeatedState).bind
      Except.toOption).map (fun final => final.resolved.items) =
      some [(gglStr "a", gglStr "1.0.0"), (gglStr "a", gglStr "1.0.0"),
        (gglStr "b", gglStr "1.5.0")] := by
    decide +kernel
  obtain ⟨final, ended, items⟩ := Option.map_eq_some_iff.mp completed
  obtain ⟨outcome, ended, isOk⟩ := Option.bind_eq_some_iff.mp ended
  cases outcome with
  | error error => cases isOk
  | ok result =>
    cases isOk
    refine ⟨final, ended, fun consistent => ?_⟩
    have once := consistent.once
    rw [items] at once
    exact absurd once (by decide)

end Cycle

end GreengrassLite.Deployment

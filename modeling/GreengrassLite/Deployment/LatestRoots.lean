import GreengrassLite.Deployment.StoredRoots

/-!
# Going by the latest deployments

A later deployment reads the root components of the other thing groups, adds
them to its own and fails if two requirements for one component differ.  As long
as every deployment names the components of the previous one of its group again,
it goes by the latest deployments of the other groups and by nothing else.  The
first deployment that leaves a component out breaks this: the component stays
stored, is resolved on, and can make a later deployment fail.
-/

namespace GreengrassLite.Deployment

open Config Library List Ggconfigd

/-- A component and its requirement are among the root components of a
deployment or of the latest deployment of another group. -/
def Asked {σ : Type} (history : List ConfigEvent) (later : GroupDeployment σ)
    (entry : Buffer × Buffer) : Prop :=
  entry ∈ later.roots ∨ ∃ group roots time, group ≠ later.thingGroupName ∧
    latestRoots history group = some (roots, time) ∧ entry ∈ roots

/-- A later deployment goes by the latest root components of the other
groups. -/
structure GoesByLatest {σ : Type} (printG : UInt64 → Buffer) (decoder : JsonDecoder)
    (history : List ConfigEvent) (daemon : Ggconfigd) (later : GroupDeployment σ) : Prop where
  /-- They are what is read back. -/
  reads : ∀ group, group ≠ later.thingGroupName →
    ReadsLatest
      (rpcRead decoder noFault (later.written printG daemon) (readArguments (rootsPath group)))
      (latestRoots history group)
  /-- No other component is resolved as a root component. -/
  resolves : ∀ collected,
    collectRoots (later.contextOn printG decoder daemon) later.thingGroupName
      later.rootComponents later.alloc = .ok collected →
    ∀ entry ∈ collected.toResolve.items, Asked history later entry
  /-- No other component is reported as a version conflict. -/
  conflicts : ∀ group alloc stored, group ≠ later.thingGroupName →
    ((later.contextOn printG decoder daemon).readGroup group alloc).1 = .ok (.map stored) →
    ∀ root ∈ stored, ∀ state : RootState,
    (∀ entry ∈ state.toResolve.items, Asked history later entry) →
    addGroupRoot state root = .error .invalid →
    ∃ name first second, first ≠ second ∧ Asked history later (name, first) ∧
      Asked history later (name, second)

variable {σ : Type} {printG : UInt64 → Buffer} {decoder : JsonDecoder}
  {history : List ConfigEvent} {daemon : Ggconfigd}

/-! ## Collecting the root components -/

section Collecting

variable {context : ResolveContext σ} {thingGroupName : Buffer} {asked : Buffer × Buffer → Prop}
  {state next : RootState}

theorem addGroupRoot_forall {root : Buffer × GglObject} (ok : addGroupRoot state root = .ok next)
    (entries : ∀ entry ∈ state.toResolve.items, asked entry)
    (rootAsked : asked (root.1, storedRequirement root.2)) :
    ∀ entry ∈ next.toResolve.items, asked entry := by
  rcases addGroupRoot_cases ok with ⟨_, unchanged, _⟩ | ⟨_, pushed, _⟩
  · rw [unchanged]
    exact entries
  · rw [pushed, gglKvVecPush, Vec.keep_push_items]
    split
    · exact forall_mem_append.mpr ⟨entries, forall_mem_singleton.mpr rootAsked⟩
    · exact entries

section

variable (reads : ∀ group alloc stored, group ≠ thingGroupName →
  (context.readGroup group alloc).1 = .ok (.map stored) →
  ∀ root ∈ stored, asked (root.1, storedRequirement root.2))

include reads

/-- A thing group adds only what is read back for it. -/
theorem addThingGroup_forall {item : GglObject}
    (ok : addThingGroup context thingGroupName state item = .ok next)
    (entries : ∀ entry ∈ state.toResolve.items, asked entry) :
    ∀ entry ∈ next.toResolve.items, asked entry := by
  obtain ⟨fields, group, rfl, _, ⟨_, rfl⟩ | ⟨other, ⟨_, _, _, rfl⟩ |
    ⟨roots, alloc, answered, added⟩⟩⟩ := addThingGroup_cases ok
  · exact entries
  · exact entries
  · apply foldlM_invariant
      (fun state : RootState => ∀ entry ∈ state.toResolve.items, asked entry) _ added entries
    intro root member _ _ addedRoot sofar
    apply addGroupRoot_forall addedRoot sofar
    exact reads group state.alloc roots other (congrArg Prod.fst answered) root member

theorem collectRoots_forall {rootComponents : GglMap} {alloc : BumpAlloc}
    (own : ∀ entry ∈ deploymentRoots rootComponents, asked entry)
    (ok : collectRoots context thingGroupName rootComponents alloc = .ok next) :
    ∀ entry ∈ next.toResolve.items, asked entry := by
  simp only [collectRoots, except_bind_eq_ok_iff, mapError_some_eq_ok_iff] at ok
  rcases ok with ⟨toResolve, named, _, _, _, _, _, _, items, _, merged⟩
  rw [deploymentRoots, named] at own
  apply foldlM_invariant
    (fun state : RootState => ∀ entry ∈ state.toResolve.items, asked entry) _ merged own
  intro item _ _ _ added
  exact addThingGroup_forall reads added

end

theorem gglBufClone_ne_invalid (width : Nat) (bytes : Buffer) (alloc : BumpAlloc) :
    gglBufClone width bytes alloc ≠ .error .invalid := by
  unfold gglBufClone
  split
  · exact nofun
  split <;> exact nofun

/-- A version conflict is one with a component that is already in the list. -/
theorem addGroupRoot_conflict {root : Buffer × GglObject}
    (conflict : addGroupRoot state root = .error .invalid) :
    ∃ existing, (root.1, existing) ∈ state.toResolve.items ∧
      existing ≠ storedRequirement root.2 := by
  revert conflict
  fun_cases addGroupRoot state root with
  | case1 => rintro ⟨⟩
  | case2 existing found different =>
    obtain ⟨before, after, split, _⟩ := lookup_eq_some_iff.mp found
    rw [split]
    exact fun _ => ⟨existing, mem_append_right _ mem_cons_self, different⟩
  | case3 absent =>
    -- Only the two copies can fail here, and they fail for want of memory.
    cases named : gglBufClone 64 root.1 state.alloc with
    | error error =>
      rintro ⟨⟩
      exact absurd named (gglBufClone_ne_invalid _ _ _)
    | ok alloc =>
      cases required : gglBufClone 64 (storedRequirement root.2) state.requirements with
      | error error =>
        rintro ⟨⟩
        exact absurd required (gglBufClone_ne_invalid _ _ _)
      | ok requirements => rintro ⟨⟩

end Collecting

/-- In every run whose deployments are all lasting, a later deployment reads back
for every other group exactly the root components of its latest deployment, and
only these are resolved or conflict with its own. -/
theorem stored_roots_latest {start : Ggconfigd} (inv : start.Inv)
    (fresh : ∀ path value time, start.configDatabase.Stored path value time →
      ¬groupsPath <+: path)
    (run : Run (ConfigStep printG decoder) start history daemon)
    (lasting : AllLasting printG decoder history) (later : GroupDeployment σ) :
    GoesByLatest printG decoder history daemon later := by
  obtain ⟨map, represents, daemonInv, stores⟩ := storesLatest_of_run inv fresh run lasting
  obtain ⟨written, writtenRepresents, writtenInv, merged⟩ :=
    @GroupDeployment.writeRoots_merged σ printG daemon map later represents daemonInv later.roots
  have reads : ∀ group, group ≠ later.thingGroupName →
      ReadsLatest
        (rpcRead decoder noFault (later.written printG daemon) (readArguments (rootsPath group)))
        (latestRoots history group) := by
    intro group other
    apply stores.readsLatest lasting writtenRepresents writtenInv
    intro rest
    apply merged.others
    intro member
    obtain ⟨root, _, path⟩ := mem_rootLeaves_paths_iff.mp member
    exact other (rootsPath_append_inj.mp path).1.symm
  have asked : ∀ group alloc stored, group ≠ later.thingGroupName →
      ((later.contextOn printG decoder daemon).readGroup group alloc).1 = .ok (.map stored) →
      ∀ root ∈ stored, Asked history later (root.1, storedRequirement root.2) := by
    intro group alloc stored other read root member
    have answered := reads group other
    rw [method_of_gglGgConfigRead read] at answered
    cases latest : latestRoots history group with
    | none =>
      rw [latest] at answered
      cases answered
    | some found =>
      rw [latest] at answered
      obtain ⟨order, perm, same⟩ := answered
      cases same
      obtain ⟨entry, entryMember, rfl⟩ := mem_map.mp member
      exact .inr ⟨group, found.1, found.2, other, latest, perm.mem_iff.mp entryMember⟩
  refine ⟨reads, ?_, ?_⟩
  · intro collected
    exact collectRoots_forall asked fun _ => .inl
  · intro group alloc stored other read root member state entries conflict
    obtain ⟨existing, existingMember, different⟩ := addGroupRoot_conflict conflict
    exact ⟨root.1, existing, storedRequirement root.2, different, entries _ existingMember,
      asked group alloc stored other read root member⟩

/-! ## Two groups -/

section TwoGroups

/-- Strings without escapes are decoded by taking off their quotes. -/
def plainDecoder : JsonDecoder where
  decode text alloc :=
    match text with
    | 34 :: rest => (.ok (.buf rest.dropLast), alloc)
    | _ => (.error .parse, alloc)
  damaged text := text
  mistaken _ := []

/-- A core bus on which nothing is lost. -/
def losslessTransport : Transport where
  deliver _ := .ok ()
  receive object alloc := (.ok object, alloc)
  intact received := (Except.ok.inj received).symm

/-- The decoded response of a device in two thing groups. -/
def twoGroupsResponse : GglObject :=
  .map [(gglStr "thingGroups", .list
    [.map [(gglStr "thingGroupName", .buf (gglStr "fleet"))],
      .map [(gglStr "thingGroupName", .buf (gglStr "site"))]])]

/-- A deployment of components on a device where version 1.0.0 of each is
active. -/
def groupDeployment (group : String) (first : String × String) (others : List (String × String))
    (now : Int) : GroupDeployment Unit where
  thingGroupName := gglStr group
  rootComponents := (first :: others).map fun root =>
    (gglStr root.1, .map [(gglStr "version", .buf (gglStr root.2))])
  nonempty := cons_ne_nil _ _
  now := now
  alloc := gglBumpAllocInit 8192
  world := ()
  transport := losslessTransport
  context := respondingContext "thing groups" twoGroupsResponse

/-- The configuration after a deployment of two components to the fleet. -/
def afterFleet : Ggconfigd :=
  (groupDeployment "fleet" ("a", "1.0.0") [("b", "1.0.0")] 1).written (fun _ => [])
    opened

theorem run_afterFleet :
    Run (ConfigStep (fun _ => []) plainDecoder) opened
      [.deployed (gglStr "fleet")
        [(gglStr "a", gglStr "1.0.0"), (gglStr "b", gglStr "1.0.0")] 1] afterFleet := by
  have resolved : (groupDeployment "fleet" ("a", "1.0.0") [("b", "1.0.0")] 1).resolve
      (fun _ => []) plainDecoder opened =
      some (.ok [(gglStr "a", gglStr "1.0.0"), (gglStr "b", gglStr "1.0.0")]) := by
    decide +kernel
  exact .tail .refl (.deploy _ resolved)

/-- The pairs of a map that a read answers. -/
def answeredPairs : Except GglError GglObject → GglMap
  | .ok (.map pairs) => pairs
  | _ => []

/-- The fleet no longer names a component, and a deployment of another group still
fails because of its version. -/
theorem removed_root_conflicts :
    let smaller := groupDeployment "fleet" ("a", "1.0.0") [] 2
    let later := groupDeployment "site" ("b", "2.0.0") [] 3
    let daemon := smaller.written (fun _ => []) afterFleet
    let history := [.deployed (gglStr "fleet") [(gglStr "a", gglStr "1.0.0")] 2,
      .deployed (gglStr "fleet") [(gglStr "a", gglStr "1.0.0"), (gglStr "b", gglStr "1.0.0")] 1]
    Run (ConfigStep (fun _ => []) plainDecoder) opened history daemon ∧
      later.resolve (fun _ => []) plainDecoder daemon = some (.error .invalid) ∧
      ¬GoesByLatest (fun _ => []) plainDecoder history daemon later := by
  intro smaller later daemon history
  have resolved : smaller.resolve (fun _ => []) plainDecoder afterFleet =
      some (.ok [(gglStr "a", gglStr "1.0.0")]) := by
    decide +kernel
  refine ⟨.tail run_afterFleet (.deploy smaller resolved), by decide +kernel, ?_⟩
  intro goes
  obtain ⟨order, perm, answer⟩ := goes.reads (gglStr "fleet") (by decide)
  have two : (answeredPairs (rpcRead plainDecoder noFault (later.written (fun _ => []) daemon)
      (readArguments (rootsPath (gglStr "fleet"))))).length = 2 := by
    decide +kernel
  rw [answer] at two
  have one : (stringMap order).length = 1 := by
    rw [stringMap, length_map, perm.length_eq]
    rfl
  exact absurd (one.symm.trans two) (by decide)

/-- The fleet keeps its components with another requirement for one of them, and a
deployment of another group goes by it. -/
theorem stored_roots_latest_example :
    let kept := groupDeployment "fleet" ("b", ">=1.0.0") [("a", "1.0.0")] 2
    let later := groupDeployment "site" ("c", "1.0.0") [] 3
    let daemon := kept.written (fun _ => []) afterFleet
    let history := [.deployed (gglStr "fleet")
        [(gglStr "b", gglStr ">=1.0.0"), (gglStr "a", gglStr "1.0.0")] 2,
      .deployed (gglStr "fleet") [(gglStr "a", gglStr "1.0.0"), (gglStr "b", gglStr "1.0.0")] 1]
    GoesByLatest (fun _ => []) plainDecoder history daemon later ∧
      later.resolve (fun _ => []) plainDecoder daemon =
        some (.ok [(gglStr "c", gglStr "1.0.0"), (gglStr "a", gglStr "1.0.0"),
          (gglStr "b", gglStr "1.0.0")]) := by
  intro kept later daemon history
  have resolved : kept.resolve (fun _ => []) plainDecoder afterFleet =
      some (.ok [(gglStr "b", gglStr "1.0.0"), (gglStr "a", gglStr "1.0.0")]) := by
    decide +kernel
  have exactly : plainDecoder.Restores (storedText (fun _ => []) (gglStr "1.0.0"))
      (gglStr "1.0.0") := by
    have text : storedText (fun _ => []) (gglStr "1.0.0") = gglStr "\"1.0.0\"" := by
      decide +kernel
    rw [text]
    exact fun alloc => ⟨alloc, rfl⟩
  have atLeast : plainDecoder.Restores (storedText (fun _ => []) (gglStr ">=1.0.0"))
      (gglStr ">=1.0.0") := by
    have text : storedText (fun _ => []) (gglStr ">=1.0.0") = gglStr "\">=1.0.0\"" := by
      decide +kernel
    exact fun alloc => ⟨alloc, rfl⟩
  have lasting : AllLasting (fun _ => []) plainDecoder history := by
    refine ⟨⟨by decide, ?_, ?_, by decide +kernel⟩, ⟨by decide, nofun, ?_, by decide +kernel⟩,
      trivial⟩
    · rintro previous time ⟨rfl, rfl⟩
      decide
    · exact forall_mem_cons.mpr ⟨atLeast, forall_mem_singleton.mpr exactly⟩
    · exact forall_mem_cons.mpr ⟨exactly, forall_mem_singleton.mpr exactly⟩
  refine ⟨stored_roots_latest inv_opened ?_
    (.tail run_afterFleet (.deploy kept resolved)) lasting later, by decide +kernel⟩
  intro path value time stored
  simp [opened, Database.Stored, Database.created] at stored

end TwoGroups

end GreengrassLite.Deployment

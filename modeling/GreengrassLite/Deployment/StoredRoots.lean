import GreengrassLite.Config.ReadBack
import GreengrassLite.Deployment.RootCoverage
import GreengrassLite.Library.Run

/-!
# The stored root components of the thing groups

`resolve_dependencies` of `ggdeploymentd/src/deployment_handler.c` writes the
root components of its deployment to the configuration, below
`services/DeploymentService/thingGroupsToRootComponents` and the name of the
thing group.  A later deployment of another group reads them back and resolves
them together with its own.

The configuration merges what is written with what is there.  It never deletes
a key, so a component that a new deployment of a group no longer names stays
stored for the group: it is still resolved, and its version can still conflict.
The theorem here says when the root components that are read back for a group
are those of its latest deployment.
-/

namespace GreengrassLite.Deployment

open Config Library List

/-- `services/DeploymentService/thingGroupsToRootComponents`. -/
def groupsPath : List Buffer :=
  [gglStr "services", gglStr "DeploymentService", gglStr "thingGroupsToRootComponents"]

/-- Where the root components of a thing group are stored. -/
def rootsPath (group : Buffer) : List Buffer :=
  groupsPath ++ [group]

/-- The names and requirements of the root components of a deployment. -/
def deploymentRoots (rootComponents : GglMap) : List (Buffer × Buffer) :=
  match rootComponents.foldlM addRoot (Vec.empty _ maxComponents) with
  | .ok toResolve => toResolve.items
  | .error _ => []

/-- A call of `resolve_dependencies` at the time `now`. -/
structure GroupDeployment (σ : Type) where
  thingGroupName : Buffer
  rootComponents : GglMap
  /-- The assertion at the start of the function. -/
  nonempty : rootComponents ≠ []
  now : Int
  alloc : BumpAlloc
  world : σ
  /-- The core bus to the configuration. -/
  transport : Transport
  /-- The rest of the system. -/
  context : ResolveContext σ

section Source

variable {σ : Type} (printG : UInt64 → Buffer) (decoder : JsonDecoder)
  (deployment : GroupDeployment σ)

/-- The root components of the deployment. -/
def GroupDeployment.roots : List (Buffer × Buffer) :=
  deploymentRoots deployment.rootComponents

/-- The write of root components for the own thing group. -/
def GroupDeployment.writeRoots (roots : List (Buffer × Buffer)) (daemon : Ggconfigd) :
    Except GglError Unit × Ggconfigd :=
  gglGgConfigWrite deployment.transport.deliver
    (rpcWrite printG (ggconfigWriteValueAtKey noFault) deployment.now)
    (rootsPath deployment.thingGroupName) (.map (stringMap roots)) none daemon

/-- The configuration after the write of the deployment. -/
def GroupDeployment.written (daemon : Ggconfigd) : Ggconfigd :=
  (deployment.writeRoots printG deployment.roots daemon).2

/-- The system around the deployment, with this configuration daemon. -/
def GroupDeployment.contextOn (daemon : Ggconfigd) : ResolveContext σ :=
  { deployment.context with
    writeRoots := fun roots => (deployment.writeRoots printG roots daemon).1
    readGroup := fun group alloc => gglGgConfigRead deployment.transport
      (rpcRead decoder noFault (deployment.written printG daemon)) (rootsPath group) alloc }

/-- `resolve_dependencies` with this configuration daemon. -/
def GroupDeployment.resolve (daemon : Ggconfigd) :
    Option (Except GglError (List (Buffer × Buffer))) :=
  resolveDependencies (deployment.contextOn printG decoder daemon) deployment.thingGroupName
    deployment.rootComponents deployment.alloc deployment.world

end Source

/-! ## Histories of deployments -/

/-- What happens to the configuration. -/
inductive ConfigEvent where
  /-- A deployment of a thing group succeeded. -/
  | deployed (group : Buffer) (roots : List (Buffer × Buffer)) (now : Int)
  /-- Some other call was served. -/
  | served

/-- The root components of the latest deployment of a group, and its time. -/
def latestRoots : List ConfigEvent → Buffer → Option (List (Buffer × Buffer) × Int)
  | [], _ => none
  | .deployed group roots now :: earlier, other =>
    if group = other then some (roots, now) else latestRoots earlier other
  | .served :: earlier, other => latestRoots earlier other

/-- The successful deployments, and calls that write nothing among the stored
root components. -/
inductive ConfigStep (printG : UInt64 → Buffer) (decoder : JsonDecoder) :
    Ggconfigd → ConfigEvent → Ggconfigd → Prop
  | deploy {σ daemon} (deployment : GroupDeployment σ)
      {resolved} :
      deployment.resolve printG decoder daemon = some (.ok resolved) →
      ConfigStep printG decoder daemon
        (.deployed deployment.thingGroupName deployment.roots deployment.now)
        (deployment.written printG daemon)
  | serve {daemon} (call : Call) : call.Valid →
      (∀ keyPath value timestamp, call = .write keyPath value timestamp →
        ¬groupsPath <+: keyPath) →
      ConfigStep printG decoder daemon .served (serve daemon call).2

/-- What a read of the root components of a group answers if they are those of
its latest deployment. -/
def ReadsLatest (answer : Except GglError GglObject) :
    Option (List (Buffer × Buffer) × Int) → Prop
  | none => answer = .error .noentry
  | some (roots, _) => ∃ order, order.Perm roots ∧ answer = .ok (.map (stringMap order))

/-! ## What lasts -/

section Lasting

variable (printG : UInt64 → Buffer) (decoder : JsonDecoder)

/-- After this history a deployment leaves exactly its own root components: it
names each once, it names those of the previous deployment of the group again and
its time is not before the time of that one.  What it stores can be read. -/
structure Lasting (history : List ConfigEvent) (group : Buffer)
    (roots : List (Buffer × Buffer)) (now : Int) : Prop where
  distinct : (roots.map Prod.fst).Nodup
  keeps : ∀ previous time, latestRoots history group = some (previous, time) →
    (∀ root ∈ previous, root.1 ∈ roots.map Prod.fst) ∧ time ≤ now
  restores : ∀ root ∈ roots, decoder.Restores (storedText printG root.2) root.2
  fits : readSize (.map (stringMap (storedTexts printG roots))) ≤ corebusMaxMsgLen

/-- Every deployment of the history was of this kind. -/
def AllLasting : List ConfigEvent → Prop
  | [] => True
  | .deployed group roots now :: earlier =>
    Lasting printG decoder earlier group roots now ∧ AllLasting earlier
  | .served :: earlier => AllLasting earlier

/-- Exactly the latest root components of every group are stored. -/
structure StoresLatest (history : List ConfigEvent) (map : ConfigMap) : Prop where
  stored : ∀ group rest value time,
    map.lookup (rootsPath group ++ rest) = some (value, time) ↔
      ∃ roots, latestRoots history group = some (roots, time) ∧
        ∃ name, rest = [name] ∧ (name, value) ∈ storedTexts printG roots
  nonempty : ∀ group roots time, latestRoots history group = some (roots, time) → roots ≠ []

end Lasting

variable {σ : Type} {printG : UInt64 → Buffer} {decoder : JsonDecoder}
  {history : List ConfigEvent} {daemon : Ggconfigd} {map : ConfigMap} {group : Buffer}
  {roots : List (Buffer × Buffer)}

theorem AllLasting.latest (lasting : AllLasting printG decoder history) {time : Int}
    (latest : latestRoots history group = some (roots, time)) :
    ∃ earlier, Lasting printG decoder earlier group roots time := by
  induction history with
  | nil => cases latest
  | cons event earlier ih =>
    cases event with
    | deployed other otherRoots now =>
      rw [latestRoots] at latest
      split at latest
      · rename_i same
        obtain ⟨rfl, rfl⟩ := Prod.mk.inj (Option.some.inj latest)
        exact ⟨earlier, same ▸ lasting.1⟩
      · exact ih lasting.2 latest
    | served => exact ih lasting latest

/-! ## The paths of the root components -/

@[simp]
theorem rootsPath_append_inj {other : Buffer} {rest otherRest : List Buffer} :
    rootsPath group ++ rest = rootsPath other ++ otherRest ↔ group = other ∧ rest = otherRest := by
  rw [rootsPath, rootsPath, append_assoc, append_assoc, append_cancel_left_eq]
  exact cons_eq_cons

theorem groupsPath_isPrefix (group : Buffer) (rest : List Buffer) :
    groupsPath <+: rootsPath group ++ rest :=
  ⟨group :: rest, by simp [rootsPath]⟩

theorem rootsPath_ne_nil (group : Buffer) : rootsPath group ≠ [] := by
  simp [rootsPath]

theorem rootsPath_short (group : Buffer) : (rootsPath group).length < maxObjectDepth := by
  simp [rootsPath, groupsPath, maxObjectDepth]

/-! ## The write of a deployment -/

/-- The values a write of root components for a group brings in. -/
def rootLeaves (group : Buffer) (roots : List (Buffer × Buffer)) :
    List (List Buffer × GglObject) :=
  roots.map fun root => (rootsPath group ++ [root.1], .buf root.2)

@[simp]
theorem mem_rootLeaves_paths_iff {path : List Buffer} :
    path ∈ (rootLeaves group roots).map Prod.fst ↔
      ∃ root ∈ roots, rootsPath group ++ [root.1] = path := by
  rw [rootLeaves, map_map, mem_map]
  rfl

theorem nodup_rootLeaves_paths (group : Buffer) (distinct : (roots.map Prod.fst).Nodup) :
    ((rootLeaves group roots).map Prod.fst).Nodup := by
  apply List.Nodup.of_map getLast?
  have names : ((rootLeaves group roots).map Prod.fst).map getLast? =
      (roots.map Prod.fst).map some := by
    simp [rootLeaves, Function.comp_def]
  rw [names]
  exact distinct.map (Option.some_injective _)

/-- A resolution that does not end with an error has written its root
components. -/
theorem collectRoots_wrote {context : ResolveContext σ} {thingGroupName : Buffer}
    {rootComponents : GglMap} {alloc : BumpAlloc}
    (noError : ∀ error,
      collectRoots context thingGroupName rootComponents alloc ≠ .error (some error)) :
    ∃ toResolve, rootComponents.foldlM addRoot (Vec.empty _ maxComponents) = .ok toResolve ∧
      context.writeRoots toResolve.items = .ok () := by
  unfold collectRoots at noError
  cases named : rootComponents.foldlM addRoot (Vec.empty _ maxComponents) with
  | error error =>
    refine absurd ?_ (noError error)
    rw [named]
    rfl
  | ok toResolve =>
    cases written : context.writeRoots toResolve.items with
    | error error =>
      refine absurd ?_ (noError error)
      simp only [named, written, Except.mapError, bind, Except.bind]
    | ok done => exact ⟨toResolve, rfl, written⟩

/-- A successful deployment has written its root components, and it has some. -/
theorem GroupDeployment.resolve_ok {deployment : GroupDeployment σ}
    {resolved : List (Buffer × Buffer)}
    (ok : deployment.resolve printG decoder daemon = some (.ok resolved)) :
    (deployment.writeRoots printG deployment.roots daemon).1 = .ok () ∧
      deployment.roots ≠ [] := by
  have noError : ∀ error, collectRoots (deployment.contextOn printG decoder daemon)
      deployment.thingGroupName deployment.rootComponents deployment.alloc ≠
        .error (some error) := by
    intro error failed
    rw [GroupDeployment.resolve, resolveDependencies, failed] at ok
    cases ok
  obtain ⟨toResolve, named, written⟩ := collectRoots_wrote noError
  have roots : deployment.roots = toResolve.items := by
    rw [GroupDeployment.roots, deploymentRoots, named]
  rw [roots]
  refine ⟨written, ?_⟩
  intro empty
  have names := foldlM_addRoot_ok named
  rw [componentNames, empty] at names
  exact deployment.nonempty (map_eq_nil_iff.mp names.symm)

/-- The write of a deployment changes only the entries of its root components,
and a success has recorded all of them. -/
theorem GroupDeployment.writeRoots_merged (deployment : GroupDeployment σ)
    (represents : daemon.Represents map) (inv : daemon.Inv) (roots : List (Buffer × Buffer)) :
    ∃ written, (deployment.writeRoots printG roots daemon).2.Represents written ∧
      (deployment.writeRoots printG roots daemon).2.Inv ∧
      Merged printG map written deployment.now (rootLeaves deployment.thingGroupName roots)
        (deployment.writeRoots printG roots daemon).1 := by
  have room := rootsPath_short deployment.thingGroupName
  rcases gglGgConfigWrite_cases deployment.transport.deliver
      (rpcWrite printG (ggconfigWriteValueAtKey noFault) deployment.now)
      (rootsPath deployment.thingGroupName) (.map (stringMap roots)) none daemon with
    ⟨error, refused⟩ | served
  · rw [GroupDeployment.writeRoots, refused]
    refine ⟨map, represents, inv, fun _ _ => rfl, ?_⟩
    intro succeeded
    cases succeeded
  · have request := requests_writeArguments deployment.now
      (rootsPath deployment.thingGroupName) (.map (stringMap roots)) none
    rw [GroupDeployment.writeRoots, served, request.rpcWrite_eq room.le,
      reached_stringMap room]
    apply writeLeaves_merged represents inv
    intro leaf member
    obtain ⟨root, _, rfl⟩ := mem_map.mp member
    constructor
    · simp
    · exact room

/-! ## Along a run -/

/-- Nothing changes for the stored root components when their entries stay. -/
theorem StoresLatest.of_agree {changed : ConfigMap} (stores : StoresLatest printG history map)
    (agree : ∀ group rest, changed.lookup (rootsPath group ++ rest) =
      map.lookup (rootsPath group ++ rest)) : StoresLatest printG history changed where
  stored group rest value time := by
    rw [agree]
    exact stores.stored group rest value time
  nonempty := stores.nonempty

/-- The entry of a root component that was named once is its own. -/
theorem mem_storedTexts_iff (distinct : (roots.map Prod.fst).Nodup) {root : Buffer × Buffer}
    (member : root ∈ roots) {value : Buffer} :
    (root.1, value) ∈ storedTexts printG roots ↔ value = storedText printG root.2 := by
  rw [storedTexts, mem_map]
  constructor
  · rintro ⟨other, otherMember, equal⟩
    obtain ⟨sameName, rfl⟩ := Prod.mk.inj equal
    rw [inj_on_of_nodup_map distinct otherMember member sameName]
  · rintro rfl
    exact ⟨root, member, rfl⟩

theorem exists_root_of_mem_storedTexts {name value : Buffer}
    (member : (name, value) ∈ storedTexts printG roots) : name ∈ roots.map Prod.fst := by
  obtain ⟨root, rootMember, equal⟩ := mem_map.mp member
  obtain ⟨rfl, _⟩ := Prod.mk.inj equal
  exact mem_map_of_mem rootMember

/-- A lasting deployment replaces the stored root components of its group. -/
theorem StoresLatest.deploy (stores : StoresLatest printG history map) {written : ConfigMap}
    {now : Int} (nonempty : roots ≠ []) (lasting : Lasting printG decoder history group roots now)
    (merged : Merged printG map written now (rootLeaves group roots) (.ok ())) :
    StoresLatest printG (.deployed group roots now :: history) written := by
  have notNewer : ∀ leaf ∈ rootLeaves group roots, ∀ value time,
      map.lookup leaf.1 = some (value, time) → time ≤ now := by
    intro leaf leafMember value time found
    obtain ⟨root, _, rfl⟩ := mem_map.mp leafMember
    obtain ⟨previous, latest, _⟩ := (stores.stored group [root.1] value time).mp found
    exact (lasting.keeps previous time latest).2
  have recorded : ∀ root ∈ roots, written.lookup (rootsPath group ++ [root.1]) =
      some (storedText printG root.2, now) := by
    intro root member
    obtain ⟨text, encoded, found⟩ := merged.recorded rfl
      (nodup_rootLeaves_paths group lasting.distinct) notNewer _ (mem_map_of_mem member)
    rw [found, storedText, encoded]
  have others : ∀ other rest, (∀ root ∈ roots, group = other → rest ≠ [root.1]) →
      written.lookup (rootsPath other ++ rest) = map.lookup (rootsPath other ++ rest) := by
    intro other rest elsewhere
    apply merged.others
    intro member
    obtain ⟨root, rootMember, path⟩ := mem_rootLeaves_paths_iff.mp member
    obtain ⟨rfl, rfl⟩ := rootsPath_append_inj.mp path
    exact elsewhere root rootMember rfl rfl
  constructor
  · intro other rest value time
    rw [latestRoots]
    by_cases own : group = other
    · subst own
      rw [if_pos rfl]
      by_cases isRoot : ∃ root ∈ roots, rest = [root.1]
      · obtain ⟨root, member, rfl⟩ := isRoot
        rw [recorded root member]
        constructor
        · intro equal
          obtain ⟨rfl, rfl⟩ := Prod.mk.inj (Option.some.inj equal)
          exact ⟨roots, rfl, root.1, rfl, (mem_storedTexts_iff lasting.distinct member).mpr rfl⟩
        · rintro ⟨latest, equal, name, path, isText⟩
          obtain ⟨rfl, rfl⟩ := Prod.mk.inj (Option.some.inj equal)
          obtain ⟨rfl, _⟩ := cons.inj path
          rw [(mem_storedTexts_iff lasting.distinct member).mp isText]
      · -- Whatever was stored besides would belong to the previous deployment.
        have named : ∀ name, rest = [name] → name ∉ roots.map Prod.fst := by
          rintro name rfl member
          obtain ⟨root, rootMember, rfl⟩ := mem_map.mp member
          exact isRoot ⟨root, rootMember, rfl⟩
        rw [others group rest fun root member _ path => isRoot ⟨root, member, path⟩,
          stores.stored]
        constructor
        · rintro ⟨previous, latest, name, path, isText⟩
          obtain ⟨root, rootMember, rfl⟩ :=
            mem_map.mp (exists_root_of_mem_storedTexts isText)
          exact absurd ((lasting.keeps previous time latest).1 root rootMember)
            (named root.1 path)
        · rintro ⟨latest, equal, name, path, isText⟩
          obtain ⟨rfl, rfl⟩ := Prod.mk.inj (Option.some.inj equal)
          exact absurd (exists_root_of_mem_storedTexts isText) (named name path)
    · rw [if_neg own, others other rest fun _ _ same => absurd same own, stores.stored]
  · intro other latest time found
    rw [latestRoots] at found
    split at found
    · obtain ⟨rfl, rfl⟩ := Prod.mk.inj (Option.some.inj found)
      exact nonempty
    · exact stores.nonempty other latest time found

/-- A configuration with nothing among the stored root components. -/
theorem storesLatest_nil {start : ConfigMap}
    (fresh : ∀ path, start.lookup path ≠ none → ¬groupsPath <+: path) :
    StoresLatest printG [] start where
  stored group rest value time := by
    constructor
    · intro found
      exact absurd (groupsPath_isPrefix group rest) (fresh _ (by simp [found]))
    · rintro ⟨roots, latest, _⟩
      cases latest
  nonempty group roots time latest := by cases latest

/-- Another call keeps the entries of the root components. -/
theorem StoresLatest.serve (stores : StoresLatest printG history map) {call : Call}
    (elsewhere : ∀ keyPath value timestamp, call = .write keyPath value timestamp →
      ¬groupsPath <+: keyPath) :
    StoresLatest printG (.served :: history) (specServe map call).2 := by
  have agree : StoresLatest printG history (specServe map call).2 := by
    cases call with
    | write keyPath value timestamp =>
      apply stores.of_agree
      intro group rest
      apply map.lookup_write_of_ne
      rintro rfl
      exact elsewhere _ value timestamp rfl (groupsPath_isPrefix group rest)
    | read | subscribe => exact stores
  exact ⟨agree.stored, agree.nonempty⟩

/-- Along a run of lasting deployments exactly the latest root components are
stored. -/
theorem storesLatest_of_run {start : Ggconfigd} (inv : start.Inv)
    (fresh : ∀ path value time, start.configDatabase.Stored path value time →
      ¬groupsPath <+: path)
    (run : Run (ConfigStep printG decoder) start history daemon)
    (lasting : AllLasting printG decoder history) :
    ∃ map, daemon.Represents map ∧ daemon.Inv ∧ StoresLatest printG history map := by
  induction run with
  | refl =>
    have represents := Ggconfigd.represents_contents inv.tables.toWf
    refine ⟨_, represents, inv, storesLatest_nil ?_⟩
    intro path stored
    obtain ⟨value, time, here⟩ := represents.exists_stored stored
    exact fresh path value time here
  | tail _ stepped ih =>
    cases stepped with
    | deploy deployment succeeded =>
      obtain ⟨map, represents, daemonInv, stores⟩ := ih lasting.2
      obtain ⟨ok, nonempty⟩ := GroupDeployment.resolve_ok succeeded
      obtain ⟨written, writtenRepresents, writtenInv, merged⟩ :=
        deployment.writeRoots_merged represents daemonInv deployment.roots
      rw [ok] at merged
      exact ⟨written, writtenRepresents, writtenInv, stores.deploy nonempty lasting.1 merged⟩
    | serve call valid elsewhere =>
      obtain ⟨map, represents, daemonInv, stores⟩ := ih lasting
      exact ⟨_, (serve_refines represents daemonInv valid).2, serve_inv daemonInv valid,
        stores.serve elsewhere⟩

/-! ## Reading back -/

/-- The root components stored for a group are what a read answers, also on a
configuration that has changed elsewhere. -/
theorem StoresLatest.readsLatest {changed : ConfigMap} (stores : StoresLatest printG history map)
    (lasting : AllLasting printG decoder history) (represents : daemon.Represents changed)
    (inv : daemon.Inv)
    (agree : ∀ rest, changed.lookup (rootsPath group ++ rest) =
      map.lookup (rootsPath group ++ rest)) :
    ReadsLatest (rpcRead decoder noFault daemon (readArguments (rootsPath group)))
      (latestRoots history group) := by
  have short := (rootsPath_short group).le
  cases latest : latestRoots history group with
  | none =>
    apply rpcRead_of_missing represents inv (rootsPath_ne_nil group) short
    intro rest
    rw [agree, Option.eq_none_iff_forall_ne_some]
    rintro ⟨value, time⟩ found
    obtain ⟨roots, other, _⟩ := (stores.stored group rest value time).mp found
    rw [latest] at other
    cases other
  | some stored =>
    obtain ⟨roots, time⟩ := stored
    obtain ⟨earlier, lasts⟩ := lasting.latest latest
    apply rpcRead_of_strings represents inv (rootsPath_ne_nil group) short
      (stores.nonempty group roots time latest) lasts.distinct _ lasts.restores lasts.fits
    intro rest value
    rw [agree]
    constructor
    · rintro ⟨storedTime, found⟩
      obtain ⟨others, same, named⟩ := (stores.stored group rest value storedTime).mp found
      rw [latest] at same
      obtain ⟨rfl, _⟩ := Prod.mk.inj (Option.some.inj same)
      exact named
    · intro named
      exact ⟨time, (stores.stored group rest value time).mpr ⟨roots, latest, named⟩⟩

end GreengrassLite.Deployment

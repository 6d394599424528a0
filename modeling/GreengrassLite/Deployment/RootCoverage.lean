import GreengrassLite.Deployment.Resolution
import GreengrassLite.Library.BoundedInsert

/-!
# Coverage of the root components

The components that `resolve_dependencies` resolves are those that a later
cleanup keeps, so a root component that is missing among them is removed from
the device.  The theorem here says when a successful resolution has every root
component of the deployment and of the other thing groups once.

Four things go wrong.  A response about the thing groups that decodes but has
another shape makes the function return success with nothing resolved.  A root
component of another group that finds the vector full is dropped.  A component
that the deployment names twice is resolved twice.  And a group whose root
components do not fit the memory that is left is taken to have none.
-/

namespace GreengrassLite.Deployment

open Library List

variable {rootComponents : GglMap}
  {resolved : List (Buffer × Buffer)}

/-! ## Purpose -/

section Purpose

variable {σ : Type} (context : ResolveContext σ) (stored : Buffer → Option GglObject)
  (thingGroupName : Buffer)

/-- The names in a map of root components. -/
def rootNames : GglObject → List Buffer
  | .map roots => roots.map Prod.fst
  | _ => []

/-- What is stored for a thing group of the device, unless it is the group of the
deployment. -/
def itemStored : GglObject → Option GglObject
  | .map fields =>
    match gglMapGet fields (gglStr "thingGroupName") with
    | some (.buf group) => if group = thingGroupName then none else stored group
    | _ => none
  | _ => none

/-- The root components that a thing group of the device brings in. -/
def itemRoots (item : GglObject) : List Buffer :=
  (itemStored stored thingGroupName item).elim [] rootNames

/-- The thing groups that the response lists. -/
def listedItems : List GglObject :=
  match context.deviceThingGroups >>= context.jsonDecode with
  | .ok response =>
    match thingGroupItems response with
    | .ok items => items
    | .error _ => []
  | .error _ => []

/-- The root components of the deployment and of the other groups. -/
def allRoots (rootComponents : GglMap) : List Buffer :=
  rootComponents.map Prod.fst ++ (listedItems context).flatMap (itemRoots stored thingGroupName)

/-- Every root component is resolved exactly once. -/
def Covers (rootComponents : GglMap) (resolved : List (Buffer × Buffer)) : Prop :=
  ∀ name ∈ allRoots context stored thingGroupName rootComponents,
    (resolved.map Prod.fst).count name = 1

/-- The response decodes to a map whose `thingGroups` is a list of maps. -/
def WellShaped : Prop :=
  ∃ body fields items, context.deviceThingGroups = .ok body ∧
    context.jsonDecode body = .ok (.map fields) ∧
    gglMapGet fields (gglStr "thingGroups") = some (.list items) ∧
    ∀ item ∈ items, ∃ itemFields, item = .map itemFields

/-- The configuration answers what is stored for a thing group, if it fits the
memory. -/
def ReadsStored : Prop :=
  ∀ group alloc, match stored group with
    | some object => ∀ left, bumpAllocator.allocAll alloc (object.requests true) = some left →
        context.readGroup group alloc = (.ok object, left)
    | none => ∃ error, context.readGroup group alloc = (.error error, alloc)

/-- The memory after the names that are new were copied. -/
def cloneNew : List Buffer → BumpAlloc → List Buffer → BumpAlloc
  | _, alloc, [] => alloc
  | names, alloc, name :: rest =>
    cloneNew (insertWithin maxComponents names name)
      (if names.contains name then alloc else (gglBufClone 64 name alloc).toOption.getD alloc) rest

/-- Each of the other groups fits the memory that is left when it is read. -/
def RoomFor : List Buffer → BumpAlloc → List GglObject → Prop
  | _, _, [] => True
  | names, alloc, item :: items =>
    match itemStored stored thingGroupName item with
    | none => RoomFor names alloc items
    | some object => ∃ left, bumpAllocator.allocAll alloc (object.requests true) = some left ∧
        RoomFor (insertAllWithin maxComponents names (rootNames object))
          (cloneNew names left (rootNames object)) items

end Purpose

/-! ## The names of the components to resolve -/

/-- The names in the vector. -/
def componentNames (vector : Vec (Buffer × Buffer) maxComponents) : List Buffer :=
  vector.items.map Prod.fst

/-- The root components of the deployment are taken as they are. -/
theorem foldlM_addRoot_ok {before after : Vec (Buffer × Buffer) maxComponents}
    (ok : rootComponents.foldlM addRoot before = .ok after) :
    componentNames after = componentNames before ++ rootComponents.map Prod.fst := by
  induction rootComponents generalizing before with
  | nil =>
    cases ok
    simp
  | cons root rest ih =>
    rw [foldlM_cons, except_bind_eq_ok_iff] at ok
    rcases ok with ⟨middle, first, later⟩
    simp only [addRoot, except_bind_eq_ok_iff] at first
    rcases first with ⟨requirement, _, pushed⟩
    rw [ih later, componentNames, Vec.items_of_push_eq_ok pushed, componentNames]
    simp

variable {root : Buffer × GglObject}

/-- A root component of another group is there with the same requirement, or its
name is copied and it is pushed. -/
theorem addGroupRoot_cases {state next : RootState} (ok : addGroupRoot state root = .ok next) :
    (state.toResolve.items.lookup root.1 = some (storedRequirement root.2) ∧
        next.toResolve = state.toResolve ∧ next.alloc = state.alloc) ∨
      (state.toResolve.items.lookup root.1 = none ∧
        next.toResolve = state.toResolve.keep
          (gglKvVecPush state.toResolve (root.1, storedRequirement root.2)) ∧
        gglBufClone 64 root.1 state.alloc = .ok next.alloc) := by
  unfold addGroupRoot at ok
  cases found : state.toResolve.items.lookup root.1 with
  | some existing =>
    simp only [found] at ok
    split at ok
    · rename_i same
      cases ok
      exact .inl ⟨congrArg some same, rfl, rfl⟩
    · cases ok
  | none =>
    simp only [found, except_bind_eq_ok_iff] at ok
    rcases ok with ⟨alloc, cloned, requirements, _, stored⟩
    cases stored
    exact .inr ⟨rfl, rfl, cloned⟩

/-- A root component of another group is inserted if it is new and there is
room. -/
theorem addGroupRoot_ok {state next : RootState} (ok : addGroupRoot state root = .ok next) :
    componentNames next.toResolve =
        insertWithin maxComponents (componentNames state.toResolve) root.1 ∧
      next.alloc = if (componentNames state.toResolve).contains root.1 then state.alloc
        else (gglBufClone 64 root.1 state.alloc).toOption.getD state.alloc := by
  rcases addGroupRoot_cases ok with ⟨found, unchanged, alloc⟩ | ⟨missing, pushed, cloned⟩
  · have present : root.1 ∈ componentNames state.toResolve := by
      by_contra absent
      rw [lookup_eq_none_iff_notMem.mpr absent] at found
      cases found
    rw [unchanged, insertWithin_of_mem present, if_pos (contains_iff_mem.mpr present)]
    exact ⟨rfl, alloc⟩
  · have fresh : root.1 ∉ componentNames state.toResolve := lookup_eq_none_iff_notMem.mp missing
    rw [pushed, insertWithin_of_notMem fresh, if_neg (mt contains_iff_mem.mp fresh), cloned,
      componentNames, gglKvVecPush, Vec.keep_push_items, componentNames, length_map]
    refine ⟨?_, rfl⟩
    split
    · simp
    · rfl

theorem foldlM_addGroupRoot_ok {roots : GglMap} {state next : RootState}
    (ok : roots.foldlM addGroupRoot state = .ok next) :
    componentNames next.toResolve =
        insertAllWithin maxComponents (componentNames state.toResolve) (roots.map Prod.fst) ∧
      next.alloc =
        cloneNew (componentNames state.toResolve) state.alloc (roots.map Prod.fst) := by
  induction roots generalizing state with
  | nil =>
    cases ok
    exact ⟨rfl, rfl⟩
  | cons root rest ih =>
    rw [foldlM_cons, except_bind_eq_ok_iff] at ok
    rcases ok with ⟨middle, first, later⟩
    rw [map_cons, cloneNew, ← (addGroupRoot_ok first).1, ← (addGroupRoot_ok first).2]
    refine ⟨(ih later).1.trans ?_, (ih later).2⟩
    rw [(addGroupRoot_ok first).1]
    rfl

@[simp]
theorem mapError_some_eq_ok_iff {α : Type} {outcome : Except GglError α} {value : α} :
    outcome.mapError some = .ok value ↔ outcome = .ok value := by
  cases outcome <;> simp [Except.mapError]

theorem mapError_some_ne_none {α : Type} (outcome : Except GglError α) :
    outcome.mapError some ≠ .error none := by
  cases outcome <;> simp [Except.mapError]

section Groups

variable {σ : Type} {context : ResolveContext σ} {stored : Buffer → Option GglObject}
  {thingGroupName : Buffer} {state next : RootState}
  {item : GglObject} {items : List GglObject} {alloc : BumpAlloc}

/-- A thing group is the own one, or its root components cannot be read, or those
that are read are added. -/
theorem addThingGroup_cases (ok : addThingGroup context thingGroupName state item = .ok next) :
    ∃ fields group, item = .map fields ∧
      gglMapGet fields (gglStr "thingGroupName") = some (.buf group) ∧
      ((group = thingGroupName ∧ next = { state with ret := none }) ∨
        (group ≠ thingGroupName ∧ ((∃ error alloc,
          context.readGroup group state.alloc = (.error error, alloc) ∧
          next = { state with alloc, ret := some error }) ∨ ∃ roots alloc,
          context.readGroup group state.alloc = (.ok (.map roots), alloc) ∧
          roots.foldlM addGroupRoot { state with alloc, ret := none } = .ok next))) := by
  cases item with
  | map fields =>
    rw [addThingGroup] at ok
    split at ok
    · cases ok
    next group valid =>
      refine ⟨fields, group, rfl, gglMapValidateBuf_eq_ok_iff.mp valid, ?_⟩
      split at ok
      next own =>
        cases ok
        exact .inl ⟨own, rfl⟩
      next other =>
        split at ok
        next error alloc answered =>
          cases ok
          exact .inr ⟨other, .inl ⟨error, alloc, answered, rfl⟩⟩
        next roots alloc answered =>
          exact .inr ⟨other, .inr ⟨roots, alloc, answered, mapError_some_eq_ok_iff.mp ok⟩⟩
        · cases ok
  | _ => cases ok

/-- A thing group only adds to the names. -/
theorem addThingGroup_prefix (ok : addThingGroup context thingGroupName state item = .ok next) :
    (∃ fields, item = .map fields) ∧
      componentNames state.toResolve <+: componentNames next.toResolve := by
  obtain ⟨fields, group, rfl, -, outcome⟩ := addThingGroup_cases ok
  refine ⟨⟨fields, rfl⟩, ?_⟩
  rcases outcome with ⟨-, rfl⟩ | ⟨-, ⟨error, alloc, -, rfl⟩ | ⟨roots, alloc, -, added⟩⟩
  · exact prefix_rfl
  · exact prefix_rfl
  · rw [(foldlM_addGroupRoot_ok added).1]
    exact prefix_insertAllWithin _ _

/-- A thing group that fits the memory brings in the root components stored for it. -/
theorem addThingGroup_ok (reads : ReadsStored context stored)
    (ok : addThingGroup context thingGroupName state item = .ok next)
    (room : RoomFor stored thingGroupName (componentNames state.toResolve) state.alloc
      (item :: items)) :
    componentNames next.toResolve =
        insertAllWithin maxComponents (componentNames state.toResolve)
          (itemRoots stored thingGroupName item) ∧
      RoomFor stored thingGroupName (componentNames next.toResolve) next.alloc items := by
  obtain ⟨fields, group, rfl, named, outcome⟩ := addThingGroup_cases ok
  have read := reads group state.alloc
  rcases outcome with ⟨own, rfl⟩ | ⟨other, outcome⟩
  · simpa [RoomFor, itemRoots, itemStored, named, own] using room
  have isStored : itemStored stored thingGroupName (.map fields) = stored group := by
    simp [itemStored, named, other]
  rw [RoomFor, isStored] at room
  rw [itemRoots, isStored]
  cases kept : stored group with
  | none =>
    rw [kept] at read room
    obtain ⟨error, failed⟩ := read
    rcases outcome with ⟨_, alloc, answered, rfl⟩ | ⟨roots, alloc, answered, added⟩
    · cases failed.symm.trans answered
      exact ⟨rfl, room⟩
    · cases failed.symm.trans answered
  | some object =>
    rw [kept] at read room
    obtain ⟨left, fits, room⟩ := room
    rcases outcome with ⟨_, alloc, answered, -⟩ | ⟨roots, alloc, answered, added⟩
    · cases (read left fits).symm.trans answered
    · cases (read left fits).symm.trans answered
      obtain ⟨names, memory⟩ := foldlM_addGroupRoot_ok added
      rw [names, memory]
      exact ⟨rfl, room⟩

theorem foldlM_addThingGroup_ok
    (ok : items.foldlM (addThingGroup context thingGroupName) state = .ok next) :
    (∀ item ∈ items, ∃ fields, item = .map fields) ∧
      componentNames state.toResolve <+: componentNames next.toResolve ∧
      (ReadsStored context stored →
        RoomFor stored thingGroupName (componentNames state.toResolve) state.alloc items →
        componentNames next.toResolve =
          insertAllWithin maxComponents (componentNames state.toResolve)
            (items.flatMap (itemRoots stored thingGroupName))) := by
  induction items generalizing state with
  | nil =>
    cases ok
    exact ⟨nofun, prefix_rfl, fun _ _ => rfl⟩
  | cons item rest ih =>
    rw [foldlM_cons, except_bind_eq_ok_iff] at ok
    rcases ok with ⟨middle, first, later⟩
    rcases addThingGroup_prefix first with ⟨isMap, longer⟩
    rcases ih later with ⟨areMaps, longest, allNames⟩
    refine ⟨forall_mem_cons.mpr ⟨isMap, areMaps⟩, longer.trans longest, fun reads room => ?_⟩
    obtain ⟨names, room⟩ := addThingGroup_ok reads first room
    rw [allNames reads room, names]
    exact foldl_append.symm

theorem addThingGroup_map_ne_none (fields : GglMap) :
    addThingGroup context thingGroupName state (.map fields) ≠ .error none := by
  rw [addThingGroup]
  split
  · exact nofun
  split
  · exact nofun
  split
  · exact nofun
  · exact mapError_some_ne_none _
  · exact nofun

/-- Only an item that is no map makes the loop return the last success. -/
theorem foldlM_addThingGroup_ne_none (areMaps : ∀ item ∈ items, ∃ fields, item = .map fields) :
    items.foldlM (addThingGroup context thingGroupName) state ≠ .error none := by
  induction items generalizing state with
  | nil => exact nofun
  | cons item rest ih =>
    rcases areMaps item mem_cons_self with ⟨fields, rfl⟩
    rw [foldlM_cons]
    have notNone := @addThingGroup_map_ne_none σ context thingGroupName state fields
    cases outcome : addThingGroup context thingGroupName state (.map fields) with
    | ok middle => exact ih fun other member => areMaps other (mem_cons_of_mem _ member)
    | error error =>
      rintro ⟨rfl⟩
      exact notNone outcome

/-- The components to resolve begin with those of the deployment, and those of
the other groups are inserted behind them. -/
theorem collectRoots_ok {roots : RootState}
    (ok : collectRoots context thingGroupName rootComponents alloc = .ok roots) :
    WellShaped context ∧ rootComponents.map Prod.fst <+: componentNames roots.toResolve ∧
      (ReadsStored context stored → RoomFor stored thingGroupName
          (rootComponents.map Prod.fst) alloc (listedItems context) →
        componentNames roots.toResolve =
          insertAllWithin maxComponents (rootComponents.map Prod.fst)
            ((listedItems context).flatMap (itemRoots stored thingGroupName))) := by
  simp only [collectRoots, except_bind_eq_ok_iff, mapError_some_eq_ok_iff] at ok
  rcases ok with ⟨toResolve, own, _, _, body, answered, response, decoded, items, listed, merged⟩
  have isListed : listedItems context = items := by
    simp [listedItems, answered, bind, Except.bind, decoded, listed]
  have ownNames : componentNames toResolve = rootComponents.map Prod.fst := foldlM_addRoot_ok own
  rcases foldlM_addThingGroup_ok merged with ⟨areMaps, names⟩
  rw [isListed, ← ownNames]
  refine ⟨?_, names⟩
  unfold thingGroupItems at listed
  split at listed
  · rename_i fields
    split at listed
    · rename_i found
      cases listed
      exact ⟨body, fields, items, answered, decoded, found, areMaps⟩
    · cases listed
  · cases listed

/-- A well-shaped response is never answered with an early success. -/
theorem WellShaped.collectRoots_ne_none (shaped : WellShaped context) (rootComponents : GglMap)
    (alloc : BumpAlloc) :
    collectRoots context thingGroupName rootComponents alloc ≠ .error none := by
  rcases shaped with ⟨body, fields, items, answered, decoded, found, areMaps⟩
  unfold collectRoots
  cases rootComponents.foldlM addRoot (Vec.empty _ maxComponents) with
  | error error => exact nofun
  | ok toResolve =>
    cases written : context.writeRoots toResolve.items with
    | error error => simp [Except.mapError, bind, Except.bind, written]
    | ok done =>
      simp only [Except.mapError, bind, Except.bind, written, answered, decoded,
        thingGroupItems, found]
      exact foldlM_addThingGroup_ne_none areMaps

/-- A successful resolution returned early, or went over the collected roots to
the end: their names come first, and no name is added twice. -/
theorem resolveDependencies_ok {world : σ}
    (ok : resolveDependencies context thingGroupName rootComponents alloc world =
      some (.ok resolved)) :
    (collectRoots context thingGroupName rootComponents alloc = .error none ∧ resolved = []) ∨
      ∃ roots, collectRoots context thingGroupName rootComponents alloc = .ok roots ∧
        componentNames roots.toResolve <+: resolved.map Prod.fst ∧
        resolved.length ≤ maxComponents ∧
        ((componentNames roots.toResolve).Nodup → (resolved.map Prod.fst).Nodup) := by
  unfold resolveDependencies at ok
  cases collected : collectRoots context thingGroupName rootComponents alloc with
  | error returns =>
    cases returns with
    | none =>
      simp only [collected, Option.some.injEq, Except.ok.injEq] at ok
      exact .inl ⟨rfl, ok.symm⟩
    | some error => simp [collected] at ok
  | ok roots =>
    simp only [collected, Option.map_eq_some_iff] at ok
    rcases ok with ⟨outcome, ended, mapped⟩
    cases outcome with
    | error error => cases mapped
    | ok final =>
      cases mapped
      -- Only the names matter here, so any version satisfies any requirement.
      have reading : Reading context (fun _ _ => True) (fun _ => True) := by
        constructor <;> simp
      have tracks : Tracks (fun _ => True)
          (⟨roots.toResolve, Vec.empty _ maxComponents, roots.alloc, roots.requirements,
            world⟩ : ResolveState σ) ⟨[], roots.toResolve.items⟩ :=
        ⟨rfl, ⟨[], rfl, rfl⟩, by simp⟩
      rcases tracks.drains reading ended with ⟨work, run, finalTracks, _⟩
      have names : work.keys = final.resolved.items.map Prod.fst := by
        rw [run.keys_eq, finalTracks.chosen]
      refine Or.inr ⟨roots, rfl, ?_, final.resolved.bounded, ?_⟩
      · rw [← names]
        exact run.keys_prefix_keys
      · intro distinct
        rw [← names]
        exact run.nodup_keys distinct

/-- Covered roots that are all resolved were named once. -/
theorem Covers.nodup_roots (covers : Covers context stored thingGroupName rootComponents resolved)
    (ownFirst : rootComponents.map Prod.fst <+: resolved.map Prod.fst) :
    (rootComponents.map Prod.fst).Nodup := by
  rw [nodup_iff_count_le_one]
  intro name
  by_cases member : name ∈ rootComponents.map Prod.fst
  · rw [← covers name (mem_append_left _ member)]
    exact ownFirst.sublist.count_le name
  · rw [count_eq_zero_of_not_mem member]
    exact Nat.zero_le 1

/-- There are no more distinct covered roots than resolved components. -/
theorem Covers.length_dedup_le
    (covers : Covers context stored thingGroupName rootComponents resolved) :
    (allRoots context stored thingGroupName rootComponents).dedup.length ≤ resolved.length := by
  have sub : (allRoots context stored thingGroupName rootComponents).dedup ⊆
      resolved.map Prod.fst := by
    intro name member
    apply count_pos_iff.mp
    rw [covers name (mem_dedup.mp member)]
    exact Nat.one_pos
  have size := (subperm_of_subset (nodup_dedup _) sub).length_le
  rwa [length_map] at size

end Groups

/-! ## Two responses -/

section Responses

/-- The root component of another thing group. -/
def otherGroup (group : Buffer) : Option GglObject :=
  if group = gglStr "other" then some (.map [(gglStr "b", .buf (gglStr "1.0.0"))]) else none

/-- A device on which every component is installed, and what a response about
its thing groups decodes to. -/
def respondingContext (response : String) (decoded : GglObject) : ResolveContext Unit where
  writeRoots _ := .ok ()
  deviceThingGroups := .ok (gglStr response)
  jsonDecode body := if body = gglStr response then .ok decoded else .error .parse
  readGroup group alloc :=
    match otherGroup group with
    | none => (.error .noentry, alloc)
    | some object =>
      match bumpAllocator.allocAll alloc (object.requests true) with
      | none => (.error .nomem, alloc)
      | some left => (.ok object, left)
  activeVersion _ _ := .ok (gglStr "1.0.0")
  recipeDirectory _ := .ok []
  resolveWithCloud _ _ _ := .error .noconn
  saveRecipe world _ := (.ok (), world)
  recipe _ _ := .ok (.map [])
  uninitialized := []
  pastEnd := 0

theorem respondingContext_reads (response : String) (decoded : GglObject) :
    ReadsStored (respondingContext response decoded) otherGroup := by
  intro group alloc
  cases kept : otherGroup group with
  | some object =>
    intro left fits
    simp [respondingContext, kept, fits]
  | none => exact ⟨.noentry, by simp [respondingContext, kept]⟩

/-- A deployment of one root component. -/
def deployedRoots : GglMap :=
  [(gglStr "a", .map [(gglStr "version", .buf (gglStr "1.0.0"))])]

/-- The decoded response of a device in one other thing group. -/
def oneGroupResponse : GglObject :=
  .map [(gglStr "thingGroups", .list [.map [(gglStr "thingGroupName", .buf (gglStr "other"))]])]

/-- The context in which the response lists the other thing group. -/
def oneGroupContext : ResolveContext Unit :=
  respondingContext
    "\x7b\"thingGroups\":[\x7b\"thingGroupName\":\"other\"\x7d]\x7d" oneGroupResponse

end Responses

end GreengrassLite.Deployment

import GreengrassLite.Deployment.Range
import GreengrassLite.Deployment.Resolve
import Mathlib.Data.Set.Insert

/-!
# The recipes in the store

`iterate_over_components` is called until it answers that there is no further
recipe, by `find_available_component` and by the removal of stale components.
The directory is a stream of names in any order, with the entries for itself and
for its parent among them.

What the calls return is what was stored exactly when no stored component has a
dash in its name, for a returned name never has one.
-/

namespace GreengrassLite.Deployment

variable {component : Buffer}

/-! ## The calls -/

/-- `iterate_over_components`: the next recipe and the rest of the stream. -/
def nextComponent : List Buffer → Except GglError ((Buffer × Buffer) × List Buffer)
  | [] => .error .noentry
  | entry :: rest =>
    match iterateOverComponents entry with
    | none => nextComponent rest
    | some recipe => .ok (recipe, rest)

/-- The recipes that calls to the end of the stream return. -/
inductive Iterates : List Buffer → List (Buffer × Buffer) → Prop
  | done {entries error} :
      nextComponent entries = .error error → Iterates entries []
  | step {entries rest recipe recipes} : nextComponent entries = .ok (recipe, rest) →
      Iterates rest recipes → Iterates entries (recipe :: recipes)

/-- The loop of `find_available_component`; each call takes an entry, so the length of the
stream bounds their number. -/
def findLoop (pastEnd : UInt8) (component requirement : Buffer) :
    Nat → List Buffer → Except GglError Buffer
  | 0, _ => .error .noentry
  | fuel + 1, entries =>
    match nextComponent entries with
    | .error error => .error error
    | .ok ((name, version), rest) =>
      if name = component && isInRange pastEnd version requirement then .ok version
      else findLoop pastEnd component requirement fuel rest

section Calls

variable {entries rest : List Buffer} {recipe : Buffer × Buffer}

@[simp]
theorem nextComponent_eq_error_iff {error : GglError} :
    nextComponent entries = .error error ↔
      error = .noentry ∧ entries.filterMap iterateOverComponents = [] := by
  induction entries with
  | nil => simp [nextComponent, eq_comm]
  | cons entry rest ih =>
    rw [nextComponent]
    cases read : iterateOverComponents entry with
    | none => simp [ih, read]
    | some recipe => simp [read]

theorem nextComponent_eq_ok (next : nextComponent entries = .ok (recipe, rest)) :
    entries.filterMap iterateOverComponents = recipe :: rest.filterMap iterateOverComponents ∧
      rest.length < entries.length := by
  induction entries with
  | nil => cases next
  | cons entry others ih =>
    rw [nextComponent] at next
    cases read : iterateOverComponents entry with
    | none =>
      rw [read] at next
      have found := ih next
      rw [List.filterMap_cons_none read]
      exact ⟨found.1, Nat.lt_succ_of_lt found.2⟩
    | some first =>
      rw [read] at next
      cases next
      exact ⟨List.filterMap_cons_some read, Nat.lt_succ_self _⟩

/-- The calls end, and return what the names of the stream say. -/
@[simp]
theorem iterates_iff {recipes : List (Buffer × Buffer)} :
    Iterates entries recipes ↔ recipes = entries.filterMap iterateOverComponents := by
  constructor
  · intro iterates
    induction iterates with
    | done ended => exact (nextComponent_eq_error_iff.mp ended).2.symm
    | step next _ ih => rw [(nextComponent_eq_ok next).1, ih]
  · rintro rfl
    induction size : entries.length using Nat.strongRecOn generalizing entries with
    | _ size ih =>
      cases next : nextComponent entries with
      | error error =>
        rw [(nextComponent_eq_error_iff.mp next).2]
        exact .done next
      | ok result =>
        rcases result with ⟨recipe, rest⟩
        rcases nextComponent_eq_ok next with ⟨read, shorter⟩
        rw [read]
        exact .step next (ih rest.length (size ▸ shorter) rfl)

theorem findLoop_eq {pastEnd : UInt8} {requirement : Buffer} {fuel : Nat}
    (enough : entries.length < fuel) :
    findLoop pastEnd component requirement fuel entries =
      match (entries.filterMap iterateOverComponents).find? fun entry =>
          entry.1 = component && isInRange pastEnd entry.2 requirement with
      | none => .error .noentry
      | some entry => .ok entry.2 := by
  induction fuel generalizing entries with
  | zero => cases enough
  | succ fuel ih =>
    rw [findLoop]
    cases next : nextComponent entries with
    | error error =>
      rcases nextComponent_eq_error_iff.mp next with ⟨rfl, read⟩
      rw [read]
      rfl
    | ok result =>
      rcases result with ⟨⟨name, version⟩, rest⟩
      rcases nextComponent_eq_ok next with ⟨read, shorter⟩
      rw [read, List.find?_cons]
      dsimp only
      cases meets : decide (name = component) && isInRange pastEnd version requirement with
      | true => rfl
      | false => exact ih (by omega)

/-- The search for a component is the loop over the calls. -/
theorem findAvailableComponent_eq_findLoop {σ : Type} {context : ResolveContext σ} {world : σ}
    (opened : context.recipeDirectory world = .ok entries) (component requirement : Buffer) :
    findAvailableComponent context component requirement world =
      findLoop context.pastEnd component requirement (entries.length + 1) entries := by
  rw [findAvailableComponent, opened]
  exact (findLoop_eq (Nat.lt_succ_self _)).symm

end Calls

/-! ## Stored recipes -/

/-- The names in the recipe directory: the files of the recipes, and the directory itself and
its parent. -/
structure Holds (entries : List Buffer) (recipes : Set Recipe) : Prop where
  mem_iff (name : Buffer) : name ∈ entries ↔
    name = gglStr "." ∨ name = gglStr ".." ∨ ∃ recipe ∈ recipes, name = recipe.fileName
  short (name : Buffer) : name ∈ entries → name.length ≤ nameMax

section Stored

variable {entries : List Buffer} {recipes : Set Recipe} {pastEnd : UInt8}

/-- What is read back of a recipe. -/
theorem Holds.mem_filterMap (holds : Holds entries recipes) {pair : Buffer × Buffer} :
    pair ∈ entries.filterMap iterateOverComponents ↔
      ∃ recipe ∈ recipes, pair = splitBase recipe.base := by
  rw [List.mem_filterMap]
  constructor
  · rintro ⟨name, member, read⟩
    rcases (holds.mem_iff name).mp member with rfl | rfl | ⟨recipe, stored, rfl⟩
    · cases read
    · cases read
    · rw [Recipe.fileName, Recipe.base, iterateOverComponents_recipeFile, Option.some_inj] at read
      exact ⟨recipe, stored, read.symm⟩
  · rintro ⟨recipe, stored, rfl⟩
    exact ⟨recipe.fileName, (holds.mem_iff _).mpr (.inr (.inr ⟨recipe, stored, rfl⟩)),
      iterateOverComponents_recipeFile ..⟩

/-- A component that is read back has no dash in its name. -/
theorem dash_notMem_splitBase (base : Buffer) : dash ∉ (splitBase base).1 := by
  intro member
  have different := List.mem_takeWhile_imp member
  simp at different

/-- Every version is in the empty range. -/
@[simp]
theorem isInRange_nil {version : Buffer} (short : version.length < nameMax) :
    isInRange pastEnd version [] = true := by
  rw [isInRange, isInRangeBy_of_length_lt short]
  rfl

theorem Holds.version_length (holds : Holds entries recipes) {recipe : Recipe}
    (stored : recipe ∈ recipes) : recipe.version.length < nameMax := by
  have short := holds.short _ ((holds.mem_iff _).mpr (.inr (.inr ⟨recipe, stored, rfl⟩)))
  simp only [Recipe.fileName, Recipe.base, recipeFile, recipeBase, List.length_append,
    List.length_cons] at short
  omega

/-- Without dashes what is read back is what was stored. -/
theorem Holds.mem_filterMap_of_plain (holds : Holds entries recipes)
    (plain : ∀ recipe ∈ recipes, dash ∉ recipe.component) {version : Buffer} :
    (component, version) ∈ entries.filterMap iterateOverComponents ↔
      ∃ recipe ∈ recipes, recipe.component = component ∧ recipe.version = version := by
  rw [holds.mem_filterMap]
  constructor
  · rintro ⟨recipe, stored, same⟩
    rw [Recipe.base, splitBase_recipeBase _ (plain recipe stored), Prod.mk.injEq] at same
    exact ⟨recipe, stored, same.1.symm, same.2.symm⟩
  · rintro ⟨recipe, stored, rfl, rfl⟩
    exact ⟨recipe, stored, (splitBase_recipeBase _ (plain recipe stored)).symm⟩

/-- What is read back has no dash. -/
theorem Holds.dash_notMem (holds : Holds entries recipes) {version : Buffer}
    (read : (component, version) ∈ entries.filterMap iterateOverComponents) : dash ∉ component := by
  rcases holds.mem_filterMap.mp read with ⟨recipe, -, same⟩
  have name : component = (splitBase recipe.base).1 := congrArg Prod.fst same
  rw [name]
  exact dash_notMem_splitBase recipe.base

theorem findAvailableComponent_eq_ok_iff {σ : Type} {context : ResolveContext σ} {world : σ}
    (opened : context.recipeDirectory world = .ok entries) {requirement : Buffer} :
    (∃ version, findAvailableComponent context component requirement world = .ok version) ↔
      ∃ version, (component, version) ∈ entries.filterMap iterateOverComponents ∧
        isInRange context.pastEnd version requirement = true := by
  rw [findAvailableComponent, opened]
  dsimp only
  constructor
  · rintro ⟨version, found⟩
    split at found
    · cases found
    next entry first =>
      have member := List.mem_of_find?_eq_some first
      have meets := List.find?_some first
      rw [Bool.and_eq_true, decide_eq_true_eq] at meets
      exact ⟨entry.2, meets.1 ▸ member, meets.2⟩
  · rintro ⟨version, member, inRange⟩
    split
    next none =>
      have unmet := List.find?_eq_none.mp none _ member
      simp [inRange] at unmet
    next entry _ => exact ⟨entry.2, rfl⟩

end Stored

/-- The calls to the end return the stored recipes exactly when no stored component has a dash
in its name, and exactly then a component is found where a stored version of it is in range. -/
theorem stored_recipes_found_iff {σ : Type} {context : ResolveContext σ} {world : σ}
    {entries : List Buffer} {recipes : Set Recipe} {returned : List (Buffer × Buffer)}
    (opened : context.recipeDirectory world = .ok entries) (holds : Holds entries recipes)
    (iterates : Iterates entries returned) :
    ((∀ component version, (component, version) ∈ returned ↔
        ∃ recipe ∈ recipes, recipe.component = component ∧ recipe.version = version) ↔
      ∀ recipe ∈ recipes, dash ∉ recipe.component) ∧
    ((∀ component requirement,
        (∃ version, findAvailableComponent context component requirement world = .ok version) ↔
          ∃ recipe ∈ recipes, recipe.component = component ∧
            isInRange context.pastEnd recipe.version requirement = true) ↔
      ∀ recipe ∈ recipes, dash ∉ recipe.component) := by
  rw [iterates_iff] at iterates
  subst iterates
  constructor
  · constructor
    · intro same recipe stored
      exact holds.dash_notMem ((same _ _).mpr ⟨recipe, stored, rfl, rfl⟩)
    · exact fun plain component version => holds.mem_filterMap_of_plain plain
  · constructor
    · intro same recipe stored
      -- Any version of the component is in the empty range, so the component must be found.
      have found := (same recipe.component []).mpr
        ⟨recipe, stored, rfl, isInRange_nil (holds.version_length stored)⟩
      rcases (findAvailableComponent_eq_ok_iff opened).mp found with ⟨version, read, -⟩
      exact holds.dash_notMem read
    · intro plain component requirement
      rw [findAvailableComponent_eq_ok_iff opened]
      simp only [holds.mem_filterMap_of_plain plain]
      constructor
      · rintro ⟨version, ⟨recipe, stored, rfl, rfl⟩, inRange⟩
        exact ⟨recipe, stored, rfl, inRange⟩
      · rintro ⟨recipe, stored, rfl, inRange⟩
        exact ⟨recipe.version, ⟨recipe, stored, rfl, rfl⟩, inRange⟩

/-- A store with these names in its directory. -/
def storeContext (entries : List Buffer) : ResolveContext Unit where
  writeRoots _ := .ok ()
  deviceThingGroups := .error .noconn
  jsonDecode _ := .error .parse
  readGroup _ alloc := (.error .noentry, alloc)
  activeVersion _ _ := .error .noentry
  recipeDirectory _ := .ok entries
  resolveWithCloud _ _ _ := .error .noconn
  saveRecipe world _ := (.ok (), world)
  recipe _ _ := .error .noentry
  uninitialized := []
  pastEnd := 0

/-- The directory with one recipe in it. -/
theorem holds_singleton {recipe : Recipe} (short : recipe.fileName.length ≤ nameMax) :
    Holds [gglStr ".", recipe.fileName, gglStr ".."] {recipe} where
  mem_iff name := by
    simp only [List.mem_cons, List.not_mem_nil, or_false, Set.mem_singleton_iff, exists_eq_left]
    tauto
  short name member := by
    simp only [List.mem_cons, List.not_mem_nil, or_false] at member
    rcases member with rfl | rfl | rfl
    · decide
    · exact short
    · decide

/-- A stored component with a dash in its name is returned under another name and version, and
not found. -/
theorem dashed_component_lost :
    Holds [gglStr ".", gglStr "my-app-1.0.0.yaml", gglStr ".."]
        {⟨gglStr "my-app", gglStr "1.0.0", .yaml⟩} ∧
      Iterates [gglStr ".", gglStr "my-app-1.0.0.yaml", gglStr ".."]
        [(gglStr "my", gglStr "app-1.0.0")] ∧
      findAvailableComponent
          (storeContext [gglStr ".", gglStr "my-app-1.0.0.yaml", gglStr ".."])
          (gglStr "my-app") (gglStr ">=1.0.0") () = .error .noentry ∧
      isInRange 0 (gglStr "1.0.0") (gglStr ">=1.0.0") = true := by
  refine ⟨?_, ?_, ?_, ?_⟩
  · exact @holds_singleton ⟨gglStr "my-app", gglStr "1.0.0", .yaml⟩ (by decide)
  · exact iterates_iff.mpr (by decide)
  · rfl
  · decide +kernel

/-- A pre-release may have dashes. -/
theorem stored_recipes_found_of_prerelease :
    ∃ version, findAvailableComponent
      (storeContext [gglStr ".", gglStr "app-1.0.0-rc-1.yaml", gglStr ".."])
      (gglStr "app") (gglStr "<1.0.0-rc-2") () = .ok version := by
  have plain : ∀ recipe ∈ ({⟨gglStr "app", gglStr "1.0.0-rc-1", .yaml⟩} : Set Recipe),
      dash ∉ recipe.component := by
    rintro recipe rfl
    decide
  have holds : Holds [gglStr ".", gglStr "app-1.0.0-rc-1.yaml", gglStr ".."]
      {⟨gglStr "app", gglStr "1.0.0-rc-1", .yaml⟩} :=
    @holds_singleton ⟨gglStr "app", gglStr "1.0.0-rc-1", .yaml⟩ (by decide)
  have found := (@stored_recipes_found_iff Unit (storeContext _) () _ _ _ rfl holds
    (iterates_iff.mpr rfl)).2.mpr plain
  exact (found (gglStr "app") (gglStr "<1.0.0-rc-2")).mpr ⟨_, rfl, rfl, by decide +kernel⟩

end GreengrassLite.Deployment

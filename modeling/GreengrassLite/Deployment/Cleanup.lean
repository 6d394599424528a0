import GreengrassLite.Deployment.StaleComponent
import GreengrassLite.Json.Text

/-!
# What the cleanup keeps and removes

The cleanup is a fold over the entries that are read from the recipe directory,
each split into a component and a version.  One entry removes the recipes with
its own base name, marks the version of its component as inactive, and, if the
component is not in the map of the deployment, disables its service.

The cleanup does what it is for exactly when the names are read back as they
were stored, and no stale entry belongs to a component of the map whose version
was written with a timestamp that is not later than zero.
-/

namespace GreengrassLite.Deployment

open Config List Ggconfigd

variable {component name : Buffer}
  {text : Buffer}

/-! ## One entry -/

section

variable (latest : GglMap) (entry : Buffer × Buffer)

/-- The map of the deployment has the component at this version. -/
def Kept : Prop :=
  gglMapGet latest entry.1 = some (.buf entry.2)

/-- The path of the artifacts of an entry leads to or above the recipes, as it
can for components named `.` and `..`. -/
def Wipes : Prop :=
  ∃ directory ∈ [gglStr "artifacts", gglStr "artifacts-unarchived"],
    resolvePath (artifactPath directory entry.1 entry.2 (gglMapGet latest entry.1).isNone) <+:
      recipeDir

/-- The cleanup of an entry removes the recipe file of this name. -/
def RemovesRecipe (name : Buffer) : Prop :=
  ¬Kept latest entry ∧
    (Wipes latest entry ∨ ∃ extension, name = recipeFile (recipeBase entry.1 entry.2) extension)

end

theorem enterPart_cases (path : List Buffer) (part : Buffer) :
    enterPart path part = path ∨ enterPart path part = path.dropLast ∨
      enterPart path part = path ++ [part] := by
  unfold enterPart
  split
  · exact .inl rfl
  split
  · exact .inr (.inl rfl)
  · exact .inr (.inr rfl)

variable {directory version : Buffer} {files : List (List Buffer)}

/-- The path of artifacts never ends inside the directory of the recipes. -/
theorem resolvePath_artifactPath_ne
    (isArtifacts : directory ∈ [gglStr "artifacts", gglStr "artifacts-unarchived"])
    (component version name : Buffer) (allVersions : Bool) :
    resolvePath (artifactPath directory component version allVersions) ≠ recipeDir ++ [name] := by
  have base : resolvePath [gglStr "packages", directory] = [gglStr "packages", directory] ∧
      directory ≠ gglStr "recipes" := by
    simp only [mem_cons, not_mem_nil, or_false] at isArtifacts
    rcases isArtifacts with rfl | rfl
    · decide
    · decide
  have entered : resolvePath (artifactPath directory component version allVersions) =
      (component :: if allVersions then [] else [version]).foldl enterPart
        [gglStr "packages", directory] := by
    rw [← base.1]
    rfl
  rw [entered]
  have outside : ∀ path : List Buffer,
      path = [gglStr "packages", directory] ∨ path = [gglStr "packages"] ∨
        path = [gglStr "packages", directory, component] →
      path ≠ recipeDir ++ [name] ∧ enterPart path version ≠ recipeDir ++ [name] := by
    rintro path (rfl | rfl | rfl)
    · rcases enterPart_cases [gglStr "packages", directory] version with equal | equal | equal <;>
        simp [equal, recipeDir, base.2]
    · rcases enterPart_cases [gglStr "packages"] version with equal | equal | equal <;>
        simp [equal, recipeDir]
    · rcases enterPart_cases [gglStr "packages", directory, component] version with
        equal | equal | equal <;> simp [equal, recipeDir, base.2]
  have below := outside _ (enterPart_cases [gglStr "packages", directory] component)
  cases allVersions with
  | true => exact below.1
  | false => exact below.2

/-- Removing artifacts takes a recipe with it exactly if it takes them all. -/
@[simp]
theorem mem_removeAllFiles_iff
    (isArtifacts : directory ∈ [gglStr "artifacts", gglStr "artifacts-unarchived"])
    {allVersions : Bool} :
    recipeDir ++ [name] ∈
        removeAllFiles (artifactPath directory component version allVersions) files ↔
      recipeDir ++ [name] ∈ files ∧
        ¬resolvePath (artifactPath directory component version allVersions) <+: recipeDir := by
  rw [removeAllFiles, mem_filter, decide_eq_true_eq, prefix_concat_iff]
  simp [resolvePath_artifactPath_ne isArtifacts]

@[simp]
theorem mem_deleteComponentRecipe_iff :
    recipeDir ++ [name] ∈ deleteComponentRecipe component version files ↔
      recipeDir ++ [name] ∈ files ∧
        ∀ extension, name ≠ recipeFile (recipeBase component version) extension := by
  have all : (∀ extension, name ≠ recipeFile (recipeBase component version) extension) ↔
      name ≠ recipeFile (recipeBase component version) .json ∧
        name ≠ recipeFile (recipeBase component version) .yaml ∧
        name ≠ recipeFile (recipeBase component version) .yml := by
    constructor
    · intro different
      exact ⟨different .json, different .yaml, different .yml⟩
    · rintro ⟨json, yaml, yml⟩ (_ | _ | _)
      · exact json
      · exact yaml
      · exact yml
  rw [all]
  simp only [deleteComponentRecipe, foldl_cons, foldl_nil, removeFile, mem_filter,
    decide_eq_true_eq, ne_eq, append_cancel_left_eq, cons.injEq, and_true, and_assoc]

variable {printG : UInt64 → Buffer} {now : Int} {latest : GglMap} {device : Device}
  {entry : Buffer × Buffer}

@[simp]
theorem cleanupComponent_of_kept (kept : Kept latest entry) :
    cleanupComponent printG now latest device entry = device := by
  rw [cleanupComponent, kept]
  exact if_pos rfl

/-- An entry that is not kept is deleted, and its service disabled if the map
does not have its component. -/
theorem cleanupComponent_of_stale (stale : ¬Kept latest entry) :
    cleanupComponent printG now latest device entry =
      if (gglMapGet latest entry.1).isNone then
        deleteRecipeScriptAndServiceFiles entry.1 (disableAndUnlinkService entry.1
          (deleteComponent printG now entry.1 entry.2 true device))
      else
        deleteComponent printG now entry.1 entry.2 false device := by
  rw [cleanupComponent]
  split
  · rename_i version found
    have different : entry.2 ≠ version := by
      rintro rfl
      exact stale found
    rw [if_neg different, found]
    rfl
  · rename_i found
    rw [found]
    rfl
  · rename_i missing
    rw [missing]
    rfl

theorem cleanupComponent_config (stale : ¬Kept latest entry) :
    (cleanupComponent printG now latest device entry).config =
      writeInactive printG now entry.1 device.config := by
  rw [cleanupComponent_of_stale stale]
  split <;> rfl

/-- Only a service that the map does not have is disabled. -/
theorem mem_cleanupComponent_disabled
    (disabled : component ∈ (cleanupComponent printG now latest device entry).disabled) :
    component ∈ device.disabled ∨ gglMapGet latest component = none := by
  by_cases kept : Kept latest entry
  · rw [cleanupComponent_of_kept kept] at disabled
    exact .inl disabled
  · rw [cleanupComponent_of_stale kept] at disabled
    split at disabled
    · rename_i missing
      rcases mem_append.mp disabled with before | here
      · exact .inl before
      · rw [mem_singleton.mp here]
        exact .inr (Option.isNone_iff_eq_none.mp missing)
    · exact .inl disabled

/-- The cleanup of an entry keeps a recipe unless it removes it. -/
@[simp]
theorem mem_cleanupComponent_files_iff :
    recipeDir ++ [name] ∈ (cleanupComponent printG now latest device entry).files ↔
      recipeDir ++ [name] ∈ device.files ∧ ¬RemovesRecipe latest entry name := by
  by_cases kept : Kept latest entry
  · simp [RemovesRecipe, kept]
  have deleted : ∀ allVersions, (gglMapGet latest entry.1).isNone = allVersions →
      (recipeDir ++ [name] ∈
          (deleteComponent printG now entry.1 entry.2 allVersions device).files ↔
        recipeDir ++ [name] ∈ device.files ∧ ¬RemovesRecipe latest entry name) := by
    rintro _ rfl
    simp only [deleteComponent, deleteComponentArtifact, mem_deleteComponentRecipe_iff,
      mem_removeAllFiles_iff mem_cons_self,
      mem_removeAllFiles_iff (mem_cons_of_mem _ mem_cons_self), RemovesRecipe, Wipes,
      kept, not_false_eq_true, true_and, not_or, not_exists, exists_mem_cons_iff,
      not_mem_nil, false_and, exists_const, or_false, ne_eq]
    tauto
  rw [cleanupComponent_of_stale kept]
  split
  · rename_i missing
    rw [← deleted true missing]
    simp [deleteRecipeScriptAndServiceFiles, disableAndUnlinkService, removeFile, recipeDir]
  · rename_i found
    exact deleted false (Bool.eq_false_iff.mpr found)

/-! ## The version in the configuration -/

/-- The text under which `inactive` is stored. -/
def inactiveText : Buffer :=
  gglStr "\"inactive\""

theorem versionPath_ne_nil (component : Buffer) : versionPath component ≠ [] :=
  cons_ne_nil _ _

theorem cleanupComponent_written (inv : device.config.Inv) (stale : ¬Kept latest entry) :
    ∃ result, Written device.config (versionPath entry.1) inactiveText 0
      (result, (cleanupComponent printG now latest device entry).config) := by
  rw [cleanupComponent_config stale]
  -- `writeInactive` computes to the write of the text to the configuration
  exact ⟨_, ggconfigWriteValueAtKey_written inv.isOpen inv.tables.toWf
    (versionPath_ne_nil entry.1) (Nat.le_of_ble_eq_true rfl)⟩

theorem cleanupComponent_inv (inv : device.config.Inv) :
    (cleanupComponent printG now latest device entry).config.Inv := by
  by_cases kept : Kept latest entry
  · rwa [cleanupComponent_of_kept kept]
  · obtain ⟨result, written⟩ := @cleanupComponent_written printG now latest _ _ inv kept
    exact written.daemon_inv inv (versionPath_ne_nil entry.1)

/-- The cleanup of an entry leaves a version that is later than zero or belongs
to another component. -/
theorem cleanupComponent_stored (inv : device.config.Inv) {time : Int}
    (spared : Kept latest entry ∨ entry.1 ≠ component ∨ 0 < time)
    (stored : device.config.configDatabase.Stored (versionPath component) text time) :
    (cleanupComponent printG now latest device entry).config.configDatabase.Stored
      (versionPath component) text time := by
  by_cases kept : Kept latest entry
  · rwa [cleanupComponent_of_kept kept]
  obtain ⟨result, written⟩ := @cleanupComponent_written printG now latest _ _ inv kept
  by_cases same : entry.1 = component
  · have later : 0 < time := by
      rcases spared with isKept | other | later
      · exact absurd isKept kept
      · exact absurd same other
      · exact later
    subst same
    exact (written.stored_self inv.tables.toWf (versionPath_ne_nil _) stored).2 later
  · have different : versionPath component ≠ versionPath entry.1 :=
      fun equal => same (by simpa [versionPath] using equal.symm)
    exact (written.stored_iff_of_ne inv.tables.toWf (versionPath_ne_nil _) different).mpr stored

/-! ## All entries -/

/-- The cleanup of a list of entries, one after the other. -/
def cleanupAll (printG : UInt64 → Buffer) (now : Int) (latest : GglMap) (device : Device)
    (entries : List (Buffer × Buffer)) : Device :=
  entries.foldl (cleanupComponent printG now latest) device

section All

variable {entries : List (Buffer × Buffer)}

@[simp]
theorem mem_cleanupAll_files_iff :
    recipeDir ++ [name] ∈ (cleanupAll printG now latest device entries).files ↔
      recipeDir ++ [name] ∈ device.files ∧
        ∀ entry ∈ entries, ¬RemovesRecipe latest entry name := by
  induction entries generalizing device with
  | nil => simp [cleanupAll]
  | cons entry entries ih =>
    rw [cleanupAll, foldl_cons, ← cleanupAll, ih, mem_cleanupComponent_files_iff,
      forall_mem_cons, and_assoc]

theorem mem_cleanupAll_disabled
    (disabled : component ∈ (cleanupAll printG now latest device entries).disabled) :
    component ∈ device.disabled ∨ gglMapGet latest component = none := by
  induction entries generalizing device with
  | nil => exact .inl disabled
  | cons entry entries ih =>
    rcases ih disabled with before | missing
    · exact mem_cleanupComponent_disabled before
    · exact .inr missing

theorem cleanupAll_inv (inv : device.config.Inv) :
    (cleanupAll printG now latest device entries).config.Inv := by
  induction entries generalizing device with
  | nil => exact inv
  | cons entry entries ih => exact ih (cleanupComponent_inv inv)

theorem cleanupAll_stored (inv : device.config.Inv) {time : Int}
    (spared : ∀ entry ∈ entries, Kept latest entry ∨ entry.1 ≠ component ∨ 0 < time)
    (stored : device.config.configDatabase.Stored (versionPath component) text time) :
    (cleanupAll printG now latest device entries).config.configDatabase.Stored
      (versionPath component) text time := by
  induction entries generalizing device with
  | nil => exact stored
  | cons entry entries ih =>
    rw [forall_mem_cons] at spared
    exact ih (cleanupComponent_inv inv) spared.2 (cleanupComponent_stored inv spared.1 stored)

/-- A version that is not later than zero ends as inactive, once it is. -/
theorem cleanupAll_inactive (inv : device.config.Inv) {time : Int} (early : time ≤ 0)
    (stored : device.config.configDatabase.Stored (versionPath component) text time)
    (stale : text = inactiveText ∧ time = 0 ∨ ∃ entry ∈ entries,
      entry.1 = component ∧ ¬Kept latest entry) :
    (cleanupAll printG now latest device entries).config.configDatabase.Stored
      (versionPath component) inactiveText 0 := by
  induction entries generalizing device text time with
  | nil =>
    rcases stale with ⟨rfl, rfl⟩ | ⟨entry, member, _⟩
    · exact stored
    · cases member
  | cons entry entries ih =>
    by_cases here : entry.1 = component ∧ ¬Kept latest entry
    · rcases here with ⟨rfl, notKept⟩
      obtain ⟨result, written⟩ := @cleanupComponent_written printG now latest _ _ inv notKept
      have inactive := (written.stored_self inv.tables.toWf (versionPath_ne_nil _) stored).1 early
      exact ih (cleanupComponent_inv inv) Int.le_rfl inactive (.inl ⟨rfl, rfl⟩)
    · have spared : Kept latest entry ∨ entry.1 ≠ component ∨ 0 < time := by
        by_cases kept : Kept latest entry
        · exact .inl kept
        · exact .inr (.inl fun same => here ⟨same, kept⟩)
      apply ih (cleanupComponent_inv inv) early (cleanupComponent_stored inv spared stored)
      rcases stale with already | ⟨other, member, same, stale⟩
      · exact .inl already
      · rcases mem_cons.mp member with rfl | later
        · exact absurd ⟨same, stale⟩ here
        · exact .inr ⟨other, later, same, stale⟩

end All

/-- The entries the loop reads from a list of names: all of them if removed
entries are still read, and otherwise all but some whose files are gone. -/
structure Visited (readsRemoved : Buffer → Bool) (names : List Buffer) (final : Device)
    (entries : List (Buffer × Buffer)) : Prop where
  fromNames : ∀ entry ∈ entries, ∃ name ∈ names, iterateOverComponents name = some entry
  complete : ∀ name ∈ names, ∀ entry, iterateOverComponents name = some entry →
    entry ∈ entries ∨ readsRemoved name = false ∧ recipeDir ++ [name] ∉ final.files

section Loop

variable {readsRemoved : Buffer → Bool} {names : List Buffer} {final : Device}
  {entries : List (Buffer × Buffer)}

theorem Visited.skip (visited : Visited readsRemoved names final entries)
    (unread : ∀ entry, iterateOverComponents name = some entry →
      readsRemoved name = false ∧ recipeDir ++ [name] ∉ final.files) :
    Visited readsRemoved (name :: names) final entries where
  fromNames entry member := by
    rcases visited.fromNames entry member with ⟨other, inNames, parsed⟩
    exact ⟨other, mem_cons_of_mem _ inNames, parsed⟩
  complete := by
    rw [forall_mem_cons]
    exact ⟨fun entry parsed => .inr (unread entry parsed), visited.complete⟩

theorem Visited.visit (visited : Visited readsRemoved names final entries)
    (parsed : iterateOverComponents name = some entry) :
    Visited readsRemoved (name :: names) final (entry :: entries) where
  fromNames := by
    rw [forall_mem_cons]
    refine ⟨⟨name, mem_cons_self, parsed⟩, fun other member => ?_⟩
    rcases visited.fromNames other member with ⟨otherName, inNames, otherParsed⟩
    exact ⟨otherName, mem_cons_of_mem _ inNames, otherParsed⟩
  complete := by
    rw [forall_mem_cons]
    constructor
    · intro other found
      rw [parsed] at found
      cases found
      exact .inl mem_cons_self
    · intro otherName inNames other found
      exact (visited.complete otherName inNames other found).imp_left (mem_cons_of_mem _)

/-- The loop cleans up the entries it reads. -/
theorem cleanupLoop_eq_cleanupAll (printG : UInt64 → Buffer) (now : Int) (latest : GglMap)
    (readsRemoved : Buffer → Bool) (names : List Buffer) (device : Device) :
    ∃ entries, cleanupLoop printG now readsRemoved latest names device =
        cleanupAll printG now latest device entries ∧
      Visited readsRemoved names (cleanupAll printG now latest device entries) entries := by
  induction names generalizing device with
  | nil => exact ⟨[], rfl, by simp, by simp⟩
  | cons name names ih =>
    rw [cleanupLoop]
    by_cases read : recipeDir ++ [name] ∈ device.files ∨ readsRemoved name
    · rw [if_pos read]
      cases parsed : iterateOverComponents name with
      | none =>
        rcases ih device with ⟨entries, equal, visited⟩
        refine ⟨entries, equal, visited.skip fun entry found => ?_⟩
        rw [parsed] at found
        cases found
      | some entry =>
        rcases ih (cleanupComponent printG now latest device entry) with
          ⟨entries, equal, visited⟩
        exact ⟨entry :: entries, equal, visited.visit parsed⟩
    · rw [if_neg read]
      rw [not_or, Bool.not_eq_true] at read
      rcases ih device with ⟨entries, equal, visited⟩
      refine ⟨entries, equal, visited.skip fun entry found => ⟨read.2, ?_⟩⟩
      rw [mem_cleanupAll_files_iff]
      exact fun present => read.1 present.1

end Loop

/-! ## The purpose of the cleanup -/

/-- The version of a component reads as `version` from the configuration. -/
def VersionReads (printG : UInt64 → Buffer) (config : Ggconfigd) (component version : Buffer) :
    Prop :=
  ∃ text time, Json.gglJsonEncode 1024 printG (.buf version) = .ok text ∧
    config.configDatabase.Stored (versionPath component) text time

section

variable (printG : UInt64 → Buffer) (latest : GglMap) (recipes : List Recipe)

/-- The device after a deployment: the recipe directory lists the recipes, the
versions of the map are those in the configuration, and nothing is disabled. -/
structure Deployed (names : List Buffer) (device : Device) : Prop where
  inv : device.config.Inv
  stored : ∀ recipe ∈ recipes, recipeDir ++ [recipe.fileName] ∈ device.files
  listed : ∀ recipe ∈ recipes, recipe.fileName ∈ names
  names : ∀ name ∈ names, name = gglStr "." ∨ name = gglStr ".." ∨
    ∃ recipe ∈ recipes, recipe.fileName = name
  versions : ∀ component version, gglMapGet latest component = some (.buf version) →
    VersionReads printG device.config component version
  disabled : device.disabled = []

/-- A recipe of the map of the deployment. -/
def Live (recipe : Recipe) : Prop :=
  Kept latest (recipe.component, recipe.version)

/-- What the cleanup is for: it keeps the recipes of the map and no others,
disables no service of the map, and leaves the versions of the map. -/
structure CleanedUp (after : Device) : Prop where
  kept : ∀ recipe ∈ recipes, Live latest recipe → recipeDir ++ [recipe.fileName] ∈ after.files
  removed : ∀ recipe ∈ recipes, ¬Live latest recipe →
    recipeDir ++ [recipe.fileName] ∉ after.files
  services : ∀ component, gglMapGet latest component ≠ none → component ∉ after.disabled
  versions : ∀ component version, gglMapGet latest component = some (.buf version) →
    VersionReads printG after.config component version

end

/-- An entry that is not kept and whose artifacts lead to the recipes. -/
def StaleWiper (latest : GglMap) (recipe : Recipe) : Prop :=
  ¬Kept latest (splitBase recipe.base) ∧ Wipes latest (splitBase recipe.base)

/-- The names are read back so that the same recipes are kept, no stale entry
takes all recipes along unless none is to be kept, and a stale entry of a
component of the map meets a version later than zero or `inactive` itself. -/
structure Harmless (latest : GglMap) (recipes : List Recipe) (database : Database) : Prop where
  wipers : (∃ recipe ∈ recipes, StaleWiper latest recipe) →
    ∀ recipe ∈ recipes, ¬Live latest recipe
  faithful : (∀ recipe ∈ recipes, ¬StaleWiper latest recipe) →
    ∀ recipe ∈ recipes, (Live latest recipe ↔ Kept latest (splitBase recipe.base))
  versions : ∀ recipe ∈ recipes, ∀ version text time,
    gglMapGet latest (splitBase recipe.base).1 = some (.buf version) →
    (splitBase recipe.base).2 ≠ version →
    database.Stored (versionPath (splitBase recipe.base).1) text time → time ≤ 0 →
    version = gglStr "inactive"

section Purpose

variable {recipes : List Recipe} {names : List Buffer}

/-- The entry read from a recipe removes the recipes of the same base. -/
@[simp]
theorem removesRecipe_splitBase_iff {recipe other : Recipe} :
    RemovesRecipe latest (splitBase other.base) recipe.fileName ↔
      ¬Kept latest (splitBase other.base) ∧
        (Wipes latest (splitBase other.base) ∨ recipe.base = other.base) := by
  have sameBase : (∃ extension, recipe.fileName =
      recipeFile (recipeBase (splitBase other.base).1 (splitBase other.base).2) extension) ↔
        recipe.base = other.base := by
    have whole : recipeBase (splitBase other.base).1 (splitBase other.base).2 = other.base :=
      recipeBase_splitBase other.component other.version
    rw [whole]
    constructor
    · rintro ⟨extension, same⟩
      exact recipeFile_inj same
    · intro same
      exact ⟨recipe.extension, by rw [Recipe.fileName, same]⟩
  rw [RemovesRecipe, sameBase]

@[simp]
theorem iterateOverComponents_fileName (recipe : Recipe) :
    iterateOverComponents recipe.fileName = some (splitBase recipe.base) :=
  iterateOverComponents_recipeFile recipe.component recipe.version recipe.extension

section Deployed

variable {readsRemoved : Buffer → Bool} {final : Device} {entries : List (Buffer × Buffer)}
  (deployed : Deployed printG latest recipes names device)

include deployed

/-- Every entry that is read comes from a recipe. -/
theorem Visited.exists_recipe (visited : Visited readsRemoved names final entries)
    (member : entry ∈ entries) : ∃ recipe ∈ recipes, entry = splitBase recipe.base := by
  rcases visited.fromNames entry member with ⟨name, inNames, parsed⟩
  rcases deployed.names name inNames with rfl | rfl | ⟨recipe, isRecipe, rfl⟩
  · cases parsed
  · cases parsed
  · rw [iterateOverComponents_fileName] at parsed
    exact ⟨recipe, isRecipe, (Option.some.inj parsed).symm⟩

/-- A recipe is gone if and only if a stale entry that was read has its base or
takes all recipes along. -/
theorem Visited.mem_files_iff (visited : Visited readsRemoved names final entries) {recipe : Recipe}
    (isRecipe : recipe ∈ recipes) :
    recipeDir ++ [recipe.fileName] ∈ (cleanupAll printG now latest device entries).files ↔
      ∀ other ∈ recipes, splitBase other.base ∈ entries →
        ¬Kept latest (splitBase other.base) →
        ¬Wipes latest (splitBase other.base) ∧ recipe.base ≠ other.base := by
  rw [mem_cleanupAll_files_iff, and_iff_right (deployed.stored recipe isRecipe)]
  constructor
  · intro spared other isOther member stale
    have notRemoved := spared _ member
    rw [removesRecipe_splitBase_iff] at notRemoved
    push Not at notRemoved
    exact notRemoved stale
  · intro spared entry member
    rcases visited.exists_recipe deployed member with ⟨other, isOther, rfl⟩
    rw [removesRecipe_splitBase_iff]
    rintro ⟨stale, wipes | same⟩
    · exact (spared other isOther member stale).1 wipes
    · exact (spared other isOther member stale).2 same

/-- An entry that is not read although it is stale was taken along by one that
was. -/
theorem Visited.exists_wiper
    (visited : Visited readsRemoved names (cleanupAll printG now latest device entries) entries)
    {wiper : Recipe} (isRecipe : wiper ∈ recipes) (staleWiper : StaleWiper latest wiper) :
    ∃ other ∈ recipes, splitBase other.base ∈ entries ∧ StaleWiper latest other := by
  rcases visited.complete _ (deployed.listed wiper isRecipe) _
    (iterateOverComponents_fileName wiper) with read | ⟨_, gone⟩
  · exact ⟨wiper, isRecipe, read, staleWiper⟩
  · rw [visited.mem_files_iff deployed isRecipe] at gone
    push Not at gone
    rcases gone with ⟨other, isOther, read, stale, removed⟩
    refine ⟨other, isOther, read, stale, ?_⟩
    by_contra spares
    rw [← removed spares] at spares
    exact spares staleWiper.2

theorem Harmless.cleanedUp (harmless : Harmless latest recipes device.config.configDatabase)
    (visited : Visited readsRemoved names (cleanupAll printG now latest device entries) entries) :
    CleanedUp printG latest recipes (cleanupAll printG now latest device entries) where
  kept recipe isRecipe live := by
    have noWiper : ∀ other ∈ recipes, ¬StaleWiper latest other := by
      intro other isOther wiper
      exact harmless.wipers ⟨other, isOther, wiper⟩ recipe isRecipe live
    rw [visited.mem_files_iff deployed isRecipe]
    intro other isOther read stale
    refine ⟨fun wipes => noWiper other isOther ⟨stale, wipes⟩, fun same => stale ?_⟩
    rw [← same]
    exact (harmless.faithful noWiper recipe isRecipe).mp live
  removed recipe isRecipe notLive := by
    rw [visited.mem_files_iff deployed isRecipe]
    intro spared
    by_cases wiper : ∃ other ∈ recipes, StaleWiper latest other
    · rcases wiper with ⟨other, isOther, staleWiper⟩
      rcases visited.exists_wiper deployed isOther staleWiper with
        ⟨reader, isReader, read, stale, wipes⟩
      exact (spared reader isReader read stale).1 wipes
    · push Not at wiper
      have stale : ¬Kept latest (splitBase recipe.base) :=
        fun kept => notLive ((harmless.faithful wiper recipe isRecipe).mpr kept)
      rcases visited.complete _ (deployed.listed recipe isRecipe) _
        (iterateOverComponents_fileName recipe) with read | ⟨_, gone⟩
      · exact (spared recipe isRecipe read stale).2 rfl
      · exact gone ((visited.mem_files_iff deployed isRecipe).mpr spared)
  services component mapped disabled := by
    rcases mem_cleanupAll_disabled disabled with before | missing
    · rw [deployed.disabled] at before
      cases before
    · exact mapped missing
  versions component version mapped := by
    rcases deployed.versions component version mapped with ⟨text, time, encoded, stored⟩
    by_cases spared : ∀ entry ∈ entries, Kept latest entry ∨ entry.1 ≠ component ∨ 0 < time
    · exact ⟨text, time, encoded, cleanupAll_stored deployed.inv spared stored⟩
    · push Not at spared
      rcases spared with ⟨entry, read, stale, rfl, early⟩
      rcases visited.exists_recipe deployed read with ⟨recipe, isRecipe, rfl⟩
      have different : (splitBase recipe.base).2 ≠ version := by
        rintro rfl
        exact stale mapped
      have isInactive := harmless.versions recipe isRecipe version text time mapped different
        stored early
      refine ⟨inactiveText, 0, ?_, cleanupAll_inactive deployed.inv early stored
        (.inr ⟨_, read, rfl, stale⟩)⟩
      rw [isInactive]
      rfl

/-- If the cleanup does what it is for and reads every entry, then the entries
were harmless. -/
theorem CleanedUp.harmless
    (cleanedUp : CleanedUp printG latest recipes (cleanupAll printG now latest device entries))
    (visited : Visited (fun _ => true) names (cleanupAll printG now latest device entries)
      entries) :
    Harmless latest recipes device.config.configDatabase := by
  have read : ∀ recipe ∈ recipes, splitBase recipe.base ∈ entries := by
    intro recipe isRecipe
    rcases visited.complete _ (deployed.listed recipe isRecipe) _
      (iterateOverComponents_fileName recipe) with read | ⟨impossible, _⟩
    · exact read
    · cases impossible
  constructor
  · rintro ⟨wiper, isWiper, stale, wipes⟩ recipe isRecipe live
    have kept := cleanedUp.kept recipe isRecipe live
    rw [visited.mem_files_iff deployed isRecipe] at kept
    exact (kept wiper isWiper (read wiper isWiper) stale).1 wipes
  · intro noWiper recipe isRecipe
    constructor
    · intro live
      have kept := cleanedUp.kept recipe isRecipe live
      rw [visited.mem_files_iff deployed isRecipe] at kept
      by_contra stale
      exact (kept recipe isRecipe (read recipe isRecipe) stale).2 rfl
    · intro kept
      by_contra notLive
      apply cleanedUp.removed recipe isRecipe notLive
      rw [visited.mem_files_iff deployed isRecipe]
      intro other isOther _ stale
      refine ⟨fun wipes => noWiper other isOther ⟨stale, wipes⟩, fun same => stale ?_⟩
      rwa [← same]
  · intro recipe isRecipe version text time mapped different stored early
    have stale : ¬Kept latest (splitBase recipe.base) := by
      intro kept
      rw [Kept, mapped] at kept
      cases kept
      exact different rfl
    have inactive : (cleanupAll printG now latest device entries).config.configDatabase.Stored
        (versionPath (splitBase recipe.base).1) inactiveText 0 :=
      cleanupAll_inactive deployed.inv early stored
        (.inr ⟨_, read recipe isRecipe, rfl, stale⟩)
    rcases cleanedUp.versions _ version mapped with ⟨readText, readTime, encoded, reads⟩
    rw [(Database.Stored.unique (cleanupAll_inv deployed.inv).tables.toWf reads inactive).1]
      at encoded
    exact Json.eq_of_gglJsonEncode_buf encoded (by decide)

end Deployed

/-- A device on which the component `c` was updated to version `2.0.0`.  The
daemon writes the version with timestamp zero. -/
def updatedDevice : Device where
  files := [recipeDir ++ [gglStr "c-1.0.0.yaml"], recipeDir ++ [gglStr "c-2.0.0.yaml"]]
  config := (ggconfigWriteValueAtKey noFault opened (versionPath (gglStr "c"))
    (gglStr "\"2.0.0\"") 0).2
  disabled := []

/-- The recipes of the updated device. -/
def updatedRecipes : List Recipe :=
  [⟨gglStr "c", gglStr "1.0.0", .yaml⟩, ⟨gglStr "c", gglStr "2.0.0", .yaml⟩]

/-- The map of the deployment that updated the device. -/
def updatedComponents : GglMap :=
  [(gglStr "c", .buf (gglStr "2.0.0"))]

/-- The entries of the recipe directory of the updated device. -/
def updatedNames : List Buffer :=
  [gglStr ".", gglStr "..", gglStr "c-1.0.0.yaml", gglStr "c-2.0.0.yaml"]

theorem updatedDevice_written :
    Written opened (versionPath (gglStr "c")) (gglStr "\"2.0.0\"") 0
      (ggconfigWriteValueAtKey noFault opened (versionPath (gglStr "c"))
        (gglStr "\"2.0.0\"") 0) :=
  ggconfigWriteValueAtKey_written rfl inv_opened.tables.toWf (versionPath_ne_nil _)
    (by decide)

theorem updatedDevice_stored :
    updatedDevice.config.configDatabase.Stored (versionPath (gglStr "c"))
      (gglStr "\"2.0.0\"") 0 := by
  apply updatedDevice_written.stored_of_ok inv_opened.tables.toWf
    (versionPath_ne_nil _) (by decide)
  rintro existing existingTime ⟨keyid, _, member⟩
  cases member

theorem updatedDevice_deployed :
    Deployed (fun _ => []) updatedComponents updatedRecipes updatedNames updatedDevice where
  inv := updatedDevice_written.daemon_inv inv_opened (versionPath_ne_nil _)
  stored := by decide
  listed := by decide
  names := by decide
  versions component version mapped := by
    rw [gglMapGet, updatedComponents, find?_singleton] at mapped
    split at mapped
    · rename_i same
      cases mapped
      rw [← of_decide_eq_true same]
      exact ⟨_, 0, rfl, updatedDevice_stored⟩
    · cases mapped
  disabled := rfl

end Purpose

end GreengrassLite.Deployment

import GreengrassLite.Core.Object
import Mathlib.Data.List.TakeWhile

/-!
# The component store

Recipes are files `<component>-<version>.<extension>` in one directory.
`iterate_over_components` of `ggdeploymentd/src/component_store.c` reads the
component and the version back from such a name: the component ends at the
first dash, and the version at the last dot.  A dash in the name of a component
therefore moves the rest of the name into the version.
-/

namespace GreengrassLite.Deployment

open List

/-- The byte `-`. -/
def dash : UInt8 := 45

/-- The byte `.`. -/
def dot : UInt8 := 46

/-- What stands before the last dot, and nothing if there is none. -/
def trimExtension (rest : Buffer) : Buffer :=
  ((rest.reverse.dropWhile fun byte => byte ≠ dot).drop 1).reverse

/-- The loop body of `iterate_over_components`: the component and the version
of a directory entry, if it has a dash with something after it. -/
def iterateOverComponents (entry : Buffer) : Option (Buffer × Buffer) :=
  let rest := (entry.dropWhile fun byte => byte ≠ dash).drop 1
  if rest = [] then
    none
  else
    some (entry.takeWhile fun byte => byte ≠ dash, trimExtension rest)

/-- The extensions under which `ggl_recipe_get_from_file` looks for a recipe. -/
inductive RecipeExtension where
  | json
  | yaml
  | yml
  deriving DecidableEq, Repr

/-- The extension as it stands in a file name. -/
def RecipeExtension.text : RecipeExtension → Buffer
  | json => gglStr "json"
  | yaml => gglStr "yaml"
  | yml => gglStr "yml"

/-- A recipe in the store. -/
structure Recipe where
  component : Buffer
  version : Buffer
  extension : RecipeExtension
  deriving DecidableEq, Repr

/-- The name of a recipe without its extension. -/
def recipeBase (component version : Buffer) : Buffer :=
  component ++ dash :: version

/-- The name of a recipe file with this base. -/
def recipeFile (base : Buffer) (extension : RecipeExtension) : Buffer :=
  base ++ dot :: extension.text

namespace Recipe

/-- The name of the recipe without its extension. -/
def base (recipe : Recipe) : Buffer :=
  recipeBase recipe.component recipe.version

/-- The name under which a recipe is stored. -/
def fileName (recipe : Recipe) : Buffer :=
  recipeFile recipe.base recipe.extension

end Recipe

/-- The component and the version that are read back from the base of a name. -/
def splitBase (base : Buffer) : Buffer × Buffer :=
  (base.takeWhile fun byte => byte ≠ dash, (base.dropWhile fun byte => byte ≠ dash).drop 1)

theorem RecipeExtension.dot_notMem_text (extension : RecipeExtension) : dot ∉ extension.text := by
  cases extension <;> decide

@[simp]
theorem trimExtension_append {version extension : Buffer} (plain : dot ∉ extension) :
    trimExtension (version ++ dot :: extension) = version := by
  have skipped : extension.reverse.dropWhile (fun byte => byte ≠ dot) = [] := by
    rw [dropWhile_eq_nil_iff]
    intro byte member
    have different : byte ≠ dot := by
      rintro rfl
      exact plain (mem_reverse.mp member)
    exact decide_eq_true different
  rw [trimExtension, reverse_append, reverse_cons, append_assoc,
    dropWhile_append, skipped]
  simp

@[simp]
theorem splitBase_append {before : Buffer} (after : Buffer) (plain : dash ∉ before) :
    splitBase (before ++ dash :: after) = (before, after) := by
  have all : ∀ byte ∈ before, decide (byte ≠ dash) = true := by
    intro byte member
    exact decide_eq_true fun equal => plain (equal ▸ member)
  rw [splitBase, takeWhile_append_of_pos all, dropWhile_append_of_pos all]
  simp

/-- What is read back from a base makes up the base. -/
@[simp]
theorem recipeBase_splitBase (component version : Buffer) :
    recipeBase (splitBase (recipeBase component version)).1
      (splitBase (recipeBase component version)).2 = recipeBase component version := by
  have member : dash ∈ recipeBase component version := by simp [recipeBase]
  rcases eq_append_cons_of_mem member with ⟨before, after, equal, plain⟩
  rw [equal, splitBase_append after plain, recipeBase]

/-- A component without a dash is read back as it was stored. -/
@[simp]
theorem splitBase_recipeBase {component : Buffer} (version : Buffer) (plain : dash ∉ component) :
    splitBase (recipeBase component version) = (component, version) :=
  splitBase_append version plain

/-- From the name of a recipe file its base is read back, split at the first
dash. -/
@[simp]
theorem iterateOverComponents_recipeFile (component version : Buffer)
    (extension : RecipeExtension) :
    iterateOverComponents (recipeFile (recipeBase component version) extension) =
      some (splitBase (recipeBase component version)) := by
  have member : dash ∈ recipeBase component version := by simp [recipeBase]
  rcases eq_append_cons_of_mem member with ⟨before, after, equal, plain⟩
  have parts := splitBase_append (after ++ dot :: extension.text) plain
  rw [splitBase, Prod.mk.injEq] at parts
  rw [equal, splitBase_append after plain, recipeFile, append_assoc, cons_append,
    iterateOverComponents, parts.1, parts.2, if_neg (by simp),
    trimExtension_append extension.dot_notMem_text]

/-- Recipe files have the same name only for the same base. -/
theorem recipeFile_inj {first second : Buffer} {firstExtension secondExtension : RecipeExtension}
    (same : recipeFile first firstExtension = recipeFile second secondExtension) :
    first = second := by
  have trimmed := congrArg trimExtension same
  rwa [recipeFile, recipeFile, trimExtension_append firstExtension.dot_notMem_text,
    trimExtension_append secondExtension.dot_notMem_text] at trimmed

end GreengrassLite.Deployment

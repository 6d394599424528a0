import GreengrassLite.Config.Client
import GreengrassLite.Config.Invariant
import GreengrassLite.Deployment.ComponentStore

/-!
# Removing stale components

After a deployment `cleanup_stale_versions` of
`ggdeploymentd/src/stale_component.c` goes over the recipe directory.  It keeps
a recipe whose component and version are in the map of the deployment.  For any
other it removes the artifacts and the recipe, and writes `inactive` with
timestamp zero as the version of the component; if the component is not in the
map at all, it also stops and disables its service.

A device is reduced to what this touches: the files below the root path, the
configuration, and the components whose services were disabled.  File system
and `systemctl` calls succeed.  A root path of at most 128 bytes, which opening
the recipe directory demands, and file names of at most 255 bytes keep every
path the functions build below `PATH_MAX`.
-/

namespace GreengrassLite.Deployment

open Config

/-- The part of a device the cleanup works on. -/
structure Device where
  files : List (List Buffer)
  config : Ggconfigd
  disabled : List Buffer

/-- The directory that a part of a path leads to. -/
def enterPart (path : List Buffer) (part : Buffer) : List Buffer :=
  if part = [] ∨ part = gglStr "." then path
  else if part = gglStr ".." then path.dropLast
  else path ++ [part]

/-- The directory a path of parts leads to. -/
def resolvePath (parts : List Buffer) : List Buffer :=
  parts.foldl enterPart []

/-- `remove_all_files`: everything at or below a path goes. -/
def removeAllFiles (parts : List Buffer) (files : List (List Buffer)) : List (List Buffer) :=
  files.filter fun file => ¬resolvePath parts <+: file

/-- `remove` of a single file. -/
def removeFile (path : List Buffer) (files : List (List Buffer)) : List (List Buffer) :=
  files.filter fun file => file ≠ path

/-- The artifacts of a component, or of one version of it. -/
def artifactPath (directory : Buffer) (component version : Buffer) (allVersions : Bool) :
    List Buffer :=
  [gglStr "packages", directory, component] ++ if allVersions then [] else [version]

/-- `delete_component_artifact`. -/
def deleteComponentArtifact (component version : Buffer) (deleteAllVersions : Bool)
    (files : List (List Buffer)) : List (List Buffer) :=
  removeAllFiles
    (artifactPath (gglStr "artifacts-unarchived") component version deleteAllVersions)
    (removeAllFiles (artifactPath (gglStr "artifacts") component version deleteAllVersions) files)

/-- The directory of the recipes. -/
def recipeDir : List Buffer :=
  [gglStr "packages", gglStr "recipes"]

/-- `delete_component_recipe`. -/
def deleteComponentRecipe (component version : Buffer) (files : List (List Buffer)) :
    List (List Buffer) :=
  [RecipeExtension.json, .yaml, .yml].foldl
    (fun files extension =>
      removeFile (recipeDir ++ [recipeFile (recipeBase component version) extension]) files)
    files

/-- The key path of the version of a component. -/
def versionPath (component : Buffer) : List Buffer :=
  [gglStr "services", component, gglStr "version"]

section Cleanup

variable (printG : UInt64 → Buffer) (now : Int)

/-- The write of `delete_component` to the configuration. -/
def writeInactive (component : Buffer) (config : Ggconfigd) : Ggconfigd :=
  (gglGgConfigWrite (fun _ => .ok ()) (rpcWrite printG (ggconfigWriteValueAtKey noFault) now)
    (versionPath component) (.buf (gglStr "inactive")) (some 0) config).2

/-- `delete_component`. -/
def deleteComponent (component version : Buffer) (deleteAllVersions : Bool) (device : Device) :
    Device :=
  { device with
    files := deleteComponentRecipe component version
      (deleteComponentArtifact component version deleteAllVersions device.files)
    config := writeInactive printG now component device.config }

/-- `disable_and_unlink_service`. -/
def disableAndUnlinkService (component : Buffer) (device : Device) : Device :=
  { device with disabled := device.disabled ++ [component] }

/-- `delete_recipe_script_and_service_files`. -/
def deleteRecipeScriptAndServiceFiles (component : Buffer) (device : Device) : Device :=
  { device with
    files := [gglStr ".script.install.json", gglStr ".script.run", gglStr ".service"].foldl
      (fun files extension => removeFile [gglStr "ggl." ++ component ++ extension] files)
      device.files }

/-- The loop body of `cleanup_stale_versions` for one component and version. -/
def cleanupComponent (latest : GglMap) (device : Device) (entry : Buffer × Buffer) : Device :=
  match gglMapGet latest entry.1 with
  | some (.buf version) =>
    if entry.2 = version then device
    else deleteComponent printG now entry.1 entry.2 false device
  | some _ => deleteComponent printG now entry.1 entry.2 false device
  | none =>
    deleteRecipeScriptAndServiceFiles entry.1 (disableAndUnlinkService entry.1
      (deleteComponent printG now entry.1 entry.2 true device))

variable (readsRemoved : Buffer → Bool)

/-- The loop of `cleanup_stale_versions` over the entries of the recipe
directory.  Whether `readdir` returns an entry that was removed since the
directory was opened is unspecified; `readsRemoved` says when it does. -/
def cleanupLoop (latest : GglMap) : List Buffer → Device → Device
  | [], device => device
  | entry :: entries, device =>
    if recipeDir ++ [entry] ∈ device.files ∨ readsRemoved entry then
      match iterateOverComponents entry with
      | none => cleanupLoop latest entries device
      | some component =>
        cleanupLoop latest entries
          (cleanupComponent printG now latest device component)
    else
      cleanupLoop latest entries device

/-- `cleanup_stale_versions`, where `directory` is the opened recipe directory. -/
def cleanupStaleVersions (directory : Except GglError (List Buffer)) (latest : GglMap)
    (device : Device) : Except GglError Unit × Device :=
  match directory with
  | .error error => (.error error, device)
  | .ok entries => (.ok (), cleanupLoop printG now readsRemoved latest entries device)

end Cleanup

end GreengrassLite.Deployment

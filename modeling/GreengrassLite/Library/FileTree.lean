import Mathlib.Data.List.Basic

/-!
# File trees

A file tree says what stands at each path.  Paths are read from the inside: the
first name of a path is its last component, and the path without it is the parent
directory.  So a path lies inside a directory if the directory is a suffix of it.
-/

namespace GreengrassLite.Library

universe u v

variable {α : Type u} {β : Type v}

/-- What stands at a path. -/
inductive FileNode (β : Type v)
  | directory
  | file (content : β)
  deriving DecidableEq, Repr

/-- A tree of files and directories: the root is a directory, and nothing stands
below a path that is not one. -/
structure FileTree (α : Type u) (β : Type v) where
  node : List α → Option (FileNode β)
  root : node [] = some .directory
  parent : ∀ {name path}, node (name :: path) ≠ none → node path = some .directory

namespace FileTree

variable {tree : FileTree α β} {path inner dir : List α} {name : α} {value : FileNode β}

/-- The directories above a directory. -/
theorem directory_of_suffix (isDirectory : tree.node inner = some .directory)
    (above : path <:+ inner) : tree.node path = some .directory := by
  induction inner with
  | nil =>
    cases List.suffix_nil.mp above
    exact isDirectory
  | cons name inner ih =>
    rcases List.suffix_cons_iff.mp above with rfl | above
    · exact isDirectory
    · have found : tree.node (name :: inner) ≠ none := by
        rw [isDirectory]
        exact Option.some_ne_none _
      exact ih (tree.parent found) above

variable [DecidableEq α]

/-- Puts a node below a directory, in the place of nothing or of a file. -/
def set (tree : FileTree α β) (name : α) (dir : List α) (value : FileNode β)
    (isDirectory : tree.node dir = some .directory)
    (replaces : tree.node (name :: dir) ≠ some .directory) : FileTree α β where
  node path := if path = name :: dir then some value else tree.node path
  root := (if_neg (List.cons_ne_nil name dir).symm).trans tree.root
  parent := by
    intro other path found
    by_cases here : path = name :: dir
    · -- nothing stood below the replaced node
      rw [if_neg (by rw [here]; exact List.cons_ne_self _ _), here] at found
      exact absurd (tree.parent found) replaces
    · rw [if_neg here]
      by_cases added : other :: path = name :: dir
      · cases added
        exact isDirectory
      · rw [if_neg added] at found
        exact tree.parent found

@[simp]
theorem set_node {isDirectory : tree.node dir = some .directory}
    {replaces : tree.node (name :: dir) ≠ some .directory} :
    (tree.set name dir value isDirectory replaces).node path
      = if path = name :: dir then some value else tree.node path :=
  rfl

/-- The tree of the given directories, without a file. -/
def ofDirectories (directories : List (List α)) (root : [] ∈ directories)
    (closed : ∀ {name path}, name :: path ∈ directories → path ∈ directories) : FileTree α β where
  node path := if path ∈ directories then some .directory else none
  root := if_pos root
  parent := by
    intro name path found
    by_cases listed : name :: path ∈ directories
    · exact if_pos (closed listed)
    · exact absurd (if_neg listed) found

end FileTree

end GreengrassLite.Library

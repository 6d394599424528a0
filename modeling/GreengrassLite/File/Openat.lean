import GreengrassLite.Core.Object
import GreengrassLite.Library.FileTree
import Mathlib.Data.List.DropRight

/-!
# Opening files below a directory

The part of `ggl-file/src/file.c` that walks a path component by component,
creating what is missing.  A descriptor is the path of what it was opened at, and
`..` leads to the parent.  There are no symbolic links.

The kernel may refuse any call; a call that a signal interrupts is made again and
is not counted.  The disk remembers every path that is created, truncated or
written.
-/

namespace GreengrassLite

open Library

/-- The components of an absolute path, the last one first. -/
abbrev Path := List Buffer

/-- The files and what was done to them. -/
structure Disk where
  tree : FileTree Buffer Buffer
  /-- what was created, truncated or written, the latest first. -/
  touched : List Path

/-- The disk, and the number of system calls made. -/
structure FileSystem where
  disk : Disk
  calls : Nat

/-- What the kernel does with each call: it lets it through or it refuses it, a
write after a number of bytes. -/
abbrev Kernel := Nat → Option Nat

/-- A fallible function that makes system calls. -/
structure FileM (α : Type) where
  run : Kernel → FileSystem → Except GglError α × FileSystem

namespace FileM

variable {α β : Type}

instance : Monad FileM where
  pure value := ⟨fun _ fs => (.ok value, fs)⟩
  bind action next :=
    ⟨fun kernel fs =>
      match action.run kernel fs with
      | (.ok value, fs) => (next value).run kernel fs
      | (.error error, fs) => (.error error, fs)⟩

def fail (error : GglError) : FileM α :=
  ⟨fun _ fs => (.error error, fs)⟩

/-- A fallible function that makes no system call. -/
def ofExcept (outcome : Except GglError α) : FileM α :=
  ⟨fun _ fs => (outcome, fs)⟩

variable {kernel : Kernel} {fs : FileSystem}

@[simp]
theorem run_pure {value : α} : (pure value : FileM α).run kernel fs = (.ok value, fs) :=
  rfl

@[simp]
theorem run_fail {error : GglError} : (fail error : FileM α).run kernel fs = (.error error, fs) :=
  rfl

theorem run_bind {action : FileM α} {next : α → FileM β} :
    (action >>= next).run kernel fs = match action.run kernel fs with
      | (.ok value, fs) => (next value).run kernel fs
      | (.error error, fs) => (.error error, fs) :=
  rfl

end FileM

/-! ## System calls -/

inductive Errno
  | enoent
  | other
  deriving DecidableEq, Repr

variable (dir : Path) (comp : Buffer)

/-- Where a component leads from a directory. -/
def enter : Path :=
  if comp = gglStr "." then dir
  else if comp = gglStr ".." then dir.tail
  else comp :: dir

/-- Makes a system call. -/
def systemCall {α : Type} (refused : Nat → Disk → α × Disk) (served : Disk → α × Disk) : FileM α :=
  ⟨fun kernel fs =>
    let (value, disk) := match kernel fs.calls with
      | some count => refused count fs.disk
      | none => served fs.disk
    (.ok value, ⟨disk, fs.calls + 1⟩)⟩

theorem systemCall_run {α : Type} {refused : Nat → Disk → α × Disk} {served : Disk → α × Disk}
    {kernel : Kernel} {fs : FileSystem} (answer : α × Disk)
    (answered : (∃ count, kernel fs.calls = some count ∧ refused count fs.disk = answer) ∨
      kernel fs.calls = none ∧ served fs.disk = answer) :
    (systemCall refused served).run kernel fs = (.ok answer.1, ⟨answer.2, fs.calls + 1⟩) := by
  rcases answered with ⟨count, isRefused, rfl⟩ | ⟨isServed, rfl⟩
  · simp only [systemCall, isRefused]
  · simp only [systemCall, isServed]

variable (disk : Disk) (path : Path)

/-- Puts a node at a path, unless the place is taken by a directory. -/
def Disk.put (value : FileNode Buffer) : Disk :=
  match path with
  | [] => disk
  | name :: dir =>
    if allowed : disk.tree.node dir = some .directory ∧
        disk.tree.node (name :: dir) ≠ some .directory then
      { tree := disk.tree.set name dir value allowed.1 allowed.2
        touched := (name :: dir) :: disk.touched }
    else
      disk

/-- The directory that `openat` with `O_DIRECTORY` finds. -/
def findDirectory (tree : FileTree Buffer Buffer) (dir : Path) (comp : Buffer) :
    Except Errno Path :=
  if comp = [] then
    .error .enoent
  else
    match tree.node (enter dir comp) with
    | none => .error .enoent
    | some (.file _) => .error .other
    | some .directory => .ok (enter dir comp)

/-- `openat` with `O_DIRECTORY`. -/
def openDirectory : FileM (Except Errno Path) :=
  systemCall (fun _ disk => (.error .other, disk))
    fun disk => (findDirectory disk.tree dir comp, disk)

/-- `mkdirat`. -/
def makeDirectory : FileM Bool :=
  systemCall (fun _ disk => (false, disk)) fun disk =>
    if comp = [] ∨ disk.tree.node dir ≠ some .directory ∨
        disk.tree.node (enter dir comp) ≠ none then
      (false, disk)
    else
      (true, disk.put (enter dir comp) .directory)

/-- `openat` with `O_WRONLY | O_CREAT | O_TRUNC`. -/
def openTruncated : FileM (Option Path) :=
  systemCall (fun _ disk => (none, disk)) fun disk =>
    if comp = [] ∨ disk.tree.node dir ≠ some .directory ∨
        disk.tree.node (enter dir comp) = some .directory then
      (none, disk)
    else
      (some (enter dir comp), disk.put (enter dir comp) (.file []))

/-- The bytes are added to the file. -/
def Disk.append (bytes : Buffer) : Disk :=
  match disk.tree.node path with
  | some (.file content) => disk.put path (.file (content ++ bytes))
  | _ => disk

/-- `ggl_file_write` on a file open for writing. -/
def gglFileWrite (bytes : Buffer) : FileM Bool :=
  systemCall (fun count disk => (false, disk.append path (bytes.take count)))
    fun disk => (true, disk.append path bytes)

/-- `ggl_file_write` of any buffer: for an empty one no call is made. -/
def gglFileWriteBuf (bytes : Buffer) : FileM Unit := do
  if bytes = [] then
    pure ()
  else if ← gglFileWrite path bytes then
    pure ()
  else
    FileM.fail .failure

/-- `ggl_fsync`. -/
def gglFsync : FileM Unit := do
  let synced ← systemCall (fun _ disk => (false, disk)) fun disk => (true, disk)
  if synced then pure () else FileM.fail .failure

/-! ## Walking a path -/

def slashByte : UInt8 :=
  47

/-- `NAME_MAX`. -/
def nameMax : Nat :=
  255

/-- `ggl_openat` of a directory. -/
def gglOpenat : FileM Path := do
  match ← openDirectory dir comp with
  | .ok path => pure path
  | .error _ => FileM.fail .failure

/-- `copy_dir_fd`. -/
def copyDirFd : FileM Path :=
  gglOpenat dir (gglStr ".")

/-- `ggl_mkdirat`. -/
def gglMkdirat : FileM Unit := do
  let parent ← copyDirFd dir
  if ← makeDirectory parent comp then gglFsync else FileM.fail .failure

/-- `ggl_dir_openat_mkdir`. -/
def gglDirOpenatMkdir : FileM Path := do
  match ← openDirectory dir comp with
  | .ok path => pure path
  | .error .other => FileM.fail .failure
  | .error .enoent =>
    gglMkdirat dir comp
    gglOpenat dir comp

/-- How `ggl_dir_openat` opens the next directory. -/
def openNext (create : Bool) (dir : Path) (comp : Buffer) : FileM Path :=
  if create then gglDirOpenatMkdir dir comp else gglOpenat dir comp

/-- The loop of `ggl_dir_openat` and the final component after it: `comp` is what
`split_path_first_comp` cuts off, and `rest` what further cuts will give. -/
def dirOpenatLoop (create : Bool) : Path → Buffer → List Buffer → FileM Path
  | cur, comp, [] =>
    if comp.length > nameMax then FileM.fail .nomem else openNext create cur comp
  | cur, comp, next :: rest =>
    if comp = [] then
      dirOpenatLoop create cur next rest
    else if comp.length > nameMax then
      FileM.fail .range
    else do
      let cur ← openNext create cur comp
      dirOpenatLoop create cur next rest

/-- `strip_trailing_slashes`. -/
def stripTrailingSlashes (path : Buffer) : Buffer :=
  path.rdropWhile (· = slashByte)

/-- `ggl_dir_openat`. -/
def gglDirOpenat (path : Buffer) (create : Bool) : FileM Path := do
  let cur ← copyDirFd dir
  match (stripTrailingSlashes path).splitOn slashByte with
  | [] => pure cur
  | comp :: rest => dirOpenatLoop create cur comp rest

/-- `ggl_dir_open`, in a process with this working directory. -/
def gglDirOpen (working : Path) (path : Buffer) (create : Bool) : FileM Path :=
  match path with
  | [] => FileM.fail .invalid
  | first :: rest =>
    let relPath := stripTrailingSlashes (if first = slashByte then rest else first :: rest)
    if relPath = [] then
      if first = slashByte then copyDirFd [] else FileM.fail .invalid
    else do
      let base ← copyDirFd (if first = slashByte then [] else working)
      gglDirOpenat base relPath create

/-- `split_path_last_comp`, with the part before the last slash if there is one. -/
def splitPathLastComp (path : Buffer) : Option Buffer × Buffer :=
  let file := path.rtakeWhile (· ≠ slashByte)
  (if slashByte ∈ path then some (path.take (path.length - file.length - 1)) else none, file)

/-- The directory in which `ggl_file_openat` opens the file. -/
def openParent (parent : Option Buffer) : FileM Path :=
  match parent with
  | some parent => gglDirOpenat dir parent true
  | none => copyDirFd dir

/-- `ggl_openat` of a file with `O_WRONLY | O_CREAT | O_TRUNC`. -/
def gglOpenatTruncated (file : Buffer) : FileM Path := do
  match ← openTruncated dir file with
  | some path => pure path
  | none => FileM.fail .failure

/-- `ggl_file_openat` with `O_WRONLY | O_CREAT | O_TRUNC`. -/
def gglFileOpenat (path : Buffer) : FileM Path := do
  let cur ← openParent dir (splitPathLastComp path).1
  if (splitPathLastComp path).2.length > nameMax then
    FileM.fail .nomem
  else
    gglOpenatTruncated cur (splitPathLastComp path).2

end GreengrassLite

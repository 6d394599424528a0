import GreengrassLite.File.Demands

/-!
# Unpacking an archive

`ggl_zip_unarchive` of `ggl-zip/src/zip.c`.  The first entry of an archive only
gives the name that is cut off the others; the rest are written below the
destination under whatever names they have.

The archive is what `libzip` reads from the file that was opened for reading, and
the descriptor of an entry that is a directory is an `O_PATH` one, which cannot be
written.
-/

namespace GreengrassLite

open List FileM

/-- A result of `zip_fread`; no bytes mean the end of the entry. -/
inductive ZipRead
  | bytes (data : Buffer)
  | failed
  deriving DecidableEq, Repr

/-- An entry as `libzip` gives it. -/
structure ZipEntry where
  /-- `zip_get_name`. -/
  name : Option Buffer
  /-- whether `zip_fopen_index` succeeds. -/
  opens : Bool
  reads : List ZipRead
  deriving DecidableEq, Repr

/-! ## The code -/

/-- The descriptor of an entry that was opened below the destination. -/
inductive EntryFd
  | directory (path : Path)
  | file (path : Path)

/-- `ggl_file_write` to the descriptor of an entry. -/
def writeFd : EntryFd → Buffer → FileM Bool
  | .directory _, _ => pure false
  | .file path, data => gglFileWrite path data

/-- `write_entry_to_fd`. -/
def writeEntryToFd (fd : EntryFd) : List ZipRead → FileM Unit
  | [] => pure ()
  | .failed :: _ => fail .failure
  | .bytes data :: rest =>
    if data = [] then
      pure ()
    else do
      if ← writeFd fd data then writeEntryToFd fd rest else fail .failure

/-- The name of an entry without the name of the first one. -/
def truncName (initName name : Buffer) : Buffer :=
  if initName <+: name then name.drop initName.length else name

/-- How the loop of `ggl_zip_unarchive` opens an entry. -/
def openEntry (dest : Path) (mode : UInt32) (name : Buffer) : FileM EntryFd :=
  if gglStr "/" <:+ name then do
    let path ← gglDirOpenat dest name (mode ≠ 0)
    pure (.directory path)
  else do
    let path ← gglFileOpenat dest name
    pure (.file path)

/-- The loop of `ggl_zip_unarchive` after the first entry. -/
def unarchiveLoop (dest : Path) (mode : UInt32) (initName : Buffer) : List ZipEntry → FileM Unit
  | [] => pure ()
  | entry :: rest =>
    match entry.name with
    | none => fail .failure
    | some name =>
      if entry.opens then do
        let fd ← openEntry dest mode (truncName initName name)
        writeEntryToFd fd entry.reads
        unarchiveLoop dest mode initName rest
      else
        fail .failure

section

variable (archive : Except GglError (List ZipEntry)) (dest : Path) (mode : UInt32)

/-- `ggl_zip_unarchive`, given what opening the archive answers. -/
def gglZipUnarchive : FileM Unit :=
  match archive with
  | .error error => fail error
  | .ok [] => pure ()
  | .ok (first :: rest) =>
    match first.name with
    | none => fail .failure
    | some initName => unarchiveLoop dest mode initName rest

/-! ## What the archive demands -/

/-- What writing the contents to a file demands. -/
def readDemands (path : Path) : List ZipRead → List Demand
  | [] => []
  | .failed :: _ => [.impossible]
  | .bytes data :: rest => if data = [] then [] else .file path :: readDemands path rest

/-- A directory has no contents. -/
def noReads : List ZipRead → List Demand
  | [] => []
  | .failed :: _ => [.impossible]
  | .bytes data :: _ => if data = [] then [] else [.impossible]

/-- What opening an entry demands. -/
def openDemands (name : Buffer) : List Demand :=
  if gglStr "/" <:+ name then dirDemands dest name (mode ≠ 0) else fileDemands dest name

/-- What writing an entry demands. -/
def contentDemands (name : Buffer) (reads : List ZipRead) : List Demand :=
  if gglStr "/" <:+ name then noReads reads else readDemands (fileEnd dest name) reads

def entriesDemands (initName : Buffer) : List ZipEntry → List Demand
  | [] => []
  | entry :: rest =>
    match entry.name with
    | none => [.impossible]
    | some name =>
      if entry.opens then
        openDemands dest mode (truncName initName name) ++
          (contentDemands dest (truncName initName name) entry.reads ++
            entriesDemands initName rest)
      else
        [.impossible]

/-- The demands of an archive on the disk, from its names and contents alone. -/
def archiveDemands : List Demand :=
  match archive with
  | .error _ => [.impossible]
  | .ok [] => []
  | .ok (first :: rest) =>
    match first.name with
    | none => [.impossible]
    | some initName => entriesDemands dest mode initName rest

end

section Follows

variable {kernel : Kernel} {fs : FileSystem} {dest path : Path} {mode : UInt32}
  {name initName : Buffer} {reads : List ZipRead} {entries : List ZipEntry}

theorem writeEntryToFd_directory :
    Follows kernel fs (writeEntryToFd (.directory path) reads) (noReads reads) () := by
  cases reads with
  | nil => exact .pure
  | cons read rest =>
    cases read with
    | failed => exact .fail trivial
    | bytes data =>
      rw [writeEntryToFd, noReads]
      by_cases ended : data = []
      · rw [if_pos ended, if_pos ended]
        exact .pure
      · rw [if_neg ended, if_neg ended]
        exact .fail trivial

/-- Each write demands the file that was opened. -/
theorem writeEntryToFd_file {content : Buffer}
    (isFile : fs.disk.tree.node path = some (.file content)) :
    Follows kernel fs (writeEntryToFd (.file path) reads) (readDemands path reads) () := by
  induction reads generalizing fs content with
  | nil => exact .pure
  | cons read rest ih =>
    cases read with
    | failed => exact .fail trivial
    | bytes data =>
      rw [writeEntryToFd, readDemands]
      by_cases ended : data = []
      · rw [if_pos ended, if_pos ended]
        exact .pure
      · rw [if_neg ended, if_neg ended]
        rw [Follows, run_bind, writeFd, gglFileWrite]
        cases answer : kernel fs.calls with
        | some count =>
          rw [systemCall_run _ (.inl ⟨count, answer, rfl⟩)]
          have refuses : kernel.Refuses := ⟨fs.calls, by rw [answer]; exact Option.some_ne_none _⟩
          exact .broken refuses rfl (Disk.append_touchesOnly _ isFile).1
        | none =>
          rw [systemCall_run _ (.inr ⟨answer, rfl⟩)]
          rcases Disk.append_touchesOnly data isFile with ⟨touches, appended⟩
          exact Follows.after (ih appended) (.writes touches appended)

theorem fileDemands_file (possible : .impossible ∉ fileDemands dest name) :
    .file (fileEnd dest name) ∈ fileDemands dest name := by
  rw [fileDemands] at possible ⊢
  split at possible
  · exact absurd (mem_append_right _ mem_cons_self) possible
  next valid =>
    rw [if_neg valid]
    exact mem_append_right _ mem_cons_self

/-- The descriptor an entry is opened with. -/
def entryFd (dest : Path) (name : Buffer) : EntryFd :=
  if gglStr "/" <:+ name then .directory (dirEnd dest name) else .file (fileEnd dest name)

theorem openEntry_follows :
    Follows kernel fs (openEntry dest mode name) (openDemands dest mode name)
      (entryFd dest name) := by
  rw [openEntry, openDemands, entryFd]
  split
  · rw [← append_nil (dirDemands dest name _)]
    exact gglDirOpenat_follows.bind fun _ _ => .pure
  · rw [← append_nil (fileDemands dest name)]
    exact gglFileOpenat_follows.bind fun _ _ => .pure

theorem writeEntryToFd_follows {disk : Disk}
    (opened : Unfolds kernel.Refuses disk (openDemands dest mode name) true fs.disk) :
    Follows kernel fs (writeEntryToFd (entryFd dest name) reads) (contentDemands dest name reads)
      () := by
  rw [entryFd, contentDemands]
  rw [openDemands] at opened
  split at opened
  next isDirectory =>
    rw [if_pos isDirectory, if_pos isDirectory]
    exact writeEntryToFd_directory
  next isFile =>
    rw [if_neg isFile, if_neg isFile]
    rcases opened.file (.inl (fileDemands_file opened.possible)) with ⟨content, found⟩
    exact writeEntryToFd_file found

theorem unarchiveLoop_follows :
    Follows kernel fs (unarchiveLoop dest mode initName entries)
      (entriesDemands dest mode initName entries) () := by
  induction entries generalizing fs with
  | nil => exact .pure
  | cons entry rest ih =>
    rw [unarchiveLoop, entriesDemands]
    cases entry.name with
    | none => exact .fail trivial
    | some name =>
      dsimp only
      split
      · apply openEntry_follows.bind
        intro fs' opened
        apply (writeEntryToFd_follows opened).bind
        intro fs'' _
        exact ih
      · exact .fail trivial

/-- Unpacking meets the demands of the archive one after the other. -/
theorem gglZipUnarchive_follows {archive : Except GglError (List ZipEntry)} :
    Follows kernel fs (gglZipUnarchive archive dest mode) (archiveDemands archive dest mode)
      () := by
  rw [gglZipUnarchive.eq_def, archiveDemands.eq_def]
  split
  · exact .fail trivial
  · exact .pure
  next first rest =>
    cases first.name with
    | none => exact .fail trivial
    | some initName => exact unarchiveLoop_follows

end Follows

end GreengrassLite

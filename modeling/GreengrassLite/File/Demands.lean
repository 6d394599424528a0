import GreengrassLite.File.Openat

/-!
# What a walk demands of the disk

The walk along a path, and the opening of a file at its end, come down to a list of
demands on the disk, met one after the other: a directory that must be there, or
may be created, and a file that is created or truncated.  `Unfolds` says once what
any of these functions can do, with the kernel refusing calls or not; the demands
depend on the path alone.
-/

namespace GreengrassLite

open Library List FileM

inductive Demand
  /-- a directory, which is created if it is missing and may be. -/
  | directory (path : Path) (create : Bool)
  /-- a file that is created or truncated, and written. -/
  | file (path : Path)
  /-- nothing meets it. -/
  | impossible
  deriving DecidableEq, Repr

/-- What meeting the demand may create, truncate or write. -/
def Demand.touches : Demand → Option Path
  | .directory path true => some path
  | .file path => some path
  | _ => none

/-- Nothing but the one path was touched. -/
structure Disk.TouchesOnly (disk disk' : Disk) (path : Path) : Prop where
  others : ∀ other, other ≠ path → disk'.tree.node other = disk.tree.node other
  touched : ∀ other, other ∈ disk'.touched ↔ other = path ∨ other ∈ disk.touched
  /-- a directory is not replaced. -/
  kept : disk.tree.node path ≠ some .directory

/-- The demand is met, on the disk it leaves behind. -/
inductive Demand.Meets : Disk → Demand → Disk → Prop
  | passes {disk path create} (found : disk.tree.node path = some .directory) :
      Meets disk (.directory path create) disk
  | creates {disk disk' path} (absent : disk.tree.node path = none)
      (touches : disk.TouchesOnly disk' path)
      (created : disk'.tree.node path = some .directory) :
      Meets disk (.directory path true) disk'
  | writes {disk disk' path content} (touches : disk.TouchesOnly disk' path)
      (written : disk'.tree.node path = some (.file content)) :
      Meets disk (.file path) disk'

/-- The disk does not allow the demand to be met. -/
def Demand.Stuck (disk : Disk) : Demand → Prop
  | .directory path create =>
    (∃ content, disk.tree.node path = some (.file content)) ∨
      disk.tree.node path = none ∧ create = false
  | .file path => disk.tree.node path = some .directory
  | .impossible => True

/-- Demands are met in order until all are, or until one of them is stuck.  With
refusals they may be left off anywhere, also in the middle of one. -/
inductive Unfolds (refusals : Prop) : Disk → List Demand → Bool → Disk → Prop
  | done {disk} : Unfolds refusals disk [] true disk
  | refused {disk demands} (refuses : refusals) : Unfolds refusals disk demands false disk
  | broken {disk disk' demand path demands} (refuses : refusals)
      (touching : demand.touches = some path) (touches : disk.TouchesOnly disk' path) :
      Unfolds refusals disk (demand :: demands) false disk'
  | stuck {disk demand demands} (stuck : demand.Stuck disk) :
      Unfolds refusals disk (demand :: demands) false disk
  | step {disk middle disk' demand demands complete} (meets : demand.Meets disk middle)
      (rest : Unfolds refusals middle demands complete disk') :
      Unfolds refusals disk (demand :: demands) complete disk'

section Unfolds

variable {refusals : Prop} {disk middle disk' : Disk} {demands later : List Demand}
  {demand : Demand} {path : Path} {complete create : Bool}

theorem Unfolds.append (first : Unfolds refusals disk demands true middle)
    (rest : Unfolds refusals middle later complete disk') :
    Unfolds refusals disk (demands ++ later) complete disk' := by
  generalize isTrue : true = done at first
  induction first with
  | done => exact rest
  | refused | broken | stuck => cases isTrue
  | step meets _ ih => exact .step meets (ih rest isTrue)

theorem Unfolds.append_left (first : Unfolds refusals disk demands false disk') :
    Unfolds refusals disk (demands ++ later) false disk' := by
  generalize isFalse : false = done at first
  induction first with
  | done => cases isFalse
  | refused refuses => exact .refused refuses
  | broken refuses touching touches => exact .broken refuses touching touches
  | stuck stuck => exact .stuck stuck
  | step meets _ ih => exact .step meets (ih isFalse)

/-- A demand for a directory that is there already may be left out. -/
theorem Unfolds.dismiss (unfolds : Unfolds refusals disk (.directory path create :: demands)
    complete disk') (found : disk.tree.node path = some .directory) :
    Unfolds refusals disk demands complete disk' := by
  cases unfolds with
  | refused refuses => exact .refused refuses
  | broken refuses touching touches =>
    cases create with
    | false => cases touching
    | true =>
      cases touching
      exact absurd found touches.kept
  | stuck stuck =>
    rw [Demand.Stuck, found] at stuck
    rcases stuck with ⟨_, isFile⟩ | ⟨absent, _⟩
    · cases isFile
    · cases absent
  | step meets rest =>
    cases meets with
    | passes _ => exact rest
    | creates absent touches created => exact absurd found touches.kept

theorem Disk.TouchesOnly.keeps_directory {other : Path} (touches : disk.TouchesOnly disk' path)
    (isDirectory : disk.tree.node other = some .directory) :
    disk'.tree.node other = some .directory := by
  rw [touches.others other, isDirectory]
  rintro rfl
  exact touches.kept isDirectory

theorem Demand.Meets.keeps_directory (meets : demand.Meets disk disk')
    (isDirectory : disk.tree.node path = some .directory) :
    disk'.tree.node path = some .directory := by
  cases meets with
  | passes found => exact isDirectory
  | creates _ touches | writes touches => exact touches.keeps_directory isDirectory

/-- Directories stay. -/
theorem Unfolds.keeps_directory (unfolds : Unfolds refusals disk demands complete disk')
    (isDirectory : disk.tree.node path = some .directory) :
    disk'.tree.node path = some .directory := by
  induction unfolds with
  | done | refused | stuck => exact isDirectory
  | broken refuses touching touches => exact touches.keeps_directory isDirectory
  | step meets _ ih => exact ih (meets.keeps_directory isDirectory)

/-- A directory that was demanded is there. -/
theorem Unfolds.directory (unfolds : Unfolds refusals disk demands true disk')
    (demanded : .directory path create ∈ demands) :
    disk'.tree.node path = some .directory := by
  generalize isTrue : true = done at unfolds
  induction unfolds with
  | done => cases demanded
  | refused | broken | stuck => cases isTrue
  | step meets rest ih =>
    rcases mem_cons.mp demanded with rfl | demanded
    · apply rest.keeps_directory
      cases meets with
      | passes found | creates _ _ found => exact found
    · exact ih demanded isTrue

theorem Demand.Meets.keeps_touched (meets : demand.Meets disk disk')
    (touched : path ∈ disk.touched) : path ∈ disk'.touched := by
  cases meets with
  | passes found => exact touched
  | creates _ touches | writes touches => exact (touches.touched path).mpr (.inr touched)

theorem Unfolds.keeps_touched (unfolds : Unfolds refusals disk demands complete disk')
    (touched : path ∈ disk.touched) : path ∈ disk'.touched := by
  induction unfolds with
  | done | refused | stuck => exact touched
  | broken refuses touching touches => exact (touches.touched path).mpr (.inr touched)
  | step meets _ ih => exact ih (meets.keeps_touched touched)

theorem Disk.TouchesOnly.keeps_file {other : Path} {content : Buffer}
    (touches : disk.TouchesOnly disk' path) (elsewhere : other ≠ path)
    (isFile : disk.tree.node other = some (.file content)) :
    disk'.tree.node other = some (.file content) := by
  rw [touches.others other elsewhere, isFile]

theorem Demand.Meets.keeps_file {content : Buffer} (meets : demand.Meets disk disk')
    (isFile : disk.tree.node path = some (.file content)) :
    ∃ content', disk'.tree.node path = some (.file content') := by
  cases meets with
  | passes found => exact ⟨content, isFile⟩
  | creates absent touches created =>
    refine ⟨content, touches.keeps_file ?_ isFile⟩
    rintro rfl
    cases absent.symm.trans isFile
  | @writes _ path' content' touches written =>
    by_cases same : path = path'
    · exact ⟨content', same ▸ written⟩
    · exact ⟨content, touches.keeps_file same isFile⟩

/-- A file that was demanded is there. -/
theorem Unfolds.file (unfolds : Unfolds refusals disk demands true disk')
    (demanded : .file path ∈ demands ∨ ∃ content, disk.tree.node path = some (.file content)) :
    ∃ content, disk'.tree.node path = some (.file content) := by
  generalize isTrue : true = done at unfolds
  induction unfolds with
  | done =>
    rcases demanded with demanded | isFile
    · cases demanded
    · exact isFile
  | refused | broken | stuck => cases isTrue
  | step meets rest ih =>
    apply ih _ isTrue
    rcases demanded with demanded | ⟨content, isFile⟩
    · rcases mem_cons.mp demanded with rfl | demanded
      · cases meets with
        | writes touches written => exact .inr ⟨_, written⟩
      · exact .inl demanded
    · exact .inr (meets.keeps_file isFile)

end Unfolds

/-! ## Changes of the disk -/

section Put

variable {disk : Disk} {dir path : Path} {comp name : Buffer} {value : FileNode Buffer}

section

variable (isDirectory : disk.tree.node dir = some .directory)
  (replaces : disk.tree.node (name :: dir) ≠ some .directory)

include isDirectory replaces

theorem Disk.put_cons :
    disk.put (name :: dir) value
      = { tree := disk.tree.set name dir value isDirectory replaces
          touched := (name :: dir) :: disk.touched } := by
  rw [Disk.put, dif_pos ⟨isDirectory, replaces⟩]

theorem Disk.put_touchesOnly : disk.TouchesOnly (disk.put (name :: dir) value) (name :: dir) := by
  rw [Disk.put_cons isDirectory replaces]
  constructor
  · intro other elsewhere
    rw [FileTree.set_node, if_neg elsewhere]
  · intro other
    exact mem_cons
  · exact replaces

theorem Disk.put_node : (disk.put (name :: dir) value).tree.node (name :: dir) = some value := by
  rw [Disk.put_cons isDirectory replaces, FileTree.set_node, if_pos rfl]

end

/-- A component that leads to something else than a directory is a name. -/
theorem enter_eq_cons {tree : FileTree Buffer Buffer}
    (isDirectory : tree.node dir = some .directory)
    (other : tree.node (enter dir comp) ≠ some .directory) : enter dir comp = comp :: dir := by
  unfold enter at other ⊢
  by_cases here : comp = gglStr "."
  · rw [if_pos here] at other
    exact absurd isDirectory other
  · rw [if_neg here] at other ⊢
    by_cases above : comp = gglStr ".."
    · rw [if_pos above] at other
      exact absurd (FileTree.directory_of_suffix isDirectory dir.tail_suffix) other
    · rw [if_neg above]

/-- Adding to a file touches that file only. -/
theorem Disk.append_touchesOnly (bytes : Buffer) {content : Buffer}
    (isFile : disk.tree.node path = some (.file content)) :
    disk.TouchesOnly (disk.append path bytes) path ∧
      (disk.append path bytes).tree.node path = some (.file (content ++ bytes)) := by
  have appended : disk.append path bytes = disk.put path (.file (content ++ bytes)) := by
    rw [Disk.append, isFile]
  have replaces : disk.tree.node path ≠ some .directory := by
    rw [isFile]
    nofun
  rw [appended]
  cases path with
  | nil => exact absurd disk.tree.root replaces
  | cons name dir =>
    have isDirectory : disk.tree.node dir = some .directory := by
      apply disk.tree.parent
      rw [isFile]
      exact Option.some_ne_none _
    exact ⟨put_touchesOnly isDirectory replaces, put_node isDirectory replaces⟩

end Put

/-! ## Actions and their demands -/

/-- The kernel refuses some call. -/
def Kernel.Refuses (kernel : Kernel) : Prop :=
  ∃ call, kernel call ≠ none

/-- The action meets the demands and answers the value, or fails on the way. -/
def Follows {α : Type} (kernel : Kernel) (fs : FileSystem) (action : FileM α)
    (demands : List Demand) (value : α) : Prop :=
  match action.run kernel fs with
  | (.ok result, fs') => result = value ∧ Unfolds kernel.Refuses fs.disk demands true fs'.disk
  | (.error _, fs') => Unfolds kernel.Refuses fs.disk demands false fs'.disk

section Follows

variable {α β : Type} {kernel : Kernel} {fs : FileSystem} {demands later : List Demand}
  {action : FileM α} {next : α → FileM β} {error : GglError}

theorem Follows.unfolds {value : α} (follows : Follows kernel fs action demands value) :
    ∃ complete, Unfolds kernel.Refuses fs.disk demands complete (action.run kernel fs).2.disk := by
  rw [Follows] at follows
  cases acted : action.run kernel fs with
  | mk outcome fs' =>
    rw [acted] at follows
    cases outcome with
    | error error => exact ⟨false, follows⟩
    | ok result => exact ⟨true, follows.2⟩

theorem Follows.bind {value : α} {result : β} (first : Follows kernel fs action demands value)
    (rest : ∀ fs', Unfolds kernel.Refuses fs.disk demands true fs'.disk →
      Follows kernel fs' (next value) later result) :
    Follows kernel fs (action >>= next) (demands ++ later) result := by
  rw [Follows] at first ⊢
  rw [run_bind]
  cases acted : action.run kernel fs with
  | mk outcome fs' =>
    rw [acted] at first
    cases outcome with
    | error error => exact first.append_left
    | ok answer =>
      rcases first with ⟨rfl, met⟩
      have continued := rest fs' met
      rw [Follows] at continued
      dsimp only
      cases answered : (next answer).run kernel fs' with
      | mk outcome fs'' =>
        rw [answered] at continued
        cases outcome with
        | error error => exact met.append continued
        | ok answer => exact ⟨continued.1, met.append continued.2⟩

theorem Follows.pure {value : α} : Follows kernel fs (Pure.pure value) [] value :=
  ⟨rfl, .done⟩

/-- Failing is allowed where the demands are stuck. -/
theorem Follows.fail {value : α} {demand : Demand} (stuck : demand.Stuck fs.disk) :
    Follows kernel fs (fail error) (demand :: demands) value :=
  .stuck stuck

theorem Follows.dismiss {value : α} {path : Path} {create : Bool}
    (follows : Follows kernel fs action (.directory path create :: demands) value)
    (found : fs.disk.tree.node path = some .directory) :
    Follows kernel fs action demands value := by
  rw [Follows] at follows ⊢
  cases acted : action.run kernel fs with
  | mk outcome fs' =>
    rw [acted] at follows
    cases outcome with
    | error error => exact follows.dismiss found
    | ok result => exact ⟨follows.1, follows.2.dismiss found⟩

/-- What follows a demand that was met, seen from the disk before it. -/
theorem Follows.after {value : α} {fs' : FileSystem} {demand : Demand}
    (follows : Follows kernel fs' action demands value) (meets : demand.Meets fs.disk fs'.disk) :
    match action.run kernel fs' with
    | (.ok result, fs'') =>
      result = value ∧ Unfolds kernel.Refuses fs.disk (demand :: demands) true fs''.disk
    | (.error _, fs'') => Unfolds kernel.Refuses fs.disk (demand :: demands) false fs''.disk := by
  rw [Follows] at follows
  cases acted : action.run kernel fs' with
  | mk outcome fs'' =>
    rw [acted] at follows
    cases outcome with
    | error error => exact .step meets follows
    | ok result => exact ⟨follows.1, .step meets follows.2⟩

/-- A call that leaves the disk as it is, and what follows it. -/
theorem Follows.call {refused : Nat → Disk → α × Disk} {served : Disk → α × Disk} {value : β}
    (refusedKeeps : ∀ count, (refused count fs.disk).2 = fs.disk)
    (servedKeeps : (served fs.disk).2 = fs.disk)
    (refusing : ∀ count fs', kernel.Refuses → fs'.disk = fs.disk →
      Follows kernel fs' (next (refused count fs.disk).1) demands value)
    (serving : ∀ fs', fs'.disk = fs.disk →
      Follows kernel fs' (next (served fs.disk).1) demands value) :
    Follows kernel fs (systemCall refused served >>= next) demands value := by
  rw [Follows, run_bind]
  cases answer : kernel fs.calls with
  | some count =>
    rw [systemCall_run _ (.inl ⟨count, answer, rfl⟩), refusedKeeps]
    have refuses : kernel.Refuses := ⟨fs.calls, by rw [answer]; exact Option.some_ne_none _⟩
    exact refusing count ⟨fs.disk, fs.calls + 1⟩ refuses rfl
  | none =>
    rw [systemCall_run _ (.inr ⟨answer, rfl⟩), servedKeeps]
    exact serving ⟨fs.disk, fs.calls + 1⟩ rfl

/-- A refused call makes the function fail. -/
theorem Follows.fail_refused {value : α} (refuses : kernel.Refuses) :
    Follows kernel fs (FileM.fail error) demands value :=
  .refused refuses

end Follows

/-! ## The functions of the walk -/

section Walk

variable {kernel : Kernel} {fs : FileSystem} {dir : Path} {comp : Buffer}

/-- `ggl_openat` demands the directory. -/
theorem gglOpenat_follows (nonempty : comp ≠ []) :
    Follows kernel fs (gglOpenat dir comp) [.directory (enter dir comp) false]
      (enter dir comp) := by
  apply Follows.call (fun _ => rfl) rfl
  · intro count fs' refuses _
    exact .fail_refused refuses
  · intro fs' same
    simp only [findDirectory, if_neg nonempty]
    cases found : fs.disk.tree.node (enter dir comp) with
    | none =>
      apply Follows.fail
      exact .inr ⟨same ▸ found, rfl⟩
    | some node =>
      cases node with
      | directory => exact ⟨rfl, .step (.passes (same ▸ found)) .done⟩
      | file content =>
        apply Follows.fail
        exact .inl ⟨content, same ▸ found⟩

/-- `copy_dir_fd` demands the directory it copies. -/
theorem copyDirFd_follows :
    Follows kernel fs (copyDirFd dir) [.directory dir false] dir := by
  have follows : Follows kernel fs (gglOpenat dir (gglStr "."))
      [.directory (enter dir (gglStr ".")) false] (enter dir (gglStr ".")) :=
    gglOpenat_follows (by decide)
  exact follows

variable (kernel) in
/-- `ggl_mkdirat` creates the directory, unless a call is refused. -/
theorem gglMkdirat_cases (isDirectory : fs.disk.tree.node dir = some .directory)
    (nonempty : comp ≠ []) (absent : fs.disk.tree.node (enter dir comp) = none) :
    ∃ fs' outcome, (gglMkdirat dir comp).run kernel fs = (outcome, fs') ∧
      (kernel.Refuses ∧ fs'.disk = fs.disk ∧ outcome = .error .failure ∨
        fs.disk.TouchesOnly fs'.disk (enter dir comp) ∧
          fs'.disk.tree.node (enter dir comp) = some .directory ∧
          (outcome = .ok () ∨ kernel.Refuses ∧ outcome = .error .failure)) := by
  have refuses : ∀ {call count}, kernel call = some count → kernel.Refuses :=
    fun refused => ⟨_, by rw [refused]; exact Option.some_ne_none _⟩
  have isName : enter dir comp = comp :: dir :=
    enter_eq_cons isDirectory (by rw [absent]; nofun)
  have absentName : fs.disk.tree.node (comp :: dir) = none := by
    rw [← isName, absent]
  have notDirectory : fs.disk.tree.node (comp :: dir) ≠ some .directory := by
    rw [absentName]
    nofun
  have copies : findDirectory fs.disk.tree dir (gglStr ".") = .ok dir := by
    rw [findDirectory, if_neg (by decide), enter, if_pos rfl, isDirectory]
  -- one case for each of the three calls: the copy, the creation and the sync
  cases copied : kernel fs.calls with
  | some count =>
    refine ⟨⟨fs.disk, fs.calls + 1⟩, .error .failure, ?_, .inl ⟨refuses copied, rfl, rfl⟩⟩
    simp [gglMkdirat, copyDirFd, gglOpenat, openDirectory, run_bind, systemCall, copied]
  | none =>
    cases made : kernel (fs.calls + 1) with
    | some count =>
      refine ⟨⟨fs.disk, fs.calls + 2⟩, .error .failure, ?_, .inl ⟨refuses made, rfl, rfl⟩⟩
      simp [gglMkdirat, copyDirFd, gglOpenat, openDirectory, makeDirectory, run_bind,
        systemCall, copied, copies, made]
    | none =>
      refine ⟨⟨fs.disk.put (comp :: dir) .directory, fs.calls + 3⟩,
        if kernel (fs.calls + 2) = none then .ok () else .error .failure, ?_, .inr ⟨?_, ?_, ?_⟩⟩
      · cases synced : kernel (fs.calls + 2) <;>
          simp [gglMkdirat, copyDirFd, gglOpenat, openDirectory, makeDirectory, gglFsync,
            run_bind, systemCall, copied, copies, made, nonempty, isDirectory, isName,
            absentName, synced]
      · rw [isName]
        exact Disk.put_touchesOnly isDirectory notDirectory
      · rw [isName]
        exact Disk.put_node isDirectory notDirectory
      · by_cases synced : kernel (fs.calls + 2) = none
        · exact .inl (if_pos synced)
        · exact .inr ⟨⟨_, synced⟩, if_neg synced⟩

/-- `ggl_dir_openat_mkdir` demands the directory and may create it. -/
theorem gglDirOpenatMkdir_follows (isDirectory : fs.disk.tree.node dir = some .directory)
    (nonempty : comp ≠ []) :
    Follows kernel fs (gglDirOpenatMkdir dir comp) [.directory (enter dir comp) true]
      (enter dir comp) := by
  apply Follows.call (fun _ => rfl) rfl
  · intro count fs' refuses _
    exact .fail_refused refuses
  · intro fs' same
    rw [← same] at isDirectory
    simp only [findDirectory, if_neg nonempty]
    cases found : fs.disk.tree.node (enter dir comp) with
    | some node =>
      cases node with
      | directory => exact ⟨rfl, .step (.passes (same ▸ found)) .done⟩
      | file content =>
        apply Follows.fail
        exact .inl ⟨content, same ▸ found⟩
    | none =>
      rw [← same] at found
      rcases gglMkdirat_cases kernel isDirectory nonempty found with
        ⟨fs'', outcome, made, ⟨refuses, kept, rfl⟩ | ⟨touches, created, outcomes⟩⟩
      · rw [Follows, run_bind, made]
        rw [← kept]
        exact .refused refuses
      · rw [Follows, run_bind, made]
        rcases outcomes with rfl | ⟨refuses, rfl⟩
        · have opens : Follows kernel fs'' (gglOpenat dir comp) [] (enter dir comp) :=
            (gglOpenat_follows nonempty).dismiss created
          exact opens.after (.creates found touches created)
        · exact .broken refuses rfl touches

theorem openNext_follows {create : Bool} (isDirectory : fs.disk.tree.node dir = some .directory)
    (nonempty : comp ≠ []) :
    Follows kernel fs (openNext create dir comp) [.directory (enter dir comp) create]
      (enter dir comp) := by
  cases create with
  | false => exact gglOpenat_follows nonempty
  | true => exact gglDirOpenatMkdir_follows isDirectory nonempty

variable (kernel fs dir) in
/-- An empty name is not created. -/
theorem gglMkdirat_empty :
    ∃ fs', (gglMkdirat dir []).run kernel fs = (.error .failure, fs') ∧ fs'.disk = fs.disk := by
  cases copied : kernel fs.calls with
  | some count =>
    refine ⟨⟨fs.disk, fs.calls + 1⟩, ?_, rfl⟩
    simp [gglMkdirat, copyDirFd, gglOpenat, openDirectory, run_bind, systemCall, copied]
  | none =>
    cases copy : findDirectory fs.disk.tree dir (gglStr ".") with
    | error error =>
      refine ⟨⟨fs.disk, fs.calls + 1⟩, ?_, rfl⟩
      simp [gglMkdirat, copyDirFd, gglOpenat, openDirectory, run_bind, systemCall, copied,
        copy]
    | ok parent =>
      refine ⟨⟨fs.disk, fs.calls + 2⟩, ?_, rfl⟩
      cases made : kernel (fs.calls + 1) <;>
        simp [gglMkdirat, copyDirFd, gglOpenat, openDirectory, makeDirectory, run_bind,
          systemCall, copied, copy, made]

/-- An empty component, left by a path of slashes only, is neither found nor
created. -/
theorem openNext_empty {create : Bool} {value : Path} :
    Follows kernel fs (openNext create dir []) [.impossible] value := by
  cases create with
  | false =>
    apply Follows.call (fun _ => rfl) rfl
    · intro count fs' refuses _
      exact .fail_refused refuses
    · intro fs' _
      exact .fail trivial
  | true =>
    apply Follows.call (fun _ => rfl) rfl
    · intro count fs' refuses _
      exact .fail_refused refuses
    · intro fs' _
      have absent : findDirectory fs.disk.tree dir [] = .error .enoent := if_pos rfl
      rcases gglMkdirat_empty kernel fs' dir with ⟨fs'', failed, same⟩
      simp only [absent]
      rw [Follows, run_bind, failed]
      dsimp only
      rw [same]
      exact .stuck trivial

/-- What the walk of `ggl_dir_openat` demands. -/
def walkDemands (create : Bool) : Path → Buffer → List Buffer → List Demand
  | cur, comp, [] =>
    if comp = [] ∨ comp.length > nameMax then [.impossible]
    else [.directory (enter cur comp) create]
  | cur, comp, next :: rest =>
    if comp = [] then walkDemands create cur next rest
    else if comp.length > nameMax then [.impossible]
    else .directory (enter cur comp) create :: walkDemands create (enter cur comp) next rest

/-- Where the walk ends. -/
def walkEnd : Path → Buffer → List Buffer → Path
  | cur, comp, [] => enter cur comp
  | cur, comp, next :: rest => walkEnd (if comp = [] then cur else enter cur comp) next rest

variable {rest : List Buffer} {parent : Option Buffer}

theorem dirOpenatLoop_follows {create : Bool}
    (isDirectory : fs.disk.tree.node dir = some .directory) :
    Follows kernel fs (dirOpenatLoop create dir comp rest) (walkDemands create dir comp rest)
      (walkEnd dir comp rest) := by
  induction rest generalizing fs dir comp with
  | nil =>
    rw [dirOpenatLoop, walkDemands]
    by_cases long : comp.length > nameMax
    · rw [if_pos long, if_pos (.inr long)]
      exact .fail trivial
    · rw [if_neg long]
      by_cases empty : comp = []
      · rw [empty]
        exact openNext_empty
      · rw [if_neg (not_or.mpr ⟨empty, long⟩)]
        exact openNext_follows isDirectory empty
  | cons next rest ih =>
    rw [dirOpenatLoop, walkDemands, walkEnd]
    by_cases empty : comp = []
    · rw [if_pos empty, if_pos empty, if_pos empty]
      exact ih isDirectory
    · rw [if_neg empty, if_neg empty, if_neg empty]
      by_cases long : comp.length > nameMax
      · rw [if_pos long, if_pos long]
        exact .fail trivial
      · rw [if_neg long, if_neg long]
        apply (openNext_follows isDirectory empty).bind
        intro fs' met
        exact ih (met.directory mem_cons_self)

/-- What `ggl_dir_openat` demands. -/
def dirDemands (dir : Path) (path : Buffer) (create : Bool) : List Demand :=
  .directory dir false ::
    match (stripTrailingSlashes path).splitOn slashByte with
    | [] => []
    | comp :: rest => walkDemands create dir comp rest

/-- The directory that `ggl_dir_openat` opens. -/
def dirEnd (dir : Path) (path : Buffer) : Path :=
  match (stripTrailingSlashes path).splitOn slashByte with
  | [] => dir
  | comp :: rest => walkEnd dir comp rest

theorem gglDirOpenat_follows {path : Buffer} {create : Bool} :
    Follows kernel fs (gglDirOpenat dir path create) (dirDemands dir path create)
      (dirEnd dir path) := by
  apply copyDirFd_follows.bind
  intro fs' met
  unfold dirEnd
  cases (stripTrailingSlashes path).splitOn slashByte with
  | nil => exact .pure
  | cons comp rest => exact dirOpenatLoop_follows (met.directory mem_cons_self)

/-- What `ggl_file_openat` demands before it opens the file. -/
def parentDemands (dir : Path) (parent : Option Buffer) : List Demand :=
  match parent with
  | some parent => dirDemands dir parent true
  | none => [.directory dir false]

def parentEnd (dir : Path) (parent : Option Buffer) : Path :=
  match parent with
  | some parent => dirEnd dir parent
  | none => dir

/-- The file that `ggl_file_openat` opens. -/
def fileEnd (dir : Path) (path : Buffer) : Path :=
  enter (parentEnd dir (splitPathLastComp path).1) (splitPathLastComp path).2

/-- What `ggl_file_openat` demands. -/
def fileDemands (dir : Path) (path : Buffer) : List Demand :=
  parentDemands dir (splitPathLastComp path).1 ++
    if (splitPathLastComp path).2 = [] ∨ (splitPathLastComp path).2.length > nameMax then
      [.impossible]
    else
      [.file (fileEnd dir path)]

theorem openParent_follows :
    Follows kernel fs (openParent dir parent) (parentDemands dir parent)
      (parentEnd dir parent) := by
  cases parent with
  | none => exact copyDirFd_follows
  | some parent => exact gglDirOpenat_follows

theorem walkEnd_demanded {create : Bool} :
    .directory (walkEnd dir comp rest) create ∈ walkDemands create dir comp rest ∨
      .impossible ∈ walkDemands create dir comp rest := by
  induction rest generalizing dir comp with
  | nil =>
    rw [walkDemands]
    split
    · exact .inr mem_cons_self
    · exact .inl mem_cons_self
  | cons next rest ih =>
    rw [walkDemands, walkEnd]
    split
    · exact ih
    · split
      · exact .inr mem_cons_self
      · exact ih.imp (mem_cons_of_mem _) (mem_cons_of_mem _)

/-- `openat` demands that no directory stands where the file shall be. -/
theorem gglOpenatTruncated_follows (isDirectory : fs.disk.tree.node dir = some .directory)
    (nonempty : comp ≠ []) :
    Follows kernel fs (gglOpenatTruncated dir comp) [.file (enter dir comp)] (enter dir comp) := by
  rw [Follows, gglOpenatTruncated, run_bind, openTruncated]
  cases answer : kernel fs.calls with
  | some count =>
    rw [systemCall_run _ (.inl ⟨count, answer, rfl⟩)]
    exact .refused ⟨fs.calls, by rw [answer]; exact Option.some_ne_none _⟩
  | none =>
    rw [systemCall_run _ (.inr ⟨answer, rfl⟩)]
    by_cases taken : fs.disk.tree.node (enter dir comp) = some .directory
    · rw [if_pos (.inr (.inr taken))]
      exact .stuck taken
    · have isName := enter_eq_cons isDirectory taken
      rw [if_neg (by simp [nonempty, isDirectory, taken])]
      rw [isName] at taken ⊢
      exact ⟨rfl, .step (.writes (Disk.put_touchesOnly isDirectory taken)
        (Disk.put_node isDirectory taken)) .done⟩

theorem gglOpenatTruncated_empty {value : Path} :
    Follows kernel fs (gglOpenatTruncated dir []) [.impossible] value := by
  rw [Follows, gglOpenatTruncated, run_bind, openTruncated]
  cases answer : kernel fs.calls with
  | some count =>
    rw [systemCall_run _ (.inl ⟨count, answer, rfl⟩)]
    exact .stuck trivial
  | none =>
    rw [systemCall_run _ (.inr ⟨answer, rfl⟩)]
    exact .stuck trivial

theorem Unfolds.possible {refusals : Prop} {disk disk' : Disk} {demands : List Demand}
    (unfolds : Unfolds refusals disk demands true disk') : .impossible ∉ demands := by
  generalize isTrue : true = done at unfolds
  induction unfolds with
  | done => exact not_mem_nil
  | refused | broken | stuck => cases isTrue
  | step meets rest ih =>
    intro demanded
    rcases mem_cons.mp demanded with rfl | demanded
    · cases meets
    · exact ih isTrue demanded

/-- The directory in which the file is opened is there. -/
theorem parentEnd_directory {refusals : Prop} {disk disk' : Disk}
    (met : Unfolds refusals disk (parentDemands dir parent) true disk') :
    disk'.tree.node (parentEnd dir parent) = some .directory := by
  cases parent with
  | none => exact met.directory mem_cons_self
  | some parent =>
    have here : disk'.tree.node dir = some .directory := met.directory mem_cons_self
    have possible := met.possible
    rw [parentDemands, dirDemands] at met possible
    rw [parentEnd, dirEnd]
    cases cut : (stripTrailingSlashes parent).splitOn slashByte with
    | nil => exact here
    | cons comp rest =>
      rw [cut] at met possible
      rcases walkEnd_demanded with demanded | impossible
      · exact met.directory (mem_cons_of_mem _ demanded)
      · exact absurd (mem_cons_of_mem _ impossible) possible

theorem gglFileOpenat_follows {path : Buffer} :
    Follows kernel fs (gglFileOpenat dir path) (fileDemands dir path) (fileEnd dir path) := by
  apply openParent_follows.bind
  intro fs' met
  have isDirectory := parentEnd_directory met
  by_cases long : (splitPathLastComp path).2.length > nameMax
  · rw [if_pos long, if_pos (.inr long)]
    exact .fail trivial
  · rw [if_neg long]
    by_cases empty : (splitPathLastComp path).2 = []
    · rw [empty]
      exact gglOpenatTruncated_empty
    · rw [if_neg (not_or.mpr ⟨empty, long⟩)]
      exact gglOpenatTruncated_follows isDirectory empty

end Walk

end GreengrassLite

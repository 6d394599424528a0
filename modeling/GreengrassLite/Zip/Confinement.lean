import GreengrassLite.Zip.Unarchive
import Mathlib.Data.List.Infix

/-!
# Where an archive is unpacked to

An archive is confined to its destination if, on whatever disk and whichever calls
the kernel refuses, nothing outside the destination is created, truncated or
written.  Nothing in the code keeps a name with `..` from leading out.  Whether
it does can be read off the names: the demands of the archive, as long as they do
not contradict one another, must not touch a path that is neither in the
destination nor one of the directories above it, which are there already.
-/

namespace GreengrassLite

open Library List

variable {archive : Except GglError (List ZipEntry)} {mode : UInt32} {name : Buffer}

/-- Everything that unpacking the archive touches lies in the destination. -/
def Confined (archive : Except GglError (List ZipEntry)) (dest : Path) (mode : UInt32) : Prop :=
  ∀ kernel fs, fs.disk.tree.node dest = some .directory → fs.disk.touched = [] →
    ∀ path ∈ ((gglZipUnarchive archive dest mode).run kernel fs).2.disk.touched, dest <:+ path

/-- The demands can be met together: none is impossible and no file is demanded
where a directory is. -/
def Consistent (dest : Path) (demands : List Demand) : Prop :=
  .impossible ∉ demands ∧
    ∀ path, .file path ∈ demands →
      (∀ create, .directory path create ∉ demands) ∧ ¬path <:+ dest

/-- No demand that can be reached touches a path off the destination, unless an
earlier one wants a directory to be there. -/
def Harmless (dest : Path) (demands : List Demand) : Prop :=
  ∀ before demand after path, demands = before ++ demand :: after → Consistent dest before →
    demand.touches = some path → (∀ create, .directory path create ∉ before) →
    dest <:+ path ∨ path <:+ dest

section Sound

variable {refusals : Prop} {disk disk' : Disk} {demands : List Demand} {dest path : Path}
  {complete : Bool}

/-- Whatever is touched is touched by a demand that was reached. -/
theorem Unfolds.touching (unfolds : Unfolds refusals disk demands complete disk')
    (touched : path ∈ disk'.touched) :
    path ∈ disk.touched ∨ ∃ before demand after middle, demands = before ++ demand :: after ∧
      Unfolds refusals disk before true middle ∧ demand.touches = some path ∧
      middle.tree.node path ≠ some .directory := by
  induction unfolds with
  | done | refused | stuck => exact .inl touched
  | broken refuses touching touches =>
    rcases (touches.touched path).mp touched with rfl | before
    · exact .inr ⟨[], _, _, _, rfl, .done, touching, touches.kept⟩
    · exact .inl before
  | @step disk middle disk' demand demands complete meets rest ih =>
    rcases ih touched with early | ⟨before, late, after, reached, rfl, unfolds, touching, kept⟩
    · have here : ∀ {other}, disk.TouchesOnly middle other → demand.touches = some other →
          path ∈ disk.touched ∨ ∃ before late after middle,
            demand :: demands = before ++ late :: after ∧
              Unfolds refusals disk before true middle ∧ late.touches = some path ∧
              middle.tree.node path ≠ some .directory := by
        intro other touches touching
        rcases (touches.touched path).mp early with rfl | before
        · exact .inr ⟨[], demand, demands, disk, rfl, .done, touching, touches.kept⟩
        · exact .inl before
      cases meets with
      | passes found => exact .inl early
      | creates _ touches | writes touches => exact here touches rfl
    · exact .inr ⟨demand :: before, late, after, reached, rfl, .step meets unfolds, touching, kept⟩

/-- Demands that were met are consistent. -/
theorem Unfolds.consistent (unfolds : Unfolds refusals disk demands true disk')
    (isDirectory : disk.tree.node dest = some .directory) : Consistent dest demands := by
  refine ⟨unfolds.possible, fun path demanded => ?_⟩
  rcases unfolds.file (.inl demanded) with ⟨content, isFile⟩
  constructor
  · intro create conflicting
    cases (unfolds.directory conflicting).symm.trans isFile
  · intro above
    have there := FileTree.directory_of_suffix (unfolds.keeps_directory isDirectory) above
    cases there.symm.trans isFile

theorem confined_of_harmless (harmless : Harmless dest (archiveDemands archive dest mode)) :
    Confined archive dest mode := by
  intro kernel fs isDirectory untouched path touched
  have follows : Follows kernel fs (gglZipUnarchive archive dest mode)
      (archiveDemands archive dest mode) () := gglZipUnarchive_follows
  rcases follows.unfolds with ⟨complete, unfolds⟩
  rcases unfolds.touching touched with early |
    ⟨before, demand, after, middle, split, reached, touching, kept⟩
  · rw [untouched] at early
    cases early
  · have unclaimed : ∀ create, .directory path create ∉ before :=
      fun create demanded => kept (reached.directory demanded)
    rcases harmless before demand after path split (reached.consistent isDirectory) touching
      unclaimed with inside | above
    · exact inside
    · -- the directories above the destination are there
      have there := FileTree.directory_of_suffix (reached.keeps_directory isDirectory) above
      exact absurd there kept

end Sound

/-! ## A disk on which a demand is reached -/

section Reached

variable {disk disk' : Disk} {before after demands later : List Demand} {demand : Demand}
  {path dest : Path} {known known' : List Path} {complete : Bool}

/-- Without refusals, the first demand touches its path, unless that is a directory or was
touched before. -/
theorem Unfolds.touches_first (unfolds : Unfolds False disk (demand :: after) complete disk')
    (touching : demand.touches = some path) (unclaimed : disk.tree.node path ≠ some .directory)
    (recorded : disk.tree.node path ≠ none → path ∈ disk.touched) : path ∈ disk'.touched := by
  cases unfolds with
  | refused refuses | broken refuses => exact refuses.elim
  | stuck stuck =>
    cases demand with
    | impossible => cases touching
    | file path =>
      cases touching
      exact absurd stuck unclaimed
    | directory path create =>
      cases create with
      | false => cases touching
      | true =>
        cases touching
        rcases stuck with ⟨content, isFile⟩ | ⟨_, isFalse⟩
        · apply recorded
          rw [isFile]
          exact Option.some_ne_none _
        · cases isFalse
  | step meets rest =>
    apply rest.keeps_touched
    cases meets with
    | @passes path create found =>
      cases create with
      | false => cases touching
      | true =>
        cases touching
        exact absurd found unclaimed
    | creates _ touches | writes touches =>
      cases touching
      exact (touches.touched path).mpr (.inl rfl)

/-- Without refusals, a disk that has the directories wanted before a demand, and no
directory in the place of a file, lets the demand be reached. -/
theorem Unfolds.reaches (unfolds : Unfolds False disk (before ++ demand :: after) complete disk')
    (directories : ∀ path create, .directory path create ∈ before →
      disk.tree.node path = some .directory)
    (files : ∀ path, .file path ∈ before → disk.tree.node path ≠ some .directory)
    (possible : .impossible ∉ before) (touching : demand.touches = some path)
    (unclaimed : disk.tree.node path ≠ some .directory)
    (recorded : disk.tree.node path ≠ none → path ∈ disk.touched) : path ∈ disk'.touched := by
  induction before generalizing disk with
  | nil => exact unfolds.touches_first touching unclaimed recorded
  | cons early before ih =>
    cases unfolds with
    | refused refuses | broken refuses => exact refuses.elim
    | stuck stuck =>
      cases early with
      | impossible => exact absurd mem_cons_self possible
      | file path => exact absurd stuck (files path mem_cons_self)
      | directory path create =>
        rw [Demand.Stuck, directories path create mem_cons_self] at stuck
        rcases stuck with ⟨_, isFile⟩ | ⟨absent, _⟩
        · cases isFile
        · cases absent
    | @step _ middle _ _ _ _ meets rest =>
      have directoriesLater : ∀ path create, .directory path create ∈ before →
          disk.tree.node path = some .directory :=
        fun path create demanded => directories path create (mem_cons_of_mem _ demanded)
      have filesLater : ∀ path, .file path ∈ before → disk.tree.node path ≠ some .directory :=
        fun path demanded => files path (mem_cons_of_mem _ demanded)
      have possibleLater : .impossible ∉ before :=
        fun demanded => possible (mem_cons_of_mem _ demanded)
      cases meets with
      | passes found =>
        exact ih rest directoriesLater filesLater possibleLater unclaimed recorded
      | creates absent touches created =>
        cases absent.symm.trans (directories _ true mem_cons_self)
      | @writes _ written content touches isWritten =>
        have stays : ∀ other, disk.tree.node other ≠ some .directory →
            middle.tree.node other ≠ some .directory := by
          intro other notDirectory
          by_cases same : other = written
          · rw [same, isWritten]
            intro isDirectory
            cases isDirectory
          · rw [touches.others other same]
            exact notDirectory
        apply ih rest
        · intro path create demanded
          exact touches.keeps_directory (directoriesLater path create demanded)
        · intro path demanded
          exact stays path (filesLater path demanded)
        · exact possibleLater
        · exact stays path unclaimed
        · intro found
          apply (touches.touched path).mpr
          by_cases same : path = written
          · exact .inl same
          · rw [touches.others path same] at found
            exact .inr (recorded found)

/-- Every directory demanded lies in one that is known or was demanded before. -/
def Rooted (known : List Path) : List Demand → Prop
  | [] => True
  | .directory path _ :: rest => path.tail ∈ known ∧ Rooted (path :: known) rest
  | _ :: rest => Rooted known rest

theorem Rooted.mono (rooted : Rooted known demands) (subset : known ⊆ known') :
    Rooted known' demands := by
  induction demands generalizing known known' with
  | nil => trivial
  | cons demand demands ih =>
    cases demand with
    | directory path create =>
      exact ⟨subset rooted.1, ih rooted.2 (cons_subset_cons path subset)⟩
    | file | impossible => exact ih rooted subset

theorem Rooted.append (first : Rooted known demands) (second : Rooted known later) :
    Rooted known (demands ++ later) := by
  induction demands generalizing known with
  | nil => exact second
  | cons demand demands ih =>
    cases demand with
    | directory path create =>
      exact ⟨first.1, ih first.2 (second.mono (subset_cons_self path known))⟩
    | file | impossible => exact ih first second

/-- The directories among the demands. -/
def directoriesOf (demands : List Demand) : List Path :=
  demands.filterMap fun
    | .directory path _ => some path
    | _ => none

@[simp]
theorem mem_directoriesOf :
    path ∈ directoriesOf demands ↔ ∃ create, .directory path create ∈ demands := by
  rw [directoriesOf, mem_filterMap]
  constructor
  · rintro ⟨demand, member, isPath⟩
    cases demand with
    | directory other create =>
      cases isPath
      exact ⟨create, member⟩
    | file | impossible => cases isPath
  · rintro ⟨create, member⟩
    exact ⟨.directory path create, member, rfl⟩

theorem Rooted.left (rooted : Rooted known (demands ++ later)) : Rooted known demands := by
  induction demands generalizing known with
  | nil => trivial
  | cons demand demands ih =>
    cases demand with
    | directory path create => exact ⟨rooted.1, ih rooted.2⟩
    | file | impossible => exact ih rooted

/-- Known and demanded directories together have their parents among them. -/
theorem Rooted.closed (rooted : Rooted known demands)
    (closed : ∀ {name path}, name :: path ∈ known → path ∈ known)
    (member : name :: path ∈ known ∨ name :: path ∈ directoriesOf demands) :
    path ∈ known ∨ path ∈ directoriesOf demands := by
  induction demands generalizing known with
  | nil =>
    rcases member with member | member
    · exact .inl (closed member)
    · cases member
  | cons demand demands ih =>
    cases demand with
    | directory added create =>
      have closedAdded : ∀ {name : Buffer} {path : Path}, name :: path ∈ added :: known →
          path ∈ added :: known := by
        intro name path member
        rcases mem_cons.mp member with rfl | member
        · exact mem_cons_of_mem _ rooted.1
        · exact mem_cons_of_mem _ (closed member)
      have memberAdded : name :: path ∈ added :: known ∨ name :: path ∈ directoriesOf demands := by
        rcases member with member | member
        · exact .inl (mem_cons_of_mem _ member)
        · rcases mem_cons.mp member with rfl | member
          · exact .inl mem_cons_self
          · exact .inr member
      rcases ih rooted.2 closedAdded memberAdded with found | found
      · rcases mem_cons.mp found with rfl | found
        · exact .inr mem_cons_self
        · exact .inl found
      · exact .inr (mem_cons_of_mem _ found)
    | file | impossible => exact ih rooted closed member

/-! The demands of an archive are rooted in the directories above its destination. -/

theorem enter_suffix {comp : Buffer} (above : ∀ path, path <:+ dest → path ∈ known) :
    (enter dest comp).tail ∈ known ∧
      ∀ path, path <:+ enter dest comp → path ∈ enter dest comp :: known := by
  unfold enter
  split
  · exact ⟨above _ dest.tail_suffix, fun path suffix => mem_cons_of_mem _ (above path suffix)⟩
  · split
    · refine ⟨above _ (dest.tail.tail_suffix.trans dest.tail_suffix), fun path suffix => ?_⟩
      exact mem_cons_of_mem _ (above path (suffix.trans dest.tail_suffix))
    · refine ⟨above _ (suffix_refl dest), fun path suffix => ?_⟩
      rcases suffix_cons_iff.mp suffix with rfl | suffix
      · exact mem_cons_self
      · exact mem_cons_of_mem _ (above path suffix)

theorem walkDemands_rooted {create : Bool} {comp : Buffer} {rest : List Buffer}
    (above : ∀ path, path <:+ dest → path ∈ known) :
    Rooted known (walkDemands create dest comp rest) := by
  induction rest generalizing dest comp known with
  | nil =>
    rw [walkDemands]
    split
    · trivial
    · exact ⟨(enter_suffix above).1, trivial⟩
  | cons next rest ih =>
    rw [walkDemands]
    split
    · exact ih above
    · split
      · trivial
      · exact ⟨(enter_suffix above).1, ih (enter_suffix above).2⟩

theorem dirDemands_rooted {create : Bool} (above : ∀ path, path <:+ dest → path ∈ known) :
    Rooted known (dirDemands dest name create) := by
  refine ⟨above _ dest.tail_suffix, ?_⟩
  split
  · trivial
  · exact walkDemands_rooted fun path suffix => mem_cons_of_mem _ (above path suffix)

theorem fileDemands_rooted (above : ∀ path, path <:+ dest → path ∈ known) :
    Rooted known (fileDemands dest name) := by
  apply Rooted.append
  · cases (splitPathLastComp name).1 with
    | none => exact ⟨above _ dest.tail_suffix, trivial⟩
    | some parent => exact dirDemands_rooted above
  · split
    · trivial
    · trivial

theorem contentDemands_rooted {reads : List ZipRead} :
    Rooted known (contentDemands dest name reads) := by
  rw [contentDemands]
  split
  · unfold noReads
    split
    · trivial
    · trivial
    · split
      · trivial
      · trivial
  · induction reads with
    | nil => trivial
    | cons read rest ih =>
      cases read with
      | failed => trivial
      | bytes data =>
        rw [readDemands]
        split
        · trivial
        · exact ih

theorem entriesDemands_rooted {initName : Buffer} {entries : List ZipEntry}
    (above : ∀ path, path <:+ dest → path ∈ known) :
    Rooted known (entriesDemands dest mode initName entries) := by
  induction entries with
  | nil => trivial
  | cons entry rest ih =>
    rw [entriesDemands]
    cases entry.name with
    | none => trivial
    | some name =>
      dsimp only
      split
      · apply Rooted.append
        · rw [openDemands]
          split
          · exact dirDemands_rooted above
          · exact fileDemands_rooted above
        · exact contentDemands_rooted.append ih
      · trivial

theorem archiveDemands_rooted : Rooted dest.tails (archiveDemands archive dest mode) := by
  rw [archiveDemands.eq_def]
  split
  · trivial
  · trivial
  next first rest =>
    cases first.name with
    | none => trivial
    | some initName => exact entriesDemands_rooted fun path => (mem_tails path dest).mpr

/-- A disk with the directories above the destination and those demanded, and
nothing else. -/
theorem exists_disk (rooted : Rooted dest.tails before) :
    ∃ disk : Disk, disk.touched = [] ∧
      (∀ path ∈ dest.tails ++ directoriesOf before, disk.tree.node path = some .directory) ∧
      ∀ path ∉ dest.tails ++ directoriesOf before, disk.tree.node path = none := by
  have closed : ∀ {name : Buffer} {path : Path},
      name :: path ∈ dest.tails ++ directoriesOf before →
        path ∈ dest.tails ++ directoriesOf before := by
    intro name path member
    apply mem_append.mpr
    refine rooted.closed ?_ (mem_append.mp member)
    intro name path member
    rw [mem_tails] at member ⊢
    exact (suffix_cons name path).trans member
  have root : [] ∈ dest.tails ++ directoriesOf before :=
    mem_append_left _ ((mem_tails [] dest).mpr nil_suffix)
  exact ⟨⟨FileTree.ofDirectories _ root closed, []⟩, rfl, fun _ present => if_pos present,
    fun _ missing => if_neg missing⟩

/-- A demand off the destination that can be reached is reached on some disk. -/
theorem not_confined_of_demand
    (split : archiveDemands archive dest mode = before ++ demand :: after)
    (consistent : Consistent dest before) (touching : demand.touches = some path)
    (unclaimed : ∀ create, .directory path create ∉ before) (outside : ¬dest <:+ path)
    (notAbove : ¬path <:+ dest) : ¬Confined archive dest mode := by
  intro confined
  have rooted : Rooted dest.tails (before ++ demand :: after) := split ▸ archiveDemands_rooted
  rcases exists_disk rooted.left with ⟨disk, untouched, present, missing⟩
  have isDirectory : ∀ path, path <:+ dest ∨ path ∈ directoriesOf before →
      disk.tree.node path = some .directory := by
    intro path member
    apply present
    exact mem_append.mpr (member.imp_left (mem_tails path dest).mpr)
  have isAbsent : ∀ path, ¬path <:+ dest → (∀ create, .directory path create ∉ before) →
      disk.tree.node path = none := by
    intro path notAbove unclaimed
    apply missing
    rw [mem_append, mem_tails, mem_directoriesOf]
    rintro (above | ⟨create, claimed⟩)
    · exact notAbove above
    · exact unclaimed create claimed
  have absent : disk.tree.node path = none := isAbsent path notAbove unclaimed
  let kernel : Kernel := fun _ => none
  let fs : FileSystem := ⟨disk, 0⟩
  have follows : Follows kernel fs (gglZipUnarchive archive dest mode)
      (archiveDemands archive dest mode) () := gglZipUnarchive_follows
  have serves : kernel.Refuses = False :=
    eq_false fun ⟨_, refused⟩ => refused rfl
  rcases follows.unfolds with ⟨complete, unfolds⟩
  rw [serves, split] at unfolds
  have touched := unfolds.reaches
    (fun path create demanded => isDirectory path (.inr (mem_directoriesOf.mpr ⟨create, demanded⟩)))
    (fun path demanded => by
      rw [isAbsent path (consistent.2 path demanded).2 (consistent.2 path demanded).1]
      nofun)
    consistent.1 touching (by rw [absent]; nofun) (fun found => absurd absent found)
  exact outside (confined kernel fs (isDirectory dest (.inl (suffix_refl dest))) untouched
    path touched)

end Reached

/-- An archive is confined to its destination exactly if its demands are
harmless. -/
theorem confined_iff (archive : Except GglError (List ZipEntry)) (dest : Path) (mode : UInt32) :
    Confined archive dest mode ↔ Harmless dest (archiveDemands archive dest mode) := by
  constructor
  · intro confined before demand after path split consistent touching unclaimed
    by_contra stray
    rw [not_or] at stray
    exact not_confined_of_demand split consistent touching unclaimed stray.1 stray.2 confined
  · exact confined_of_harmless

/-- A disk with one directory. -/
def exampleFileSystem : FileSystem where
  calls := 0
  disk :=
    { tree := FileTree.ofDirectories [[], [gglStr "dest"]] mem_cons_self (by
        intro name path member
        rcases mem_cons.mp member with empty | member
        · cases empty
        · cases mem_singleton.mp member
          exact mem_cons_self)
      touched := [] }

/-- An archive whose second entry is named `../x`. -/
def escapingArchive : List ZipEntry :=
  [⟨some (gglStr "root/"), true, []⟩, ⟨some (gglStr "../x"), true, [.bytes (gglStr "text")]⟩]

/-- A name with `..` leads out of the destination. -/
theorem parent_entry_escapes :
    ((gglZipUnarchive (.ok escapingArchive) [gglStr "dest"] 420).run (fun _ => none)
        exampleFileSystem).2.disk.touched = [[gglStr "x"], [gglStr "x"]] ∧
      ¬Confined (.ok escapingArchive) [gglStr "dest"] 420 := by
  have touched : ((gglZipUnarchive (.ok escapingArchive) [gglStr "dest"] 420).run (fun _ => none)
      exampleFileSystem).2.disk.touched = [[gglStr "x"], [gglStr "x"]] := by
    decide +kernel
  refine ⟨touched, fun confined => ?_⟩
  have inside := confined (fun _ => none) exampleFileSystem rfl rfl [gglStr "x"]
    (by rw [touched]; exact mem_cons_self)
  exact absurd inside (by decide)

end GreengrassLite

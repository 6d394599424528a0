import GreengrassLite.File.Demands

/-!
# The path a text names

A path is followed component by component, where empty components lead nowhere
else.  A walk that succeeds ends there, and a file opened for writing is empty
until it is written.
-/

namespace GreengrassLite

open List FileM

/-- One component of a path is followed. -/
def followComponent (dir : Path) (comp : Buffer) : Path :=
  if comp = [] then dir else enter dir comp

/-- Where a text leads from a directory. -/
def follow (dir : Path) (path : Buffer) : Path :=
  (path.splitOn slashByte).foldl followComponent dir

/-- The path that a text names in a process with this working directory. -/
def resolve (working : Path) (path : Buffer) : Path :=
  follow (if path.head? = some slashByte then [] else working) path

section Follow

variable {dir : Path} {comp path : Buffer}

@[simp]
theorem follow_nil : follow dir [] = dir :=
  rfl

theorem follow_of_notMem (name : slashByte ∉ comp) (nonempty : comp ≠ []) :
    follow dir comp = enter dir comp := by
  rw [follow, splitOn_eq_singleton name]
  exact if_neg nonempty

/-- What stands behind a slash is followed from where the part before it leads. -/
@[simp]
theorem follow_append (first rest : Buffer) :
    follow dir (first ++ slashByte :: rest) = follow (follow dir first) rest := by
  have split : (first ++ slashByte :: rest).splitOn slashByte = _ :=
    splitOnP_append_cons first rest (beq_self_eq_true slashByte)
  rw [follow, split, foldl_append]
  rfl

/-- What does not depend on a slash at the end does not depend on any of them. -/
theorem strip_invariant {β : Type} (f : Buffer → β)
    (last : ∀ path, f (path ++ [slashByte]) = f path) (path : Buffer) :
    f (stripTrailingSlashes path) = f path := by
  induction path using reverseRecOn with
  | nil => rfl
  | append_singleton path byte ih =>
    rw [stripTrailingSlashes]
    by_cases slash : byte = slashByte
    · have dropped : (path ++ [byte]).rdropWhile (· = slashByte) = stripTrailingSlashes path :=
        rdropWhile_concat_pos _ path byte (decide_eq_true slash)
      rw [dropped, ih, slash, last]
    · rw [rdropWhile_concat_neg _ path byte (by simpa using slash)]

@[simp]
theorem follow_stripTrailingSlashes : follow dir (stripTrailingSlashes path) = follow dir path :=
  strip_invariant (follow dir) (fun path => (follow_append path []).trans follow_nil) path

/-- A walk that can succeed follows every component. -/
@[simp]
theorem walkEnd_eq {create : Bool} {rest : List Buffer}
    (possible : .impossible ∉ walkDemands create dir comp rest) :
    walkEnd dir comp rest = (comp :: rest).foldl followComponent dir := by
  induction rest generalizing dir comp with
  | nil =>
    rw [walkDemands] at possible
    split at possible
    · exact absurd mem_cons_self possible
    next named => exact (if_neg (not_or.mp named).1).symm
  | cons next rest ih =>
    rw [walkDemands] at possible
    rw [walkEnd, foldl_cons, followComponent]
    split at possible
    next empty =>
      rw [if_pos empty]
      exact ih possible
    next named =>
      rw [if_neg named]
      split at possible
      · exact absurd mem_cons_self possible
      · exact ih (fun demanded => possible (mem_cons_of_mem _ demanded))

@[simp]
theorem dirEnd_eq {create : Bool} (possible : .impossible ∉ dirDemands dir path create) :
    dirEnd dir path = follow dir path := by
  rw [← follow_stripTrailingSlashes, dirEnd, follow]
  rw [dirDemands] at possible
  cases cut : (stripTrailingSlashes path).splitOn slashByte with
  | nil => exact absurd cut (splitOn_ne_nil _ _)
  | cons comp rest =>
    rw [cut] at possible
    exact walkEnd_eq fun demanded => possible (mem_cons_of_mem _ demanded)

/-- A path is a name, or has a last slash. -/
theorem exists_last_slash (path : Buffer) :
    slashByte ∉ path ∨ ∃ parent name, slashByte ∉ name ∧ path = parent ++ slashByte :: name := by
  by_cases slash : slashByte ∈ path
  · rcases eq_append_cons_of_mem (mem_reverse.mpr slash) with ⟨name, parent, cut, bare⟩
    refine .inr ⟨parent.reverse, name.reverse, fun mem => bare (mem_reverse.mp mem), ?_⟩
    rw [reverse_eq_iff.mp cut]
    simp
  · exact .inl slash

variable {name : Buffer}

theorem rtakeWhile_append (front : Buffer) (bare : slashByte ∉ name) :
    (front ++ name).rtakeWhile (· ≠ slashByte) = front.rtakeWhile (· ≠ slashByte) ++ name := by
  have all : ∀ byte ∈ name.reverse, decide (byte ≠ slashByte) = true := fun byte mem =>
    decide_eq_true (ne_of_mem_of_not_mem (mem_reverse.mp mem) bare)
  rw [rtakeWhile, reverse_append, takeWhile_append_of_pos all, reverse_append,
    reverse_reverse]
  rfl

@[simp]
theorem splitPathLastComp_name (bare : slashByte ∉ name) :
    splitPathLastComp name = (none, name) := by
  have taken := rtakeWhile_append [] bare
  rw [splitPathLastComp, if_neg bare]
  exact congrArg _ taken

/-- `split_path_last_comp` cuts at the last slash. -/
@[simp]
theorem splitPathLastComp_append (parent : Buffer) (bare : slashByte ∉ name) :
    splitPathLastComp (parent ++ slashByte :: name) = (some parent, name) := by
  have taken := rtakeWhile_append (parent ++ [slashByte]) bare
  rw [rtakeWhile_concat_neg _ _ _ (by simp), ← append_cons] at taken
  have size : (parent ++ slashByte :: name).length - name.length - 1 = parent.length := by
    rw [length_append, length_cons]
    omega
  rw [splitPathLastComp, if_pos (by simp), taken, nil_append, size, take_left]

@[simp]
theorem fileEnd_eq (possible : .impossible ∉ fileDemands dir path) :
    fileEnd dir path = follow dir path := by
  rw [fileDemands, mem_append, not_or] at possible
  have nonempty : (splitPathLastComp path).2 ≠ [] := by
    intro empty
    rw [if_pos (.inl empty)] at possible
    exact possible.2 mem_cons_self
  rcases exists_last_slash path with bare | ⟨parent, name, bare, rfl⟩
  · rw [splitPathLastComp_name bare] at nonempty
    rw [fileEnd, splitPathLastComp_name bare]
    exact (follow_of_notMem bare nonempty).symm
  · rw [splitPathLastComp_append parent bare] at nonempty possible
    rw [fileEnd, splitPathLastComp_append parent bare, parentEnd, dirEnd_eq possible.1,
      ← follow_of_notMem bare nonempty, ← follow_append]

end Follow

/-! ## Opening and writing -/

section Opening

variable {kernel : Kernel} {fs fs' : FileSystem} {dir result : Path} {path : Buffer}
  {α : Type} {demands : List Demand}

theorem FileM.bind_eq_ok {β : Type} {action : FileM α} {next : α → FileM β} {value : β}
    (acted : (action >>= next).run kernel fs = (.ok value, fs')) :
    ∃ middle between, action.run kernel fs = (.ok middle, between) ∧
      (next middle).run kernel between = (.ok value, fs') := by
  rw [run_bind] at acted
  split at acted
  next middle between first => exact ⟨middle, between, first, acted⟩
  next => cases acted

theorem FileM.ofExcept_eq_ok {outcome : Except GglError α} {value : α}
    (acted : (ofExcept outcome).run kernel fs = (.ok value, fs')) :
    outcome = .ok value ∧ fs' = fs := by
  cases acted
  exact ⟨rfl, rfl⟩

section

variable {action : FileM α} {value answer : α} (follows : Follows kernel fs action demands value)
  (acted : action.run kernel fs = (.ok answer, fs'))

include follows acted

theorem Follows.met : Unfolds kernel.Refuses fs.disk demands true fs'.disk := by
  rw [Follows, acted] at follows
  exact follows.2

theorem Follows.eq_ok : answer = value ∧ .impossible ∉ demands := by
  have met := follows.met acted
  rw [Follows, acted] at follows
  exact ⟨follows.1, met.possible⟩

end

theorem copyDirFd_eq_ok (opened : (copyDirFd dir).run kernel fs = (.ok result, fs')) :
    result = dir :=
  (copyDirFd_follows.eq_ok opened).1

/-- `ggl_dir_open` opens the directory that the path names. -/
theorem gglDirOpen_eq_ok {working : Path} {create : Bool}
    (opened : (gglDirOpen working path create).run kernel fs = (.ok result, fs')) :
    result = resolve working path := by
  cases path with
  | nil => cases opened
  | cons first rest =>
    -- A leading slash is followed from the root to the root.
    have rooted : resolve working (first :: rest) =
        follow (if first = slashByte then [] else working)
          (if first = slashByte then rest else first :: rest) := by
      rw [resolve, head?_cons]
      by_cases slash : first = slashByte
      · rw [slash]
        exact follow_append [] rest
      · rw [if_neg (by simpa using slash), if_neg slash, if_neg slash]
    rw [rooted, ← follow_stripTrailingSlashes]
    rw [gglDirOpen] at opened
    by_cases bare : stripTrailingSlashes (if first = slashByte then rest else first :: rest) = []
    · rw [if_pos bare] at opened
      rw [bare, follow_nil]
      split at opened
      next slash => rw [copyDirFd_eq_ok opened, if_pos slash]
      next => cases opened
    · rw [if_neg bare] at opened
      rcases bind_eq_ok opened with ⟨base, between, based, walked⟩
      rcases gglDirOpenat_follows.eq_ok walked with ⟨rfl, possible⟩
      rw [dirEnd_eq possible, copyDirFd_eq_ok based]

/-- A file opened for writing is the one that the path names, and empty. -/
theorem gglFileOpenat_eq_ok (opened : (gglFileOpenat dir path).run kernel fs = (.ok result, fs')) :
    result = follow dir path ∧ fs'.disk.tree.node result = some (.file []) := by
  rcases gglFileOpenat_follows.eq_ok opened with ⟨isEnd, possible⟩
  refine ⟨isEnd.trans (fileEnd_eq possible), ?_⟩
  rcases bind_eq_ok opened with ⟨parent, between, -, last⟩
  split at last
  · cases last
  rcases bind_eq_ok last with ⟨answer, after, called, answered⟩
  cases answer with
  | none => cases answered
  | some file =>
    cases answered
    rw [openTruncated, systemCall] at called
    dsimp only at called
    split at called
    · cases called
    split at called
    · cases called
    next free =>
      simp only [not_or, not_not] at free
      cases called
      rw [enter_eq_cons free.2.1 free.2.2]
      exact Disk.put_node free.2.1 (enter_eq_cons free.2.1 free.2.2 ▸ free.2.2)

theorem gglFileWrite_eq_true {bytes content : Buffer}
    (isFile : fs.disk.tree.node result = some (.file content))
    (written : (gglFileWrite result bytes).run kernel fs = (.ok true, fs')) :
    fs'.disk.tree.node result = some (.file (content ++ bytes)) := by
  rw [gglFileWrite, systemCall] at written
  dsimp only at written
  split at written
  · cases written
  · cases written
    exact (Disk.append_touchesOnly bytes isFile).2

/-- What is written to an empty file is its content. -/
theorem gglFileWriteBuf_eq_ok {bytes : Buffer}
    (isEmpty : fs.disk.tree.node result = some (.file []))
    (written : (gglFileWriteBuf result bytes).run kernel fs = (.ok (), fs')) :
    fs'.disk.tree.node result = some (.file bytes) := by
  rw [gglFileWriteBuf] at written
  split at written
  next nothing =>
    cases written
    rw [nothing]
    exact isEmpty
  next =>
    rcases bind_eq_ok written with ⟨answer, after, called, answered⟩
    cases answer with
    | false => cases answered
    | true =>
      cases answered
      exact gglFileWrite_eq_true isEmpty called

end Opening

end GreengrassLite

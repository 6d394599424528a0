import GreengrassLite.Config.Refinement

/-!
# Last writer wins

Writes to equal or incomparable paths commute up to the key ids they create.
In every order each of them succeeds, and every path ends with the value of
greatest timestamp.
-/

namespace GreengrassLite.Config

open GreengrassLite.Library List Ggconfigd

/-- One write of a family. -/
abbrev ConfigWrite := PrefixMap.Entry Buffer Buffer Int

/-- The call that performs a write. -/
def ConfigWrite.call (write : ConfigWrite) : Call :=
  .write write.path write.value write.time

namespace Database

/-- No stored path is a proper prefix or a proper extension of the path. -/
def Compatible (database : Database) (keyPath : List Buffer) : Prop :=
  ∀ path value timeStamp, database.Stored path value timeStamp →
    path <+: keyPath ∨ keyPath <+: path → path = keyPath

/-- Among what the path stores and the writes to it, this entry has the
greatest timestamp.  A write wins against a stored value of the same age. -/
def Greatest (database : Database) (writes : List ConfigWrite) (path : List Buffer)
    (value : Buffer) (timeStamp : Int) : Prop :=
  (⟨path, value, timeStamp⟩ ∈ writes ∧
      (∀ write ∈ writes, write.path = path → write.time ≤ timeStamp) ∧
      ∀ storedValue storedTime, database.Stored path storedValue storedTime →
        storedTime ≤ timeStamp) ∨
    (database.Stored path value timeStamp ∧
      ∀ write ∈ writes, write.path = path → write.time < timeStamp)

open scoped Classical in
/-- The abstract configuration that well-formed tables represent. -/
noncomputable def contents (database : Database) (wf : database.Wf) : ConfigMap where
  lookup path :=
    if stored : ∃ entry : Buffer × Int, database.Stored path entry.1 entry.2 then
      some stored.choose
    else
      none
  prefixFree := by
    intro first second firstStored secondStored isPrefix
    by_cases firstExists : ∃ entry : Buffer × Int, database.Stored first entry.1 entry.2
    · by_cases secondExists : ∃ entry : Buffer × Int, database.Stored second entry.1 entry.2
      · exact firstExists.choose_spec.eq_of_isPrefix wf secondExists.choose_spec isPrefix
      · exact absurd (dif_neg secondExists) secondStored
    · exact absurd (dif_neg firstExists) firstStored

theorem contents_lookup_iff {database : Database} (wf : database.Wf) {path : List Buffer}
    {value : Buffer} {timeStamp : Int} :
    (database.contents wf).lookup path = some (value, timeStamp) ↔
      database.Stored path value timeStamp := by
  by_cases stored : ∃ entry : Buffer × Int, database.Stored path entry.1 entry.2
  · have found : (database.contents wf).lookup path = some stored.choose := dif_pos stored
    rw [found, Option.some.injEq]
    constructor
    · intro equal
      have here := stored.choose_spec
      rwa [equal] at here
    · intro here
      obtain ⟨sameValue, sameTime⟩ := stored.choose_spec.unique wf here
      exact Prod.ext sameValue sameTime
  · have found : (database.contents wf).lookup path = none := dif_neg stored
    rw [found]
    simp only [reduceCtorEq, false_iff]
    intro here
    exact stored ⟨(value, timeStamp), here⟩

end Database

/-- Every daemon with well-formed tables represents its contents. -/
theorem Ggconfigd.represents_contents {daemon : Ggconfigd} (wf : daemon.configDatabase.Wf) :
    daemon.Represents (daemon.configDatabase.contents wf) :=
  fun _ _ _ => Database.contents_lookup_iff wf

variable {daemon : Ggconfigd} {map : ConfigMap} {writes : List ConfigWrite}

/-- A family of writes runs as the family of abstract writes. -/
theorem serveAll_writes (represents : daemon.Represents map) (inv : daemon.Inv)
    (valid : ∀ write ∈ writes, (ConfigWrite.call write).Valid) :
    (serveAll daemon (writes.map ConfigWrite.call)).1 =
        (map.writeAll writes).1.map (fun accepted =>
          .done (if accepted then .ok () else .error .failure)) ∧
      (serveAll daemon (writes.map ConfigWrite.call)).2.Represents (map.writeAll writes).2 ∧
      (serveAll daemon (writes.map ConfigWrite.call)).2.Inv := by
  induction writes generalizing daemon map with
  | nil => exact ⟨rfl, represents, inv⟩
  | cons write writes ih =>
    have writeValid := valid write mem_cons_self
    obtain ⟨nonempty, short⟩ := writeValid
    have written : Written daemon write.path write.value write.time
        (ggconfigWriteValueAtKey noFault daemon write.path write.value write.time) :=
      ggconfigWriteValueAtKey_written inv.isOpen inv.tables.toWf nonempty short
    obtain ⟨answered, writtenRepresents⟩ := written.refines represents inv.tables nonempty
    obtain ⟨replies, restRepresents, restInv⟩ :=
      ih writtenRepresents (written.daemon_inv inv nonempty)
        fun other member => valid other (mem_cons_of_mem write member)
    refine ⟨?_, restRepresents, restInv⟩
    simp only [map_cons, serveAll, ConfigWrite.call, serve, PrefixMap.writeAll, answered]
    exact congrArg _ replies

/-- Compatible writes of distinct ages to one path are mergeable. -/
theorem mergeable_contents (wf : daemon.configDatabase.Wf)
    (incomparable : ∀ first ∈ writes, ∀ second ∈ writes,
      first.path <+: second.path → first.path = second.path)
    (distinct : writes.Pairwise fun first second =>
      first.path = second.path → first.time ≠ second.time)
    (compatible : ∀ write ∈ writes, daemon.configDatabase.Compatible write.path) :
    (daemon.configDatabase.contents wf).Mergeable writes where
  incomparable := incomparable
  compatible write member := by
    rintro ⟨path, stored, comparable, different⟩
    obtain ⟨value, timestamp, here⟩ :=
      (represents_contents wf).exists_stored stored
    exact different (compatible write member path value timestamp here comparable)
  distinct := distinct

/-- Every order of the writes succeeds and ends in the same readable contents,
which have at each path the entry of greatest timestamp. -/
def Converges (daemon : Ggconfigd) (writes : List ConfigWrite) : Prop :=
  ∃ final : ConfigMap,
    (∀ path value timestamp, final.lookup path = some (value, timestamp) ↔
      daemon.configDatabase.Greatest writes path value timestamp) ∧
    ∀ order : List ConfigWrite, order.Perm writes →
      ∃ run, serveAllLogged daemon (order.map ConfigWrite.call) = some run ∧
        (∀ reply ∈ run.1, reply = .done (.ok ())) ∧
        run.2.Represents final ∧
        ∀ keyPath memory, keyPath ≠ [] → keyPath.length ≤ maxObjectDepth → Printable keyPath →
          ∃ answer, run.2.logged keyPath
              (ggconfigGetValueFromKey noFault run.2 memory keyPath) = some answer ∧
            ReadAgrees memory answer (final.read keyPath)

/-- From any reachable store, writes to equal or incomparable paths that are
compatible with the store and of distinct ages on each path converge exactly if
their paths can be printed. -/
theorem writes_converge (calls : List Call) (valid : ∀ call ∈ calls, call.Valid)
    (writes : List ConfigWrite) (writesValid : ∀ write ∈ writes, (ConfigWrite.call write).Valid)
    (incomparable : ∀ first ∈ writes, ∀ second ∈ writes,
      first.path <+: second.path → first.path = second.path)
    (distinct : writes.Pairwise fun first second =>
      first.path = second.path → first.time ≠ second.time)
    (compatible : ∀ write ∈ writes,
      (serveAll opened calls).2.configDatabase.Compatible write.path) :
    Converges (serveAll opened calls).2 writes ↔ ∀ write ∈ writes, Printable write.path := by
  have inv := serveAll_inv inv_opened valid
  generalize (serveAll opened calls).2 = daemon at inv compatible ⊢
  have served : ∀ order : List ConfigWrite, order.Perm writes →
      serveAllLogged daemon (order.map ConfigWrite.call) =
        if ∀ write ∈ writes, Printable write.path then
          some (serveAll daemon (order.map ConfigWrite.call))
        else none := by
    intro order perm
    rw [serveAllLogged_accesses inv (forall_mem_map.mpr fun write member =>
      writesValid write (perm.mem_iff.mp member)) (forall_mem_map.mpr fun _ _ => rfl)]
    simp only [forall_mem_map, perm.mem_iff, ConfigWrite.call, Call.keyPath]
  refine ⟨?_, fun printable => ?_⟩
  · rintro ⟨final, -, runs⟩
    by_contra unprintable
    obtain ⟨run, ended, -⟩ := runs writes (Perm.refl writes)
    rw [served writes (Perm.refl writes), if_neg unprintable] at ended
    cases ended
  have wf := inv.tables.toWf
  have mergeable := mergeable_contents wf incomparable distinct compatible
  have finalLatest := (PrefixMap.writeAll_latest mergeable).2
  refine ⟨((daemon.configDatabase.contents wf).writeAll writes).2, ?_, ?_⟩
  · intro path value timestamp
    simp only [finalLatest, PrefixMap.Latest, Database.Greatest, Database.contents_lookup_iff wf]
  · intro order perm
    obtain ⟨accepted, latest⟩ := PrefixMap.writeAll_latest (mergeable.perm perm.symm)
    obtain ⟨replies, represents, runInv⟩ :=
      serveAll_writes (represents_contents wf) inv
        fun write member => writesValid write (perm.mem_iff.mp member)
    have finalRepresents : (serveAll daemon (order.map ConfigWrite.call)).2.Represents
        ((daemon.configDatabase.contents wf).writeAll writes).2 := by
      intro path value timestamp
      rw [finalLatest, ← PrefixMap.latest_perm perm, ← latest, represents]
    refine ⟨_, (served order perm).trans (if_pos printable), ?_, finalRepresents,
      fun keyPath memory nonempty short loggable =>
        ⟨_, if_neg fun ends => ends.2 loggable,
          finalRepresents.read_agrees runInv nonempty short memory⟩⟩
    intro reply member
    rw [replies] at member
    obtain ⟨flag, flagMember, rfl⟩ := mem_map.mp member
    rw [accepted flag flagMember]
    rfl

/-- A write to a path that cannot be printed has no final contents. -/
theorem long_path_not_converges :
    ¬Converges opened [⟨longPath, gglStr "1", 5⟩] := by
  rintro ⟨final, -, runs⟩
  obtain ⟨run, served, -⟩ := runs _ (Perm.refl _)
  cases served.symm.trans (serveAllLogged_longPath _ _)

/-- Two writes of different ages to a stored key and one to a new key. -/
theorem writes_converge_stored :
    Converges (serveAll opened [.write [gglStr "a"] (gglStr "1") 5]).2
      [⟨[gglStr "a"], gglStr "2", 7⟩, ⟨[gglStr "a"], gglStr "3", 6⟩,
        ⟨[gglStr "b"], gglStr "4", 1⟩] := by
  refine (writes_converge _ (by decide) _ (by decide) (by decide) (by decide) ?_).mpr (by decide)
  have tables : (serveAll opened
      [.write [gglStr "a"] (gglStr "1") 5]).2.configDatabase =
        ⟨[⟨1, gglStr "a"⟩], [], [⟨1, gglStr "1", 5⟩], [], 1⟩ := by
    decide
  have inv := (@serveAll_inv _ inv_opened
    [.write [gglStr "a"] (gglStr "1") 5] (by decide)).tables
  rintro write member path value timeStamp ⟨keyid, reached, stored⟩ comparable
  obtain ⟨rfl, _⟩ := ValueRow.mk.inj (mem_singleton.mp stored)
  have here : Database.forest
      ⟨[⟨1, gglStr "a"⟩], [], [⟨1, gglStr "1", 5⟩], [], 1⟩ |>.Path none [gglStr "a"] (some 1) :=
    Forest.path_singleton_iff.mpr
      ⟨1, ⟨mem_cons_self, fun _ edge => not_mem_nil edge⟩, rfl⟩
  obtain rfl := reached.labels_unique inv.forest here
  have apart : ¬([gglStr "a"] <+: [gglStr "b"] ∨ [gglStr "b"] <+: [gglStr "a"]) := by decide
  simp only [mem_cons, not_mem_nil, or_false] at member
  rcases member with rfl | rfl | rfl
  · rfl
  · rfl
  · exact absurd comparable apart

end GreengrassLite.Config

import GreengrassLite.Deployment.Semver

/-!
# What a version requirement means

A requirement such as `>=1.0.0 <2.0.0` stands for its constraints, the texts
between its spaces, and is met where each of them is.  `is_in_range` finds the
constraints with one index: at a space it checks what it has copied, steps over
the space and copies the next byte without looking at it.  So a space at the
beginning or behind another space counts as a constraint of its own, which
nothing meets, and for a space at the end the byte behind the requirement is
copied.

The comparison is a parameter here.
-/

namespace GreengrassLite.Deployment

open List

variable (compare : Buffer → Buffer → Int)
  {requirements : Buffer}

/-! ## The meaning -/

/-- The constraints of a requirement: the texts between its spaces. -/
def constraints (requirements : Buffer) : List Buffer :=
  (requirements.splitOn space).filter fun constraint => constraint ≠ []

/-- A version meets a constraint: an operator and a version, or a version alone. -/
inductive Meets (version : Buffer) : Buffer → Prop
  | above {bound : Buffer} : bound.head? ≠ some 61 → 0 < compare version bound →
      Meets version (gglStr ">" ++ bound)
  | atLeast {bound} : 0 ≤ compare version bound → Meets version (gglStr ">=" ++ bound)
  | below {bound : Buffer} : bound.head? ≠ some 61 → compare version bound < 0 →
      Meets version (gglStr "<" ++ bound)
  | atMost {bound} : compare version bound ≤ 0 → Meets version (gglStr "<=" ++ bound)
  | equal {bound} : compare version bound = 0 → Meets version (gglStr "=" ++ bound)
  | bare {first rest} : isDigit first → compare version (first :: rest) = 0 →
      Meets version (first :: rest)

/-- Every constraint fits the buffer, with the zero byte that ends it. -/
def Fits (requirements : Buffer) : Prop :=
  ∀ constraint ∈ constraints requirements, constraint.length < nameMax

/-- The answer is that every constraint is met, and comes from the requirement alone. -/
structure Decides (behind : UInt8) (version requirements : Buffer) : Prop where
  exact : (isInRangeBy compare behind version requirements).inRange = true ↔
    ∀ constraint ∈ constraints requirements, Meets compare version constraint
  inside : (isInRangeBy compare behind version requirements).readBehind = false

/-- No space begins or ends the requirement or follows another space. -/
def WellSpaced (requirements : Buffer) : Prop :=
  requirements = [] ∨ [] ∉ requirements.splitOn space

/-- Where the answer is right: for a version that fits its buffer and a requirement with single
spaces between constraints, or where some constraint is not met anyway. -/
def Answerable (version requirements : Buffer) : Prop :=
  version.length < nameMax ∧ WellSpaced requirements ∨
    ∃ constraint ∈ constraints requirements, ¬Meets compare version constraint

/-- What a scan answers, given the texts between the spaces: it refuses when one of them is not
met, and grants, without the byte behind, only if none is empty. -/
structure Scanned (version : Buffer) (pieces : List Buffer) (check : RangeCheck) : Prop where
  refuses : (∃ piece ∈ pieces, piece ≠ [] ∧ ¬Meets compare version piece) → check = .refused
  grants : (∀ piece ∈ pieces, piece ≠ [] → Meets compare version piece) →
    (check = .granted ↔ [] ∉ pieces)

section Process

variable {compare} {version : Buffer}

@[simp]
theorem processVersionBy_iff (constraint : Buffer) :
    processVersionBy compare constraint version = true ↔ Meets compare version constraint := by
  constructor
  · fun_cases processVersionBy compare constraint version <;> intro processed
    case case1 => cases processed
    case case2 rest orEqual =>
      obtain ⟨bound, rfl⟩ : ∃ bound, rest = 61 :: bound := head?_eq_some_iff.mp orEqual
      exact .atLeast (of_decide_eq_true processed)
    case case3 rest strict => exact .above strict (of_decide_eq_true processed)
    case case4 rest orEqual _ =>
      obtain ⟨bound, rfl⟩ : ∃ bound, rest = 61 :: bound := head?_eq_some_iff.mp orEqual
      exact .atMost (of_decide_eq_true processed)
    case case5 rest strict _ => exact .below strict (of_decide_eq_true processed)
    case case6 first rest _ _ =>
      simp only [Bool.or_eq_true, Bool.and_eq_true, decide_eq_true_eq] at processed
      rcases processed with ⟨rfl, equal⟩ | ⟨digit, equal⟩
      · exact .equal equal
      · exact .bare digit equal
  · intro meets
    cases meets with
    | above strict above => simp [gglStr, processVersionBy, strict, above]
    | atLeast atLeast => simp [gglStr, processVersionBy, atLeast]
    | below strict below => simp [gglStr, processVersionBy, strict, below]
    | atMost atMost => simp [gglStr, processVersionBy, atMost]
    | equal equal => simp [gglStr, processVersionBy, equal]
    | bare digit equal =>
      rename_i first rest
      have notGreater : first ≠ 62 := by rintro rfl; cases digit
      have notLess : first ≠ 60 := by rintro rfl; cases digit
      simp [processVersionBy, notGreater, notLess, digit, equal]

theorem append_byte_of_lt {work : Vec UInt8 nameMax} (byte : UInt8)
    (room : work.items.length < nameMax) :
    ∃ longer, gglByteVecAppend work [byte] = .ok longer ∧ longer.items = work.items ++ [byte] := by
  have bounded : (work.items ++ [byte]).length ≤ nameMax := by
    rw [length_append]
    exact room
  exact ⟨⟨_, bounded⟩, (Vec.append_eq_ok_iff work _ [byte]).mpr rfl, rfl⟩

variable {work : Vec UInt8 nameMax}

/-- A constraint in the buffer is met, or the check fails. -/
@[simp]
theorem checkConstraintBy_iff (room : work.items.length < nameMax) :
    checkConstraintBy compare version work = true ↔ Meets compare version work.items := by
  rcases append_byte_of_lt 0 room with ⟨longer, appended, -⟩
  rw [checkConstraintBy, appended]
  exact processVersionBy_iff work.items

/-- A constraint that begins with a space is never met. -/
@[simp]
theorem checkConstraintBy_space {more : Buffer} (begins : work.items = space :: more) :
    checkConstraintBy compare version work = false := by
  rw [checkConstraintBy]
  split
  · rfl
  · rw [begins]
    rfl

end Process

section Scan

variable {compare} {version : Buffer} {behind : UInt8}

@[simp]
theorem scanRequirementsBy_of_space (rest : Buffer) {work : Vec UInt8 nameMax} {more : Buffer}
    (begins : work.items = space :: more) :
    scanRequirementsBy compare behind version rest work = .refused := by
  induction rest generalizing work more with
  | nil => simp [scanRequirementsBy, begins, RangeCheck.refused]
  | cons byte rest ih =>
    rw [scanRequirementsBy.eq_def]
    simp only [checkConstraintBy_space begins, Bool.false_eq_true, if_false]
    split
    · rfl
    · split
      · rfl
      next longer appended =>
        have begun : longer.items = space :: (more ++ [byte]) := by
          rw [(Vec.append_eq_ok_iff work longer [byte]).mp appended, begins, cons_append]
        exact ih begun

theorem Scanned.nil : Scanned compare version [] .granted where
  refuses := fun ⟨_, member, _⟩ => absurd member not_mem_nil
  grants _ := ⟨fun _ => not_mem_nil, fun _ => rfl⟩

variable {piece : Buffer} {pieces : List Buffer} {check : RangeCheck}

theorem Scanned.cons_of_meets (meets : Meets compare version piece) (nonempty : piece ≠ [])
    (scanned : Scanned compare version pieces check) :
    Scanned compare version (piece :: pieces) check where
  refuses := by
    rintro ⟨other, member, otherNonempty, unmet⟩
    rcases mem_cons.mp member with rfl | later
    · exact absurd meets unmet
    · exact scanned.refuses ⟨other, later, otherNonempty, unmet⟩
  grants := by
    intro met
    rw [scanned.grants fun other member => met other (mem_cons_of_mem _ member),
      mem_cons, not_or]
    exact ⟨fun rest => ⟨Ne.symm nonempty, rest⟩, And.right⟩

theorem Scanned.cons_of_not_meets (pieces : List Buffer) (unmet : ¬Meets compare version piece)
    (nonempty : piece ≠ []) :
    Scanned compare version (piece :: pieces) .refused where
  refuses _ := rfl
  grants met := absurd (met piece mem_cons_self nonempty) unmet

/-- A space with nothing before it, or the byte behind a requirement, is never granted. -/
theorem Scanned.cons_nil
    (refuses : (∃ piece ∈ pieces, piece ≠ [] ∧ ¬Meets compare version piece) → check = .refused)
    (notGranted : check ≠ .granted) : Scanned compare version ([] :: pieces) check where
  refuses := by
    rintro ⟨piece, member, nonempty, unmet⟩
    rcases mem_cons.mp member with rfl | later
    · exact absurd rfl nonempty
    · exact refuses ⟨piece, later, nonempty, unmet⟩
  grants _ := ⟨fun granted => absurd granted notGranted, fun full => absurd mem_cons_self full⟩

theorem splitOn_append_of_notMem {separator : UInt8} {front : Buffer} (free : separator ∉ front)
    (rest : Buffer) :
    (front ++ rest).splitOn separator = (rest.splitOn separator).modifyHead (front ++ ·) := by
  induction front with
  | nil =>
    rw [nil_append]
    cases rest.splitOn separator <;> rfl
  | cons byte front ih =>
    rw [mem_cons, not_or] at free
    have different : (byte == separator) = false := beq_false_of_ne (Ne.symm free.1)
    rw [cons_append, splitOn_cons_eq_if_modifyHead, different, ih free.2]
    cases rest.splitOn separator <;> rfl

/-- What the buffer holds is a beginning of the first text. -/
theorem length_lt_of_splitOn {front rest : Buffer} (free : space ∉ front)
    (fits : ∀ piece ∈ (front ++ rest).splitOn space, piece.length < nameMax) :
    front.length < nameMax := by
  cases split : rest.splitOn space with
  | nil => exact absurd split (splitOn_ne_nil _ _)
  | cons first others =>
    have member : front ++ first ∈ (front ++ rest).splitOn space := by
      rw [splitOn_append_of_notMem free, split]
      exact mem_cons_self
    have short := fits _ member
    rw [length_append] at short
    omega

/-- The loop with the beginning of a constraint in the buffer. -/
theorem scanRequirementsBy_scanned (rest : Buffer) (work : Vec UInt8 nameMax)
    (begun : work.items ≠ []) (free : space ∉ work.items)
    (fits : ∀ piece ∈ (work.items ++ rest).splitOn space, piece.length < nameMax) :
    Scanned compare version ((work.items ++ rest).splitOn space)
      (scanRequirementsBy compare behind version rest work) := by
  have check : checkConstraintBy compare version work = true ↔
      Meets compare version work.items :=
    checkConstraintBy_iff (length_lt_of_splitOn free fits)
  -- The cases are those of the loop: at a space the text in the buffer is checked, and
  -- otherwise a byte is added to it.
  fun_induction scanRequirementsBy compare behind version rest work with
  | case1 work =>
    rw [append_nil, splitOn_eq_singleton free, if_neg begun]
    cases met : checkConstraintBy compare version work with
    | true => exact .cons_of_meets (check.mp met) begun .nil
    | false =>
      have unmet : ¬Meets compare version work.items := by rw [← check, met]; nofun
      exact .cons_of_not_meets [] unmet begun
  | case2 work met =>
    rw [splitOn_append_cons_self_of_not_mem free]
    have behindRead : Scanned compare version [[]]
        ⟨checkConstraintBy compare version (startConstraint behind), true⟩ :=
      .cons_nil (fun ⟨_, member, _⟩ => absurd member not_mem_nil)
        fun granted => Bool.noConfusion (congrArg RangeCheck.readBehind granted)
    exact .cons_of_meets (check.mp met) begun behindRead
  | case3 work met following rest ih =>
    rw [splitOn_append_cons_self_of_not_mem free] at fits ⊢
    apply Scanned.cons_of_meets (check.mp met) begun
    by_cases doubled : following = space
    · subst doubled
      rw [scanRequirementsBy_of_space rest rfl, splitOn_cons_eq_if_modifyHead,
        if_pos (beq_self_eq_true space)]
      exact .cons_nil (fun _ => rfl) (by decide)
    · have alone : space ∉ (startConstraint following).items :=
        fun member => doubled (mem_singleton.mp member).symm
      have fitsRest := fun piece member => fits piece (mem_cons_of_mem _ member)
      exact ih (cons_ne_nil _ _) alone fitsRest
        (checkConstraintBy_iff (length_lt_of_splitOn alone fitsRest))
  | case4 rest work unmet =>
    rw [splitOn_append_cons_self_of_not_mem free]
    exact .cons_of_not_meets _ (fun meets => unmet (check.mpr meets)) begun
  | case5 byte rest work notSpace error full =>
    rcases append_byte_of_lt byte (length_lt_of_splitOn free fits) with ⟨longer, appended, -⟩
    rw [full] at appended
    cases appended
  | case6 byte rest work notSpace longer appended ih =>
    have items : longer.items = work.items ++ [byte] :=
      (Vec.append_eq_ok_iff work longer [byte]).mp appended
    have text : work.items ++ byte :: rest = longer.items ++ rest := by
      rw [items, append_assoc, singleton_append]
    have longerFree : space ∉ longer.items := by
      rw [items, mem_append, mem_singleton, not_or]
      exact ⟨free, Ne.symm notSpace⟩
    have longerBegun : longer.items ≠ [] := by
      rw [items]
      exact append_ne_nil_of_right_ne_nil _ (cons_ne_nil _ _)
    rw [text] at fits ⊢
    exact ih longerBegun longerFree fits
      (checkConstraintBy_iff (length_lt_of_splitOn longerFree fits))

/-- The whole loop, of a requirement that is not empty. -/
theorem scanRequirementsBy_empty (nonempty : requirements ≠ []) (fits : Fits requirements) :
    Scanned compare version (requirements.splitOn space)
      (scanRequirementsBy compare behind version requirements (Vec.empty UInt8 nameMax)) := by
  have fitsPieces : ∀ piece ∈ requirements.splitOn space, piece.length < nameMax := by
    intro piece member
    by_cases empty : piece = []
    · rw [empty]
      exact Nat.le_of_ble_eq_true rfl
    · exact fits piece (mem_filter.mpr ⟨member, decide_eq_true empty⟩)
  cases requirements with
  | nil => exact absurd rfl nonempty
  | cons byte rest =>
    by_cases leading : byte = space
    · subst leading
      have refused : scanRequirementsBy compare behind version (space :: rest)
          (Vec.empty UInt8 nameMax) = .refused := by
        rw [scanRequirementsBy.eq_def]
        rfl
      rw [refused]
      exact .cons_nil (fun _ => rfl) (by decide)
    · have alone : space ∉ (startConstraint byte).items :=
        fun member => leading (mem_singleton.mp member).symm
      have started : scanRequirementsBy compare behind version (byte :: rest)
          (Vec.empty UInt8 nameMax) =
            scanRequirementsBy compare behind version rest (startConstraint byte) := by
        rw [scanRequirementsBy.eq_def]
        exact if_neg leading
      rw [started]
      exact scanRequirementsBy_scanned rest (startConstraint byte) (cons_ne_nil _ _) alone
        fitsPieces

end Scan

section Ranges

variable {compare} {version : Buffer} {behind : UInt8}
  {constraint : Buffer}

theorem mem_constraints :
    constraint ∈ constraints requirements ↔
      constraint ∈ requirements.splitOn space ∧ constraint ≠ [] := by
  rw [constraints, mem_filter, decide_eq_true_eq]

@[simp]
theorem isInRangeBy_of_length_lt (short : version.length < nameMax) (requirements : Buffer) :
    isInRangeBy compare behind version requirements =
      scanRequirementsBy compare behind version requirements (Vec.empty UInt8 nameMax) := by
  have copied : gglByteVecAppend (Vec.empty UInt8 nameMax) version =
      .ok ⟨version, Nat.le_of_lt short⟩ :=
    (Vec.append_eq_ok_iff _ ⟨version, Nat.le_of_lt short⟩ version).mpr rfl
  rcases @append_byte_of_lt ⟨version, Nat.le_of_lt short⟩ 0 short with ⟨terminated, appended, -⟩
  rw [isInRangeBy, copied]
  dsimp only [bind, Except.bind]
  rw [appended]

@[simp]
theorem isInRangeBy_of_length_ge (long : nameMax ≤ version.length) (requirements : Buffer) :
    isInRangeBy compare behind version requirements = .refused := by
  rw [isInRangeBy]
  split
  · rfl
  next terminated copied =>
    rcases except_bind_eq_ok_iff.mp copied with ⟨name, appended, ended⟩
    have bounded := terminated.bounded
    rw [(Vec.append_eq_ok_iff name terminated [0]).mp ended,
      (Vec.append_eq_ok_iff _ name version).mp appended, Vec.empty_items, nil_append,
      length_append, length_singleton] at bounded
    omega

/-- With every constraint met, the right answer is yes. -/
theorem decides_iff_granted
    (met : ∀ constraint ∈ constraints requirements, Meets compare version constraint) :
    Decides compare behind version requirements ↔
      isInRangeBy compare behind version requirements = .granted := by
  constructor
  · rintro ⟨exact, inside⟩
    rw [RangeCheck.granted, ← exact.mpr met, ← inside]
  · intro granted
    rw [RangeCheck.granted] at granted
    constructor
    · rw [granted]
      exact ⟨fun _ => met, fun _ => rfl⟩
    · rw [granted]

/-- An unmet constraint is noticed whatever the spaces are. -/
theorem isInRangeBy_of_not_meets (fits : Fits requirements)
    (member : constraint ∈ constraints requirements) (unmet : ¬Meets compare version constraint) :
    isInRangeBy compare behind version requirements = .refused := by
  by_cases short : version.length < nameMax
  · rw [isInRangeBy_of_length_lt short]
    rw [mem_constraints] at member
    have nonempty : requirements ≠ [] := by
      rintro rfl
      exact member.2 (mem_singleton.mp member.1)
    exact (scanRequirementsBy_empty nonempty fits).refuses ⟨constraint, member.1, member.2, unmet⟩
  · exact isInRangeBy_of_length_ge (Nat.le_of_not_lt short) requirements

theorem decides_iff (fits : Fits requirements) :
    Decides compare behind version requirements ↔ Answerable compare version requirements := by
  by_cases unmet : ∃ constraint ∈ constraints requirements, ¬Meets compare version constraint
  · refine iff_of_true ?_ (.inr unmet)
    rcases unmet with ⟨constraint, member, unmet⟩
    have refused : isInRangeBy compare behind version requirements = .refused :=
      isInRangeBy_of_not_meets fits member unmet
    constructor
    · rw [refused]
      exact iff_of_false Bool.false_ne_true fun met => unmet (met constraint member)
    · rw [refused, RangeCheck.refused]
  · have met : ∀ constraint ∈ constraints requirements, Meets compare version constraint :=
      fun constraint member => by_contra fun not => unmet ⟨constraint, member, not⟩
    rw [decides_iff_granted met, Answerable, or_iff_left unmet]
    by_cases short : version.length < nameMax
    · rw [isInRangeBy_of_length_lt short, WellSpaced, and_iff_right short]
      by_cases empty : requirements = []
      · subst empty
        simp [scanRequirementsBy, RangeCheck.granted]
      · rw [or_iff_right empty]
        apply (scanRequirementsBy_empty empty fits).grants
        intro piece member nonempty
        exact met piece (mem_constraints.mpr ⟨member, nonempty⟩)
    · rw [isInRangeBy_of_length_ge (Nat.le_of_not_lt short)]
      exact iff_of_false (by decide) fun spaced => short spaced.1

@[simp]
theorem mem_constraints_join {first second : Buffer} :
    constraint ∈ constraints (joinRequirements first second) ↔
      constraint ∈ constraints first ∨ constraint ∈ constraints second := by
  rw [mem_constraints, mem_constraints, mem_constraints, joinRequirements,
    splitOn_append_cons_self, mem_append, or_and_right]

theorem fits_join {first second : Buffer} (fitsFirst : Fits first) (fitsSecond : Fits second) :
    Fits (joinRequirements first second) := by
  intro constraint member
  rcases mem_constraints_join.mp member with inFirst | inSecond
  · exact fitsFirst constraint inFirst
  · exact fitsSecond constraint inSecond

end Ranges

/-- For requirements whose constraints fit the buffer, `is_in_range` answers that every
constraint is met, without reading behind the requirement, exactly where the version fits too
and single spaces stand between the constraints, or some constraint is unmet anyway.  Joined
requirements, if all three are of that kind, stand for both. -/
theorem isInRangeBy_decides_iff (version : Buffer) :
    (∀ behind requirements, Fits requirements →
      (Decides compare behind version requirements ↔ Answerable compare version requirements)) ∧
    ∀ first second behind behindFirst behindSecond, Fits first → Fits second →
      Answerable compare version first → Answerable compare version second →
      Answerable compare version (joinRequirements first second) →
        (isInRangeBy compare behind version (joinRequirements first second)).inRange =
          ((isInRangeBy compare behindFirst version first).inRange &&
            (isInRangeBy compare behindSecond version second).inRange) := by
  constructor
  · exact fun behind requirements fits => decides_iff fits
  · intro first second behind behindFirst behindSecond fitsFirst fitsSecond answerableFirst
      answerableSecond answerable
    have decidesJoined : Decides compare behind version (joinRequirements first second) :=
      (decides_iff (fits_join fitsFirst fitsSecond)).mpr answerable
    have decidesFirst : Decides compare behindFirst version first :=
      (decides_iff fitsFirst).mpr answerableFirst
    have decidesSecond : Decides compare behindSecond version second :=
      (decides_iff fitsSecond).mpr answerableSecond
    rw [Bool.eq_iff_iff, Bool.and_eq_true, decidesJoined.exact, decidesFirst.exact,
      decidesSecond.exact]
    simp only [mem_constraints_join, or_imp, forall_and]

/-- The empty requirement joined with another one begins with a space, which no version meets;
with the requirements the other way round the byte behind is read. -/
theorem empty_requirement_not_neutral :
    isInRangeBy strverscmp 0 (gglStr "1.0.0") (joinRequirements [] (gglStr "1.0.0")) =
        .refused ∧
      isInRangeBy strverscmp 0 (gglStr "1.0.0") [] = .granted ∧
      isInRangeBy strverscmp 0 (gglStr "1.0.0") (gglStr "1.0.0") = .granted ∧
      isInRangeBy strverscmp 0 (gglStr "1.0.0") (joinRequirements (gglStr "1.0.0") []) =
        ⟨false, true⟩ := by
  decide +kernel

/-- Two requirements of one constraint each. -/
theorem isInRangeBy_decides_of_two_bounds :
    (isInRangeBy strverscmp 0 (gglStr "1.4.0") (gglStr ">=1.0.0 <2.0.0")).inRange =
      ((isInRangeBy strverscmp 32 (gglStr "1.4.0") (gglStr ">=1.0.0")).inRange &&
        (isInRangeBy strverscmp 60 (gglStr "1.4.0") (gglStr "<2.0.0")).inRange) := by
  have fits : ∀ requirements ∈ [gglStr ">=1.0.0", gglStr "<2.0.0"], Fits requirements := by
    unfold Fits
    decide +kernel
  have spaced : ∀ requirements ∈ [gglStr ">=1.0.0", gglStr "<2.0.0",
      joinRequirements (gglStr ">=1.0.0") (gglStr "<2.0.0")],
        (gglStr "1.4.0").length < nameMax ∧ WellSpaced requirements := by
    unfold WellSpaced
    decide +kernel
  exact (isInRangeBy_decides_iff strverscmp (gglStr "1.4.0")).2 (gglStr ">=1.0.0")
    (gglStr "<2.0.0") 0 32 60 (fits _ (by simp)) (fits _ (by simp)) (.inl (spaced _ (by simp)))
    (.inl (spaced _ (by simp))) (.inl (spaced _ (by simp)))

end GreengrassLite.Deployment

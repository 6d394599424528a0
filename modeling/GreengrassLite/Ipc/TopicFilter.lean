import GreengrassLite.Core.Object

/-!
# Topic filters in policies

`match_topic_filter` of `ggipcd/src/services/mqttproxy/mqttproxy.c` compares the
topic or topic filter a component asks for with a filter of its policy.  It reads
the request as a plain topic, one byte after the other.

What a filter means is taken from MQTT 3.1.1, section 4.7: a filter is a sequence
of levels separated by `/`, the level `+` stands for any one level, a last level
`#` stands for the parent and everything below it, and a filter that starts with
a wildcard matches no topic that starts with `$`.  Texts are byte strings without
a zero byte; that they are UTF-8 is not used.
-/

namespace GreengrassLite

open List

def slash : UInt8 :=
  47

def singleLevel : UInt8 :=
  43

def multiLevel : UInt8 :=
  35

def dollar : UInt8 :=
  36

/-- `match_topic_filter`. -/
def matchTopicFilter (resource : Buffer) : Buffer → Bool
  | [] => resource = []
  | byte :: filter =>
    if byte = singleLevel then
      matchTopicFilter (resource.dropWhile fun skipped => skipped ≠ slash) filter
    else if byte = multiLevel then
      true
    else
      match resource with
      | [] => false
      | first :: resource => if byte ≠ first then false else matchTopicFilter resource filter

/-! ## Filters and topics of MQTT -/

/-- The levels of a topic or filter. -/
def topicLevels (text : Buffer) : List Buffer :=
  text.splitOn slash

/-- A text the protocol can carry. -/
structure TopicText (text : Buffer) : Prop where
  nonempty : text ≠ []
  short : text.length ≤ 65535
  noZero : 0 ∉ text

/-- A topic name. -/
structure TopicName (topic : Buffer) : Prop extends TopicText topic where
  noSingleLevel : singleLevel ∉ topic
  noMultiLevel : multiLevel ∉ topic

/-- Wildcards take whole levels, and `#` only the last. -/
def WildcardsWhole : List Buffer → Prop
  | [] => True
  | level :: rest =>
    (singleLevel ∈ level → level = [singleLevel]) ∧
      (multiLevel ∈ level → level = [multiLevel] ∧ rest = []) ∧ WildcardsWhole rest

instance decidableWildcardsWhole : DecidablePred WildcardsWhole
  | [] => .isTrue trivial
  | _ :: rest => @instDecidableAnd _ _ _ (@instDecidableAnd _ _ _ (decidableWildcardsWhole rest))

/-- A topic filter. -/
structure TopicFilter (filter : Buffer) : Prop extends TopicText filter where
  wildcards : WildcardsWhole (topicLevels filter)

/-- Whether the levels of a filter match those of a topic. -/
def levelsMatch : List Buffer → List Buffer → Bool
  | [], [] => true
  | [], _ :: _ => false
  | level :: _, [] => level = [multiLevel]
  | level :: levels, part :: topic =>
    if level = [multiLevel] then
      true
    else if level = [singleLevel] then
      levelsMatch levels topic
    else
      level = part && levelsMatch levels topic

/-- The filter starts with a wildcard. -/
def startsWild (filter : Buffer) : Bool :=
  filter.head? = some singleLevel || filter.head? = some multiLevel

/-- Whether a filter matches a topic. -/
def topicMatches (filter topic : Buffer) : Bool :=
  levelsMatch (topicLevels filter) (topicLevels topic) &&
    !(startsWild filter && topic.head? = some dollar)

/-! ## Levels of a text -/

section Levels

variable {text : Buffer} {level : Buffer} {levels : List Buffer}

/-- The text of a list of levels. -/
def joinLevels (levels : List Buffer) : Buffer :=
  [slash].intercalate levels

/-- What follows a level in a text. -/
def joinRest (levels : List Buffer) : Buffer :=
  if levels = [] then [] else slash :: joinLevels levels

@[simp]
theorem joinLevels_cons : joinLevels (level :: levels) = level ++ joinRest levels := by
  cases levels with
  | nil => simp [joinLevels, joinRest]
  | cons next rest => simp [joinLevels, joinRest, intercalate_cons_cons]

@[simp]
theorem joinLevels_topicLevels (text : Buffer) : joinLevels (topicLevels text) = text :=
  intercalate_splitOn slash

theorem topicLevels_ne_nil (text : Buffer) : topicLevels text ≠ [] :=
  splitOnP_ne_nil _ text

theorem slash_notMem_of_mem_topicLevels (member : level ∈ topicLevels text) : slash ∉ level := by
  rw [topicLevels] at member
  induction text generalizing level with
  | nil =>
    rw [splitOn_nil, mem_singleton] at member
    subst member
    exact not_mem_nil
  | cons byte text ih =>
    rw [splitOn_cons_eq_if_modifyHead] at member
    split at member
    · rcases mem_cons.mp member with rfl | later
      · exact not_mem_nil
      · exact ih later
    next different =>
      cases split : text.splitOn slash with
      | nil => exact absurd split (splitOn_ne_nil _ _)
      | cons first rest =>
        rw [split] at ih member
        rcases mem_cons.mp member with rfl | later
        · rw [mem_cons]
          rintro (same | inside)
          · exact different (beq_iff_eq.mpr same.symm)
          · exact ih mem_cons_self inside
        · exact ih (mem_cons_of_mem _ later)

end Levels

/-! ## The matcher on levels -/

/-- What `match_topic_filter` decides, level by level.  It differs from the
meaning of a filter in that `#` does not stand for its parent. -/
def coversLevels : List Buffer → List Buffer → Bool
  | [], [] => true
  | [], _ :: _ => false
  | _ :: _, [] => false
  | part :: resource, level :: filter =>
    if level = [multiLevel] then
      true
    else if level = [singleLevel] then
      coversLevels resource filter
    else
      level = part && coversLevels resource filter

section Matcher

variable {resource filter levels : List Buffer} {part level rest tail : Buffer}

theorem matchTopicFilter_byte {byte first : UInt8} {resource filter : Buffer}
    (notSingle : byte ≠ singleLevel) (notMulti : byte ≠ multiLevel) :
    matchTopicFilter (first :: resource) (byte :: filter)
      = (decide (byte = first) && matchTopicFilter resource filter) := by
  rw [matchTopicFilter, if_neg notSingle, if_neg notMulti]
  by_cases same : byte = first
  · simp [same]
  · simp [same]

theorem matchTopicFilter_byte_nil {byte : UInt8} {filter : Buffer}
    (notSingle : byte ≠ singleLevel) (notMulti : byte ≠ multiLevel) :
    matchTopicFilter [] (byte :: filter) = false := by
  rw [matchTopicFilter, if_neg notSingle, if_neg notMulti]

@[simp]
theorem matchTopicFilter_slash {first : UInt8} {resource filter : Buffer} :
    matchTopicFilter (first :: resource) (slash :: filter)
      = (decide (slash = first) && matchTopicFilter resource filter) :=
  matchTopicFilter_byte (by decide) (by decide)

/-- The text after a level: nothing, or a separator. -/
def StartsLevel (rest : Buffer) : Prop :=
  rest = [] ∨ ∃ more, rest = slash :: more

theorem startsLevel_joinRest : StartsLevel (joinRest levels) := by
  cases levels with
  | nil => exact .inl rfl
  | cons level rest => exact .inr ⟨_, rfl⟩

/-- A level without wildcards is compared byte by byte. -/
theorem matchTopicFilter_literal (noSingle : singleLevel ∉ level) (noMulti : multiLevel ∉ level)
    (filterLevel : slash ∉ level) (resourceLevel : slash ∉ part) (restStarts : StartsLevel rest)
    (tailStarts : StartsLevel tail) :
    matchTopicFilter (part ++ rest) (level ++ tail)
      = (decide (level = part) && matchTopicFilter rest tail) := by
  induction level generalizing part with
  | nil =>
    cases part with
    | nil => simp
    | cons byte part =>
      have different : slash ≠ byte := fun same => resourceLevel (same ▸ mem_cons_self)
      rcases tailStarts with rfl | ⟨more, rfl⟩
      · simp [matchTopicFilter]
      · simp [different]
  | cons byte level ih =>
    rw [mem_cons, not_or] at noSingle noMulti filterLevel
    have notSingle := Ne.symm noSingle.1
    have notMulti := Ne.symm noMulti.1
    cases part with
    | nil =>
      rcases restStarts with rfl | ⟨more, rfl⟩
      · simp [matchTopicFilter_byte_nil notSingle notMulti]
      · simp [matchTopicFilter_byte notSingle notMulti, Ne.symm filterLevel.1]
    | cons first part =>
      rw [mem_cons, not_or] at resourceLevel
      rw [cons_append, cons_append, matchTopicFilter_byte notSingle notMulti,
        ih noSingle.2 noMulti.2 filterLevel.2 resourceLevel.2]
      simp [Bool.and_assoc]

/-- The wildcard `+` skips a level. -/
theorem matchTopicFilter_skip (resourceLevel : slash ∉ part) (restStarts : StartsLevel rest) :
    matchTopicFilter (part ++ rest) (singleLevel :: tail) = matchTopicFilter rest tail := by
  have skipped : (part ++ rest).dropWhile (fun byte => decide (byte ≠ slash)) = rest := by
    rw [dropWhile_append_of_pos]
    · rcases restStarts with rfl | ⟨more, rfl⟩
      · rfl
      · exact dropWhile_cons_of_neg (by simp)
    · intro byte member
      exact decide_eq_true fun same => resourceLevel (same ▸ member)
  exact (if_pos rfl).trans (congrArg (matchTopicFilter · tail) skipped)

theorem matchTopicFilter_joinRest
    (next : resource ≠ [] → filter ≠ [] →
      matchTopicFilter (joinLevels resource) (joinLevels filter) = coversLevels resource filter) :
    matchTopicFilter (joinRest resource) (joinRest filter) = coversLevels resource filter := by
  cases resource with
  | nil =>
    cases filter with
    | nil => rfl
    | cons level filter => exact matchTopicFilter_byte_nil (by decide) (by decide)
  | cons part resource =>
    cases filter with
    | nil => rfl
    | cons level filter =>
      rw [joinRest, joinRest, if_neg (cons_ne_nil _ _), if_neg (cons_ne_nil _ _),
        matchTopicFilter_slash, next (cons_ne_nil _ _) (cons_ne_nil _ _)]
      simp

/-- The matcher decides level by level. -/
theorem matchTopicFilter_joinLevels (resourceLevels : ∀ part ∈ resource, slash ∉ part)
    (filterLevels : ∀ level ∈ filter, slash ∉ level) (wildcards : WildcardsWhole filter)
    (resourceNonempty : resource ≠ []) (filterNonempty : filter ≠ []) :
    matchTopicFilter (joinLevels resource) (joinLevels filter) = coversLevels resource filter := by
  induction filter generalizing resource with
  | nil => exact absurd rfl filterNonempty
  | cons level filter ih =>
    cases resource with
    | nil => exact absurd rfl resourceNonempty
    | cons part resource =>
      rw [forall_mem_cons] at resourceLevels filterLevels
      rcases wildcards with ⟨singleWhole, multiWhole, wildcards⟩
      have rest : matchTopicFilter (joinRest resource) (joinRest filter)
          = coversLevels resource filter :=
        matchTopicFilter_joinRest fun resourceRest filterRest =>
          ih resourceLevels.2 filterLevels.2 wildcards resourceRest filterRest
      rw [joinLevels_cons, joinLevels_cons, coversLevels]
      split
      next multi =>
        rw [multi]
        exact (if_neg (by decide)).trans (if_pos rfl)
      next notMulti =>
        split
        next single =>
          rw [single, singleton_append,
            matchTopicFilter_skip resourceLevels.1 startsLevel_joinRest, rest]
        next notSingle =>
          rw [matchTopicFilter_literal (fun member => notSingle (singleWhole member))
            (fun member => notMulti (multiWhole member).1) filterLevels.1 resourceLevels.1
            startsLevel_joinRest startsLevel_joinRest, rest]

end Matcher

/-! ## Containment -/

section Containment

variable {resource filter topic levels : List Buffer} {part level : Buffer}

@[simp]
theorem coversLevels_cons (notMulti : level ≠ [multiLevel]) :
    coversLevels (part :: resource) (level :: filter) = true ↔
      (level = [singleLevel] ∨ level = part) ∧ coversLevels resource filter = true := by
  rw [coversLevels, if_neg notMulti]
  by_cases single : level = [singleLevel]
  · simp [single]
  · simp [single]

@[simp]
theorem levelsMatch_cons_cons (notMulti : level ≠ [multiLevel]) :
    levelsMatch (level :: filter) (part :: topic) = true ↔
      (level = [singleLevel] ∨ level = part) ∧ levelsMatch filter topic = true := by
  rw [levelsMatch, if_neg notMulti]
  by_cases single : level = [singleLevel]
  · simp [single]
  · simp [single]

@[simp]
theorem levelsMatch_multi : levelsMatch ([multiLevel] :: filter) topic = true := by
  cases topic with
  | nil | cons => simp [levelsMatch]

/-- When the request uses `#` only if the policy does, every topic the request
matches is matched by the policy, leaving `$` aside. -/
theorem levelsMatch_of_coversLevels (wildcards : WildcardsWhole resource)
    (covered : coversLevels resource filter = true)
    (multi : [multiLevel] ∈ resource → [multiLevel] ∈ filter)
    (matched : levelsMatch resource topic = true) : levelsMatch filter topic = true := by
  induction filter generalizing resource topic with
  | nil =>
    cases resource with
    | nil => exact matched
    | cons part resource => cases covered
  | cons level filter ih =>
    cases resource with
    | nil => cases covered
    | cons part resource =>
      rcases wildcards with ⟨singleWhole, multiWhole, wildcards⟩
      by_cases isMulti : level = [multiLevel]
      · subst isMulti
        exact levelsMatch_multi
      · rcases (coversLevels_cons isMulti).mp covered with ⟨covers, coveredRest⟩
        have multiRest : [multiLevel] ∈ resource → [multiLevel] ∈ filter := by
          intro member
          rcases mem_cons.mp (multi (mem_cons_of_mem _ member)) with same | later
          · exact absurd same.symm isMulti
          · exact later
        have partNotMulti : part ≠ [multiLevel] := by
          -- a `#` of the request would be the last level of both sides
          rintro rfl
          cases (multiWhole mem_cons_self).2
          cases filter with
          | nil => exact isMulti (mem_singleton.mp (multi mem_cons_self)).symm
          | cons next filter => cases coveredRest
        cases topic with
        | nil => simp [levelsMatch, partNotMulti] at matched
        | cons first topic =>
          rcases (levelsMatch_cons_cons partNotMulti).mp matched with ⟨agrees, matchedRest⟩
          apply (levelsMatch_cons_cons isMulti).mpr
          refine ⟨?_, ih wildcards coveredRest multiRest matchedRest⟩
          rcases covers with single | same
          · exact .inl single
          · rw [same]
            exact agrees

/-- A topic the levels of a filter match: `+` becomes a level of one letter, and
`#` two empty levels, so that the text keeps its length. -/
def instantiateLevels : List Buffer → List Buffer
  | [] => []
  | level :: rest =>
    if level = [multiLevel] then
      [[], []]
    else if level = [singleLevel] then
      [97] :: instantiateLevels rest
    else
      level :: instantiateLevels rest

@[simp]
theorem levelsMatch_instantiateLevels (wildcards : WildcardsWhole levels) :
    levelsMatch levels (instantiateLevels levels) = true := by
  induction levels with
  | nil => rfl
  | cons level rest ih =>
    rw [instantiateLevels]
    split
    next multi =>
      subst multi
      exact levelsMatch_multi
    next notMulti =>
      split
      next single => exact (levelsMatch_cons_cons notMulti).mpr ⟨.inl single, ih wildcards.2.2⟩
      next notSingle => exact (levelsMatch_cons_cons notMulti).mpr ⟨.inr rfl, ih wildcards.2.2⟩

/-- Without `#` a filter matches the topics it covers. -/
theorem coversLevels_of_levelsMatch (noMulti : [multiLevel] ∉ filter)
    (matched : levelsMatch filter topic = true) : coversLevels topic filter = true := by
  induction filter generalizing topic with
  | nil => cases topic <;> exact matched
  | cons level filter ih =>
    rw [mem_cons, not_or] at noMulti
    have notMulti := Ne.symm noMulti.1
    cases topic with
    | nil => simp [levelsMatch, notMulti] at matched
    | cons first topic =>
      rcases (levelsMatch_cons_cons notMulti).mp matched with ⟨agrees, matchedRest⟩
      exact (coversLevels_cons notMulti).mpr ⟨agrees, ih noMulti.2 matchedRest⟩

theorem length_eq_of_coversLevels (noMulti : [multiLevel] ∉ filter)
    (covered : coversLevels resource filter = true) : filter.length = resource.length := by
  induction filter generalizing resource with
  | nil =>
    cases resource with
    | nil => rfl
    | cons part resource => cases covered
  | cons level filter ih =>
    rw [mem_cons, not_or] at noMulti
    cases resource with
    | nil => cases covered
    | cons part resource =>
      rw [length_cons, length_cons,
        ih noMulti.2 ((coversLevels_cons (Ne.symm noMulti.1)).mp covered).2]

/-- The topic of a filter with `#` has one level more than the filter. -/
theorem length_instantiateLevels (wildcards : WildcardsWhole levels)
    (multi : [multiLevel] ∈ levels) : (instantiateLevels levels).length = levels.length + 1 := by
  induction levels with
  | nil => cases multi
  | cons level rest ih =>
    rw [instantiateLevels]
    split
    next isMulti =>
      subst isMulti
      cases (wildcards.2.1 mem_cons_self).2
      rfl
    next notMulti =>
      have later : [multiLevel] ∈ rest := by
        rcases mem_cons.mp multi with same | later
        · exact absurd same.symm notMulti
        · exact later
      split
      · rw [length_cons, length_cons, ih wildcards.2.2 later]
      · rw [length_cons, length_cons, ih wildcards.2.2 later]

theorem slash_notMem_of_mem_instantiateLevels (separated : ∀ level ∈ levels, slash ∉ level)
    (member : level ∈ instantiateLevels levels) : slash ∉ level := by
  induction levels with
  | nil => cases member
  | cons first rest ih =>
    rw [forall_mem_cons] at separated
    rw [instantiateLevels] at member
    split_ifs at member with multi single
    · have empty : level = [] := by simpa using member
      rw [empty]
      exact not_mem_nil
    · rcases mem_cons.mp member with rfl | later
      · decide
      · exact ih separated.2 later
    · rcases mem_cons.mp member with rfl | later
      · exact separated.1
      · exact ih separated.2 later

@[simp]
theorem instantiateLevels_eq_nil_iff : instantiateLevels levels = [] ↔ levels = [] := by
  cases levels with
  | nil => simp [instantiateLevels]
  | cons level rest =>
    rw [instantiateLevels]
    split_ifs <;> simp

/-- What becomes of a byte of the filter: `+` a letter, and `#` a separator. -/
def instantiateByte (byte : UInt8) : UInt8 :=
  if byte = singleLevel then 97 else if byte = multiLevel then slash else byte

@[simp]
theorem joinLevels_instantiateLevels (wildcards : WildcardsWhole levels) :
    joinLevels (instantiateLevels levels) = (joinLevels levels).map instantiateByte := by
  induction levels with
  | nil => rfl
  | cons level rest ih =>
    rcases wildcards with ⟨singleWhole, multiWhole, wildcards⟩
    have restSame : joinRest (instantiateLevels rest) = (joinRest rest).map instantiateByte := by
      rw [joinRest, joinRest, apply_ite (map instantiateByte), map_cons, ← ih wildcards]
      simp only [instantiateLevels_eq_nil_iff]
      rfl
    rw [instantiateLevels]
    split_ifs with multi single
    · subst multi
      cases (multiWhole mem_cons_self).2
      rfl
    · rw [joinLevels_cons, joinLevels_cons, restSame, single]
      rfl
    · have literal : level.map instantiateByte = level := by
        refine (map_congr_left fun byte inside => ?_).trans (map_id level)
        have noSingle : byte ≠ singleLevel := fun same => single (singleWhole (same ▸ inside))
        have noMulti : byte ≠ multiLevel := fun same => multi (multiWhole (same ▸ inside)).1
        rw [instantiateByte, if_neg noSingle, if_neg noMulti, id]
      rw [joinLevels_cons, joinLevels_cons, map_append, restSame, literal]

/-- A topic the filter matches. -/
def instantiateTopic (filter : Buffer) : Buffer :=
  joinLevels (instantiateLevels (topicLevels filter))

@[simp]
theorem instantiateTopic_eq_map {filter : Buffer} (wellFormed : TopicFilter filter) :
    instantiateTopic filter = filter.map instantiateByte := by
  rw [instantiateTopic, joinLevels_instantiateLevels wellFormed.wildcards, joinLevels_topicLevels]

@[simp]
theorem topicLevels_instantiateTopic (filter : Buffer) :
    topicLevels (instantiateTopic filter) = instantiateLevels (topicLevels filter) := by
  apply splitOn_intercalate slash
  · intro level
    exact slash_notMem_of_mem_instantiateLevels fun _ => slash_notMem_of_mem_topicLevels
  · intro empty
    exact topicLevels_ne_nil filter (instantiateLevels_eq_nil_iff.mp empty)

theorem topicName_instantiateTopic {filter : Buffer} (wellFormed : TopicFilter filter) :
    TopicName (instantiateTopic filter) := by
  have same := instantiateTopic_eq_map wellFormed
  -- A byte that becomes neither a letter nor a separator stays, and is no wildcard.
  have kept : ∀ {byte : UInt8}, byte ≠ 97 → byte ≠ slash → byte ∈ instantiateTopic filter →
      byte ∈ filter ∧ byte ≠ singleLevel ∧ byte ≠ multiLevel := by
    intro byte noLetter noSlash member
    rw [same] at member
    obtain ⟨old, inside, rfl⟩ := mem_map.mp member
    unfold instantiateByte at noLetter noSlash ⊢
    split_ifs at noLetter noSlash ⊢ with single multi
    · exact absurd rfl noLetter
    · exact absurd rfl noSlash
    · exact ⟨inside, single, multi⟩
  constructor
  · constructor
    · rw [same, Ne, map_eq_nil_iff]
      exact wellFormed.nonempty
    · rw [same, length_map]
      exact wellFormed.short
    · exact fun member => wellFormed.noZero (kept (by decide) (by decide) member).1
  · exact fun member => (kept (by decide) (by decide) member).2.1 rfl
  · exact fun member => (kept (by decide) (by decide) member).2.2 rfl

end Containment

/-! ## First levels -/

section Heads

variable {text filter topic level : Buffer} {rest : List Buffer} {byte : UInt8}

theorem head?_iff_of_topicLevels (different : byte ≠ slash)
    (levels : topicLevels text = level :: rest) :
    text.head? = some byte ↔ level.head? = some byte := by
  rw [← joinLevels_topicLevels text, levels, joinLevels_cons]
  cases level with
  | nil =>
    cases rest with
    | nil => simp [joinRest]
    | cons next rest => simp [joinRest, Ne.symm different]
  | cons first level => simp

/-- A filter starts with a wildcard when its first level is one. -/
theorem startsWild_iff (wellFormed : TopicFilter filter)
    (levels : topicLevels filter = level :: rest) :
    startsWild filter = true ↔ level = [singleLevel] ∨ level = [multiLevel] := by
  have wildcards := wellFormed.wildcards
  rw [levels] at wildcards
  rw [startsWild, Bool.or_eq_true, decide_eq_true_eq, decide_eq_true_eq,
    head?_iff_of_topicLevels (by decide) levels, head?_iff_of_topicLevels (by decide) levels]
  constructor
  · rintro (single | multi)
    · exact .inl (wildcards.1 (mem_of_mem_head? single))
    · exact .inr (wildcards.2.1 (mem_of_mem_head? multi)).1
  · rintro (rfl | rfl)
    · exact .inl rfl
    · exact .inr rfl

/-- The topic of a filter that starts with a wildcard does not start with `$`. -/
theorem head?_instantiateTopic_of_wild (wellFormed : TopicFilter filter)
    (wild : startsWild filter = true) : (instantiateTopic filter).head? ≠ some dollar := by
  rw [startsWild, Bool.or_eq_true, decide_eq_true_eq, decide_eq_true_eq] at wild
  rw [instantiateTopic_eq_map wellFormed, head?_map]
  rcases wild with single | multi
  · rw [single]
    decide
  · rw [multi]
    decide

theorem topicMatches_iff : topicMatches filter topic = true ↔
    levelsMatch (topicLevels filter) (topicLevels topic) = true ∧
      ¬(startsWild filter = true ∧ topic.head? = some dollar) := by
  rw [topicMatches, Bool.and_eq_true, Bool.not_eq_true', ← Bool.not_eq_true, Bool.and_eq_true,
    decide_eq_true_eq]

/-- Every filter matches its topic. -/
@[simp]
theorem topicMatches_instantiateTopic (wellFormed : TopicFilter filter) :
    topicMatches filter (instantiateTopic filter) = true := by
  rw [topicMatches_iff, topicLevels_instantiateTopic]
  refine ⟨levelsMatch_instantiateLevels wellFormed.wildcards, ?_⟩
  rintro ⟨wild, starts⟩
  exact head?_instantiateTopic_of_wild wellFormed wild starts

/-- A filter that matches a topic with `$` and does not start with a wildcard
starts with `$` itself. -/
theorem head?_of_topicMatches (wellFormed : TopicFilter filter)
    (matched : topicMatches filter topic = true) (starts : topic.head? = some dollar) :
    filter.head? = some dollar := by
  rw [topicMatches_iff] at matched
  cases levels : topicLevels filter with
  | nil => exact absurd levels (topicLevels_ne_nil filter)
  | cons level rest =>
    have notWild : ¬(level = [singleLevel] ∨ level = [multiLevel]) := fun wild =>
      matched.2 ⟨(startsWild_iff wellFormed levels).mpr wild, starts⟩
    rw [not_or] at notWild
    cases parts : topicLevels topic with
    | nil => exact absurd parts (topicLevels_ne_nil topic)
    | cons part others =>
      rw [levels, parts] at matched
      rcases ((levelsMatch_cons_cons notWild.2).mp matched.1).1 with single | same
      · exact absurd single notWild.1
      · rw [head?_iff_of_topicLevels (by decide) levels, same]
        exact (head?_iff_of_topicLevels (by decide) parts).mp starts

end Heads

/-! ## Soundness of the matcher -/

section Soundness

variable {resource filter : Buffer}

theorem multiLevel_mem_joinLevels {levels : List Buffer} (wildcards : WildcardsWhole levels) :
    multiLevel ∈ joinLevels levels ↔ [multiLevel] ∈ levels := by
  induction levels with
  | nil => simp [joinLevels]
  | cons level rest ih =>
    have whole : multiLevel ∈ level ↔ [multiLevel] = level := by
      refine ⟨fun inside => (wildcards.2.1 inside).1.symm, ?_⟩
      rintro rfl
      exact mem_singleton_self _
    rw [joinLevels_cons, mem_append, mem_cons, whole, ← ih wildcards.2.2, joinRest]
    split
    next empty => simp [empty, joinLevels]
    next nonempty => simp [show multiLevel ≠ slash by decide]

theorem multiLevel_mem_iff (wellFormed : TopicFilter filter) :
    multiLevel ∈ filter ↔ [multiLevel] ∈ topicLevels filter := by
  rw [← multiLevel_mem_joinLevels wellFormed.wildcards, joinLevels_topicLevels]

theorem coversLevels_of_matchTopicFilter (wellFormed : TopicFilter filter)
    (granted : matchTopicFilter resource filter = true) :
    coversLevels (topicLevels resource) (topicLevels filter) = true := by
  rw [← matchTopicFilter_joinLevels (fun _ => slash_notMem_of_mem_topicLevels)
    (fun _ => slash_notMem_of_mem_topicLevels) wellFormed.wildcards (topicLevels_ne_nil _)
    (topicLevels_ne_nil _), joinLevels_topicLevels, joinLevels_topicLevels]
  exact granted

/-- A granted request that ends in `#` where the policy does not matches a topic
with more levels than the policy. -/
theorem topicMatches_escape (resourceFilter : TopicFilter resource)
    (policyFilter : TopicFilter filter) (granted : matchTopicFilter resource filter = true)
    (multi : multiLevel ∈ resource) (noMulti : multiLevel ∉ filter) :
    topicMatches filter (instantiateTopic resource) = false := by
  rw [multiLevel_mem_iff resourceFilter] at multi
  rw [multiLevel_mem_iff policyFilter] at noMulti
  have covered := coversLevels_of_matchTopicFilter policyFilter granted
  rw [← Bool.not_eq_true, topicMatches_iff, topicLevels_instantiateTopic]
  rintro ⟨matched, _⟩
  have policyLength :=
    length_eq_of_coversLevels noMulti (coversLevels_of_levelsMatch noMulti matched)
  have requestLength := length_eq_of_coversLevels noMulti covered
  rw [length_instantiateLevels resourceFilter.wildcards multi] at policyLength
  omega

/-- A granted request matches only topics the policy matches, exactly when it
ends in `#` only if the policy does, and does not start with `$` where the policy
starts with a wildcard. -/
theorem matchTopicFilter_sound_iff (resourceFilter : TopicFilter resource)
    (policyFilter : TopicFilter filter) (granted : matchTopicFilter resource filter = true) :
    (∀ topic, TopicName topic → topicMatches resource topic = true →
        topicMatches filter topic = true) ↔
      (multiLevel ∈ resource → multiLevel ∈ filter) ∧
        ¬(resource.head? = some dollar ∧ startsWild filter = true) := by
  have topicName := topicName_instantiateTopic resourceFilter
  have matched := topicMatches_instantiateTopic resourceFilter
  constructor
  · intro contained
    have policyMatched := contained _ topicName matched
    constructor
    · intro multi
      by_contra noMulti
      rw [topicMatches_escape resourceFilter policyFilter granted multi noMulti] at policyMatched
      cases policyMatched
    · rintro ⟨starts, wild⟩
      refine (topicMatches_iff.mp policyMatched).2 ⟨wild, ?_⟩
      rw [instantiateTopic_eq_map resourceFilter, head?_map, starts]
      rfl
  · rintro ⟨multi, starts⟩ topic _ matched
    rw [multiLevel_mem_iff resourceFilter, multiLevel_mem_iff policyFilter] at multi
    rw [topicMatches_iff]
    constructor
    · exact levelsMatch_of_coversLevels resourceFilter.wildcards
        (coversLevels_of_matchTopicFilter policyFilter granted) multi
        (topicMatches_iff.mp matched).1
    · rintro ⟨wild, topicStarts⟩
      exact starts ⟨head?_of_topicMatches resourceFilter matched topicStarts, wild⟩

/-- A request below the `#` of a policy is contained in it. -/
theorem matchTopicFilter_sound_example :
    matchTopicFilter (gglStr "a/+/b") (gglStr "a/#") = true ∧
      ∀ topic, TopicName topic → topicMatches (gglStr "a/+/b") topic = true →
        topicMatches (gglStr "a/#") topic = true := by
  have granted : matchTopicFilter (gglStr "a/+/b") (gglStr "a/#") = true := by decide +kernel
  exact ⟨granted,
    (matchTopicFilter_sound_iff ⟨⟨by decide, by decide, by decide⟩, by decide +kernel⟩
      ⟨⟨by decide, by decide, by decide⟩, by decide +kernel⟩ granted).mpr (by decide +kernel)⟩

/-- A request for everything below `a` is granted by a policy for its direct
children, and a request for a `$` topic by a policy that excludes it. -/
theorem granted_request_escapes_policy :
    (TopicFilter (gglStr "a/#") ∧ TopicFilter (gglStr "a/+") ∧
      matchTopicFilter (gglStr "a/#") (gglStr "a/+") = true ∧
      ∃ topic, TopicName topic ∧ topicMatches (gglStr "a/#") topic = true ∧
        topicMatches (gglStr "a/+") topic = false) ∧
    (TopicFilter (gglStr "$SYS/x") ∧ TopicFilter (gglStr "+/x") ∧
      matchTopicFilter (gglStr "$SYS/x") (gglStr "+/x") = true ∧
      ∃ topic, TopicName topic ∧ topicMatches (gglStr "$SYS/x") topic = true ∧
        topicMatches (gglStr "+/x") topic = false) := by
  refine ⟨⟨?_, ?_, by decide +kernel, gglStr "a/b/c", ?_, by decide +kernel, by decide +kernel⟩,
    ?_, ?_, by decide +kernel, gglStr "$SYS/x", ?_, by decide +kernel, by decide +kernel⟩
  · exact ⟨⟨by decide, by decide, by decide⟩, by decide +kernel⟩
  · exact ⟨⟨by decide, by decide, by decide⟩, by decide +kernel⟩
  · exact ⟨⟨by decide, by decide, by decide⟩, by decide, by decide⟩
  · exact ⟨⟨by decide, by decide, by decide⟩, by decide +kernel⟩
  · exact ⟨⟨by decide, by decide, by decide⟩, by decide +kernel⟩
  · exact ⟨⟨by decide, by decide, by decide⟩, by decide, by decide⟩

end Soundness

end GreengrassLite

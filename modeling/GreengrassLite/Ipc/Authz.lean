import GreengrassLite.Core.Alloc
import GreengrassLite.Core.Map
import GreengrassLite.Library.Glob
import Mathlib.Data.List.Forall2

/-!
# Authorization of IPC requests

`ggipcd/src/ipc_authz.c` looks a request up in the policies of its component.  A
policy grants an operation on resources given by patterns, in which a star stands
for anything and `$` with braces quotes.

A pattern is unescaped in place: the bytes of the policy are overwritten while
they are read, and zero bytes mark the stars.  So a policy may be read once only;
the loops below pass the bytes on as they are left.
-/

namespace GreengrassLite

open Library List

def starByte : UInt8 :=
  42

def dollarByte : UInt8 :=
  36

def openBrace : UInt8 :=
  123

def closeBrace : UInt8 :=
  125

/-! ## The code -/

/-- The first loop of `ggl_ipc_default_policy_matcher`: the bytes as they are
overwritten, the position read, the position written and whether a quotation is
open. -/
def unescapeLoop : Nat → Buffer → Nat → Nat → Bool → Buffer × Nat
  | 0, data, _, writePos, _ => (data, writePos)
  | fuel + 1, data, position, writePos, inEscape =>
    match data[position]? with
    | none => (data, writePos)
    | some byte =>
      if inEscape then
        if byte = closeBrace then
          unescapeLoop fuel data (position + 1) writePos false
        else
          unescapeLoop fuel (data.set writePos byte) (position + 1) (writePos + 1) true
      else if byte = starByte then
        unescapeLoop fuel (data.set writePos 0) (position + 1) (writePos + 1) false
      else if byte = dollarByte ∧ data[position + 1]? = some openBrace then
        unescapeLoop fuel data (position + 2) writePos true
      else
        unescapeLoop fuel (data.set writePos byte) (position + 1) (writePos + 1) false

/-- `ggl_buffer_contains`; `memmem` answers the leftmost occurrence. -/
def gglBufferContains (buf substring : Buffer) : Option Nat :=
  if substring.length = 0 then some 0 else firstOccurrence substring buf

/-- The second loop of `ggl_ipc_default_policy_matcher`.  `first` says that no
star was met, and `segment` is the part of the pattern since the last one. -/
def matchSegments (first : Bool) (segment remaining : Buffer) : Buffer → Bool
  | [] => if first then remaining = segment else segment <:+ remaining
  | byte :: pattern =>
    if byte = 0 then
      if first then
        if segment <+: remaining then
          matchSegments false [] (remaining.drop segment.length) pattern
        else
          false
      else
        match gglBufferContains remaining segment with
        | none => false
        | some matchStart =>
          matchSegments false [] (remaining.drop (matchStart + segment.length)) pattern
    else
      matchSegments first (segment ++ [byte]) remaining pattern

/-- `ggl_ipc_default_policy_matcher`, with the bytes of the policy it leaves
behind. -/
def gglIpcDefaultPolicyMatcher (requestResource policyResource : Buffer) : Bool × Buffer :=
  let (data, writePos) := unescapeLoop policyResource.length policyResource 0 0 false
  (matchSegments true [] requestResource (data.take writePos), data)

/-- A matcher answers whether it matches and what it leaves of the policy. -/
abbrev PolicyResourceMatcher :=
  Buffer → Buffer → Bool × Buffer

/-- The loop of `policy_match` over the resources. -/
def resourcesLoop (matcher : PolicyResourceMatcher) (resource : Buffer) :
    List Buffer → Bool × List Buffer
  | [] => (false, [])
  | policyResource :: rest =>
    if policyResource = gglStr "*" then
      (true, policyResource :: rest)
    else
      let (matched, left) := matcher resource policyResource
      if matched then
        (true, left :: rest)
      else
        let (matched, leftRest) := resourcesLoop matcher resource rest
        (matched, left :: leftRest)

variable (matcher : PolicyResourceMatcher) (operation resource : Buffer)

/-- The loop of `policy_match` over the operations. -/
def operationsLoop (policyResources : List Buffer) :
    List Buffer → Except GglError Unit × List Buffer
  | [] => (.error .noentry, policyResources)
  | policyOperation :: rest =>
    if operation = policyOperation then
      let (matched, left) := resourcesLoop matcher resource policyResources
      (if matched then .ok () else .error .failure, left)
    else
      operationsLoop policyResources rest

/-- `policy_match`, with the resources of the policy it leaves behind. -/
def policyMatch (policy : GglMap) (operation resource : Buffer) :
    Except GglError Unit × List Buffer :=
  match gglMapValidate policy
      [⟨gglStr "operations", true, .list⟩, ⟨gglStr "resources", true, .list⟩] with
  | .ok [some (.list policyOperations), some (.list policyResources)] =>
    match gglListTypeCheck policyOperations .buf with
    | .error _ => (.error .config, [])
    | .ok () =>
      match gglListTypeCheck policyResources .buf with
      | .error _ => (.error .config, [])
      | .ok () =>
        operationsLoop matcher operation resource (bufferItems policyResources)
          (bufferItems policyOperations)
  | _ => (.error .config, [])

/-- The loop of `ggl_ipc_auth` over the policies; the bytes of each policy are
its own. -/
def policiesLoop : GglMap → Except GglError Unit
  | [] => .error .noentry
  | (_, .map policy) :: rest =>
    match (policyMatch matcher policy operation resource).1 with
    | .ok () => .ok ()
    | .error _ => policiesLoop rest
  | _ :: _ => .error .config

/-- The memory after an object was read into `policy_mem` of `ggl_ipc_auth`, if it fits. -/
def policyMemory (object : GglObject) : Option BumpAlloc :=
  bumpAllocator.allocAll (gglBumpAllocInit 4096) (object.requests true)

/-- `ggl_gg_config_read` into `policy_mem`, given what is stored. -/
def readPolicies (stored : Except GglError GglObject) : Except GglError GglObject := do
  let object ← stored
  if (policyMemory object).isSome then .ok object else .error .nomem

/-- `ggl_ipc_auth`, given what is stored for the policies. -/
def gglIpcAuth (stored : Except GglError GglObject) (operation resource : Buffer) :
    Except GglError Unit :=
  match readPolicies stored with
  | .error error => .error error
  | .ok (.map policyMap) => policiesLoop matcher operation resource policyMap
  | .ok _ => .error .config

/-! ## Patterns as globs -/

/-- The glob of a pattern.  `quoted` says that a quotation is open. -/
def patternGlob (quoted : Bool) : Buffer → List (GlobToken UInt8)
  | [] => []
  | byte :: rest =>
    if quoted then
      if byte = closeBrace then
        patternGlob false rest
      else
        .letter byte :: patternGlob true rest
    else if byte = starByte then
      .star :: patternGlob false rest
    else
      match rest with
      | [] => [.letter byte]
      | next :: others =>
        if byte = dollarByte ∧ next = openBrace then
          patternGlob true others
        else
          .letter byte :: patternGlob false (next :: others)

/-! ## Unescaping in place -/

section Unescape

/-- How a token is written into the pattern. -/
def tokenByte : GlobToken UInt8 → UInt8
  | .star => 0
  | .letter byte => byte

variable {data : Buffer} {position writePos fuel : Nat} {byte : UInt8} {quoted : Bool}

theorem take_set_succ (inside : writePos < data.length) :
    (data.set writePos byte).take (writePos + 1) = data.take writePos ++ [byte] := by
  rw [take_add_one, take_set_of_le (Nat.le_refl _), getElem?_set_self inside]
  rfl

theorem patternGlob_drop (read : data[position]? = some byte) :
    data.drop position = byte :: data.drop (position + 1) := by
  rcases List.getElem?_eq_some_iff.mp read with ⟨inside, rfl⟩
  exact drop_eq_getElem_cons inside

/-- The bytes before the writing position are those written, and the bytes from
the reading position on are still those of the policy. -/
theorem unescapeLoop_spec (behind : writePos ≤ position) (enough : data.length ≤ position + fuel) :
    (unescapeLoop fuel data position writePos quoted).1.take
        (unescapeLoop fuel data position writePos quoted).2
      = data.take writePos ++ (patternGlob quoted (data.drop position)).map tokenByte := by
  induction fuel generalizing data position writePos quoted with
  | zero =>
    have ended : data.drop position = [] := drop_eq_nil_of_le enough
    rw [unescapeLoop, ended]
    simp [patternGlob]
  | succ fuel ih =>
    cases read : data[position]? with
    | none =>
      have ended : data.drop position = [] :=
        drop_eq_nil_of_le (getElem?_eq_none_iff.mp read)
      simp [unescapeLoop, read, ended, patternGlob]
    | some byte =>
      have inside : position < data.length := (List.getElem?_eq_some_iff.mp read).1
      have wrote : ∀ (written : UInt8) (quoted : Bool),
          (unescapeLoop fuel (data.set writePos written) (position + 1) (writePos + 1)
                quoted).1.take
              (unescapeLoop fuel (data.set writePos written) (position + 1) (writePos + 1) quoted).2
            = data.take writePos ++
              written :: (patternGlob quoted (data.drop (position + 1))).map tokenByte := by
        intro written quoted
        rw [ih (by omega) (by rw [length_set]; omega), take_set_succ (by omega),
          drop_set_of_lt (by omega), append_assoc, singleton_append]
      rw [patternGlob_drop read, unescapeLoop, read]
      dsimp only
      rw [patternGlob.eq_def]
      cases quoted with
      | true =>
        by_cases closes : byte = closeBrace
        · rw [if_pos rfl, if_pos closes, ih (by omega) (by omega)]
          simp [closes]
        · rw [if_pos rfl, if_neg closes, wrote]
          simp [closes, tokenByte]
      | false =>
        rw [if_neg Bool.false_ne_true]
        by_cases isStar : byte = starByte
        · rw [if_pos isStar, wrote]
          simp [isStar, tokenByte]
        · rw [if_neg isStar]
          cases next : data[position + 1]? with
          | none =>
            have ended : data.drop (position + 1) = [] :=
              drop_eq_nil_of_le (getElem?_eq_none_iff.mp next)
            rw [if_neg (by simp), wrote, ended]
            simp [isStar, tokenByte, patternGlob]
          | some following =>
            by_cases opens : byte = dollarByte ∧ following = openBrace
            · rw [if_pos (by simp [opens]), ih (by omega) (by omega), patternGlob_drop next]
              simp [opens, dollarByte, starByte]
            · rw [if_neg (by simpa using opens), wrote, patternGlob_drop next]
              simp [isStar, opens, tokenByte]

end Unescape

/-! ## Matching segments -/

section Segments

variable {tokens : List (GlobToken UInt8)} {segment remaining : Buffer} {first : Bool}

/-- No letter of the glob is mistaken for a star. -/
def LettersNonzero (tokens : List (GlobToken UInt8)) : Prop :=
  ∀ byte, .letter byte ∈ tokens → byte ≠ 0

@[simp]
theorem gglBufferContains_eq : gglBufferContains remaining segment
    = firstOccurrence segment remaining := by
  rw [gglBufferContains]
  split
  next empty =>
    cases eq_nil_of_length_eq_zero empty
    cases remaining <;> simp [firstOccurrence]
  · rfl

theorem globLetters_append_letter {byte : UInt8} :
    globLetters segment ++ .letter byte :: tokens = globLetters (segment ++ [byte]) ++ tokens := by
  simp [globLetters]

/-- The second loop decides whether the rest of the request is a word of the rest
of the glob. -/
@[simp]
theorem matchSegments_iff (nonzero : LettersNonzero tokens) :
    matchSegments first segment remaining (tokens.map tokenByte) = true ↔
      remaining ∈ globWords (if first then globLetters segment ++ tokens
        else .star :: (globLetters segment ++ tokens)) := by
  induction tokens generalizing first segment remaining with
  | nil =>
    rw [map_nil, matchSegments]
    cases first with
    | true => simp
    | false => simp
  | cons token tokens ih =>
    have nonzeroRest : LettersNonzero tokens :=
      fun byte member => nonzero byte (mem_cons_of_mem _ member)
    rw [map_cons, matchSegments]
    cases token with
    | star =>
      rw [if_pos (show tokenByte .star = 0 from rfl)]
      cases first with
      | true =>
        rw [if_pos rfl, if_pos rfl, mem_globWords_first]
        by_cases starts : segment <+: remaining
        · rw [if_pos starts, ih nonzeroRest]
          simp [starts, globLetters]
        · simp [starts]
      | false =>
        rw [if_neg Bool.false_ne_true, if_neg Bool.false_ne_true, mem_globWords_middle,
          gglBufferContains_eq]
        cases found : firstOccurrence segment remaining with
        | none => simp
        | some matchStart =>
          rw [ih nonzeroRest]
          simp [globLetters]
    | letter byte =>
      have letterNonzero : ¬tokenByte (.letter byte) = 0 := nonzero byte mem_cons_self
      rw [if_neg letterNonzero, ih nonzeroRest, globLetters_append_letter]
      rfl

end Segments

/-! ## The matcher and the policies -/

section Policies

variable {matcher : PolicyResourceMatcher} {operation resource policyResource : Buffer}
  {policyResources policyOperations : List Buffer} {pair pair' : Buffer × GglObject}

theorem letter_mem_patternGlob {quoted : Bool} {pattern : Buffer} {byte : UInt8}
    (member : .letter byte ∈ patternGlob quoted pattern) : byte ∈ pattern := by
  fun_induction patternGlob quoted pattern with
  | case1 => cases member
  | case2 _ ih => exact mem_cons_of_mem _ (ih member)
  | case3 first _ _ ih =>
    rcases mem_cons.mp member with same | later
    · cases same
      exact mem_cons_self
    · exact mem_cons_of_mem _ (ih later)
  | case4 _ _ _ ih =>
    rcases mem_cons.mp member with same | later
    · cases same
    · exact mem_cons_of_mem _ (ih later)
  | case5 => simpa using member
  | case6 _ _ _ _ _ _ _ ih => exact mem_cons_of_mem _ (mem_cons_of_mem _ (ih member))
  | case7 _ first _ _ _ _ _ ih =>
    rcases mem_cons.mp member with same | later
    · cases same
      exact mem_cons_self
    · exact mem_cons_of_mem _ (ih later)

theorem gglIpcDefaultPolicyMatcher_eq (resource policyResource : Buffer) :
    (gglIpcDefaultPolicyMatcher resource policyResource).1 =
      matchSegments true [] resource ((patternGlob false policyResource).map tokenByte) := by
  rw [gglIpcDefaultPolicyMatcher]
  dsimp only
  rw [unescapeLoop_spec (Nat.le_refl 0) (by omega), take_zero, nil_append, drop_zero]

/-- The matcher accepts the words of the glob of the policy. -/
theorem gglIpcDefaultPolicyMatcher_iff (nonzero : 0 ∉ policyResource) :
    (gglIpcDefaultPolicyMatcher resource policyResource).1 = true ↔
      resource ∈ globWords (patternGlob false policyResource) := by
  rw [gglIpcDefaultPolicyMatcher_eq, matchSegments_iff]
  · rfl
  · intro byte member
    rintro rfl
    exact nonzero (letter_mem_patternGlob member)

@[simp]
theorem resourcesLoop_iff :
    (resourcesLoop matcher resource policyResources).1 = true ↔
      ∃ pattern ∈ policyResources, pattern = gglStr "*" ∨ (matcher resource pattern).1 = true := by
  induction policyResources with
  | nil => simp [resourcesLoop]
  | cons pattern rest ih =>
    rw [resourcesLoop]
    by_cases isStar : pattern = gglStr "*"
    · simp [isStar]
    · rw [if_neg isStar]
      dsimp only
      by_cases matched : (matcher resource pattern).1 = true
      · simp [matched]
      · simp [isStar, matched, ih]

@[simp]
theorem operationsLoop_iff :
    (operationsLoop matcher operation resource policyResources policyOperations).1 = .ok () ↔
      operation ∈ policyOperations ∧
        (resourcesLoop matcher resource policyResources).1 = true := by
  induction policyOperations with
  | nil => simp [operationsLoop]
  | cons policyOperation rest ih =>
    rw [operationsLoop]
    by_cases same : operation = policyOperation
    · rw [if_pos same]
      by_cases matched : (resourcesLoop matcher resource policyResources).1 = true
      · simp [same, matched]
      · simp [matched]
    · rw [if_neg same, ih]
      simp [same]

/-- The operations and resources of a policy whose lists are well typed. -/
def PolicyLists (policy : GglMap) (operations resources : List Buffer) : Prop :=
  gglMapGet policy (gglStr "operations") = some (.list (operations.map .buf)) ∧
    gglMapGet policy (gglStr "resources") = some (.list (resources.map .buf))

@[simp]
theorem policyMatch_iff {policy : GglMap} :
    (policyMatch matcher policy operation resource).1 = .ok () ↔
      ∃ operations resources, PolicyLists policy operations resources ∧
        operation ∈ operations ∧ (resourcesLoop matcher resource resources).1 = true := by
  rw [policyMatch]
  constructor
  · intro granted
    split at granted
    next policyOperations policyResources validated =>
      rw [gglMapValidate_cons_eq_ok_iff, gglMapValidate_cons_eq_ok_iff,
        gglMapValidateEntry_eq_some_iff, gglMapValidateEntry_eq_some_iff] at validated
      split at granted
      · cases granted
      next operationsChecked =>
        split at granted
        · cases granted
        next resourcesChecked =>
          have lists : PolicyLists policy (bufferItems policyOperations)
              (bufferItems policyResources) := by
            rw [PolicyLists, ← gglListTypeCheck_buf_ok operationsChecked,
              ← gglListTypeCheck_buf_ok resourcesChecked]
            exact ⟨validated.1.1, validated.2.1.1⟩
          exact ⟨_, _, lists, operationsLoop_iff.mp granted⟩
    · cases granted
  · rintro ⟨operations, resources, ⟨operationsFound, resourcesFound⟩, listed, matched⟩
    have validated : gglMapValidate policy
        [⟨gglStr "operations", true, .list⟩, ⟨gglStr "resources", true, .list⟩]
        = .ok [some (.list (operations.map .buf)), some (.list (resources.map .buf))] := by
      rw [gglMapValidate_cons_eq_ok_iff, gglMapValidate_cons_eq_ok_iff,
        gglMapValidateEntry_eq_some_iff, gglMapValidateEntry_eq_some_iff]
      exact ⟨⟨operationsFound, .inr rfl⟩, ⟨resourcesFound, .inr rfl⟩, rfl⟩
    rw [validated]
    simp only [gglListTypeCheck_map_buf, bufferItems_map_buf]
    exact operationsLoop_iff.mpr ⟨listed, matched⟩

/-- The policy grants the request. -/
def Grants (policy : GglObject) (operation resource : Buffer) : Prop :=
  ∃ entry operations resources, policy = .map entry ∧ PolicyLists entry operations resources ∧
    operation ∈ operations ∧
    ∃ pattern ∈ resources, resource ∈ globWords (patternGlob false pattern)

/-- No resource pattern of the policy has a zero byte. -/
def PatternsNonzero (policy : GglObject) : Prop :=
  ∀ entry operations resources, policy = .map entry → PolicyLists entry operations resources →
    ∀ pattern ∈ resources, 0 ∉ pattern

@[simp]
theorem policyMatch_default_iff {policy : GglMap} (nonzero : PatternsNonzero (.map policy)) :
    (policyMatch gglIpcDefaultPolicyMatcher policy operation resource).1 = .ok () ↔
      Grants (.map policy) operation resource := by
  rw [policyMatch_iff]
  constructor
  · rintro ⟨operations, resources, lists, listed, matched⟩
    rcases resourcesLoop_iff.mp matched with ⟨pattern, member, isStar | matched⟩
    · refine ⟨policy, operations, resources, rfl, lists, listed, pattern, member, ?_⟩
      -- the pattern of one star is the glob of everything
      rw [isStar]
      exact ⟨[], rfl, nil_suffix⟩
    · have patternNonzero := nonzero policy operations resources rfl lists pattern member
      exact ⟨policy, operations, resources, rfl, lists, listed, pattern, member,
        (gglIpcDefaultPolicyMatcher_iff patternNonzero).mp matched⟩
  · rintro ⟨entry, operations, resources, same, lists, listed, pattern, member, word⟩
    cases same
    have patternNonzero := nonzero policy operations resources rfl lists pattern member
    refine ⟨operations, resources, lists, listed, ?_⟩
    exact resourcesLoop_iff.mpr
      ⟨pattern, member, .inr ((gglIpcDefaultPolicyMatcher_iff patternNonzero).mpr word)⟩

/-- Every policy of the map is a map itself. -/
def AllMaps (policies : GglMap) : Prop :=
  ∀ pair ∈ policies, ∃ entry, pair.2 = .map entry

section Decision

variable {policies policies' : GglMap}

variable (operation resource) in

/-- The loop over the policies grants what one of them grants, and answers
`NOENTRY` otherwise. -/
theorem policiesLoop_default (maps : AllMaps policies)
    (nonzero : ∀ pair ∈ policies, PatternsNonzero pair.2) :
    policiesLoop gglIpcDefaultPolicyMatcher operation resource policies = .ok () ∧
        (∃ pair ∈ policies, Grants pair.2 operation resource) ∨
      policiesLoop gglIpcDefaultPolicyMatcher operation resource policies = .error .noentry ∧
        ¬∃ pair ∈ policies, Grants pair.2 operation resource := by
  induction policies with
  | nil => exact .inr ⟨rfl, fun ⟨_, member, _⟩ => absurd member not_mem_nil⟩
  | cons pair rest ih =>
    rcases pair with ⟨key, policy⟩
    rcases maps _ mem_cons_self with ⟨entry, isMap⟩
    cases isMap
    have granted : (policyMatch gglIpcDefaultPolicyMatcher entry operation resource).1 = .ok () ↔
        Grants (.map entry) operation resource :=
      policyMatch_default_iff (nonzero _ mem_cons_self)
    have later := ih (fun pair member => maps pair (mem_cons_of_mem _ member))
      fun pair member => nonzero pair (mem_cons_of_mem _ member)
    rw [policiesLoop, exists_mem_cons_iff]
    cases answer : (policyMatch gglIpcDefaultPolicyMatcher entry operation resource).1 with
    | ok _ => exact .inl ⟨rfl, .inl (granted.mp answer)⟩
    | error _ =>
      have refused : ¬Grants (.map entry) operation resource := by
        rw [← granted, answer]
        nofun
      rcases later with ⟨same, some⟩ | ⟨same, none⟩
      · exact .inl ⟨same, .inr some⟩
      · exact .inr ⟨same, not_or.mpr ⟨refused, none⟩⟩

/-- A list may have been reordered, other objects are equal. -/
def ReorderedList (object object' : GglObject) : Prop :=
  object = object' ∨
    ∃ list list', object = .list list ∧ object' = .list list' ∧ list.Perm list'

/-- The same policy up to the order of its lists and of its keys. -/
def ReorderedPolicy (pair pair' : Buffer × GglObject) : Prop :=
  ∃ entry entry', pair.2 = .map entry ∧ pair'.2 = .map entry' ∧
    ∀ key, Option.Rel ReorderedList (gglMapGet entry key) (gglMapGet entry' key)

/-- The same policies up to the order of the entries, operations and resources. -/
def Reordered (policies policies' : GglMap) : Prop :=
  ∃ middle, policies.Perm middle ∧ List.Forall₂ ReorderedPolicy middle policies'

theorem ReorderedList.symm {object object' : GglObject} (same : ReorderedList object object') :
    ReorderedList object' object := by
  rcases same with rfl | ⟨list, list', isList, isList', permuted⟩
  · exact .inl rfl
  · exact .inr ⟨list', list, isList', isList, permuted.symm⟩

theorem ReorderedPolicy.symm (same : ReorderedPolicy pair pair') : ReorderedPolicy pair' pair := by
  rcases same with ⟨entry, entry', isMap, isMap', lookups⟩
  refine ⟨entry', entry, isMap', isMap, fun key => ?_⟩
  have related := lookups key
  generalize gglMapGet entry key = found, gglMapGet entry' key = found' at related
  cases related with
  | some related => exact .some related.symm
  | none => exact .none

/-- A reordered list of buffers is a list of the same buffers. -/
theorem ReorderedList.buffers {items : List Buffer} {object : GglObject}
    (same : ReorderedList (.list (items.map .buf)) object) :
    ∃ items', object = .list (items'.map .buf) ∧ items.Perm items' := by
  rcases same with rfl | ⟨list, list', isList, rfl, permuted⟩
  · exact ⟨items, rfl, .refl items⟩
  · cases isList
    refine ⟨bufferItems list', ?_, ?_⟩
    · rw [← gglListTypeCheck_buf_ok]
      rw [gglListTypeCheck, ← permuted.all_eq]
      exact gglListTypeCheck_map_buf items
    · calc
        items = bufferItems (items.map .buf) := (bufferItems_map_buf items).symm
        List.Perm _ (bufferItems list') := permuted.filterMap _

theorem ReorderedPolicy.lists {entry entry' : GglMap} {operations resources : List Buffer}
    (lookups : ∀ key, Option.Rel ReorderedList (gglMapGet entry key) (gglMapGet entry' key))
    (lists : PolicyLists entry operations resources) :
    ∃ operations' resources', PolicyLists entry' operations' resources' ∧
      operations.Perm operations' ∧ resources.Perm resources' := by
  have buffers : ∀ {key : Buffer} {items : List Buffer},
      gglMapGet entry key = some (.list (items.map .buf)) →
      ∃ items' : List Buffer,
        gglMapGet entry' key = some (.list (items'.map .buf)) ∧ items.Perm items' := by
    intro key items found
    have related := lookups key
    rw [found] at related
    generalize gglMapGet entry' key = found' at related
    cases related with
    | some related =>
      rcases related.buffers with ⟨items', rfl, permuted⟩
      exact ⟨items', rfl, permuted⟩
  rcases buffers lists.1 with ⟨operations', operationsFound, operationsPermuted⟩
  rcases buffers lists.2 with ⟨resources', resourcesFound, resourcesPermuted⟩
  exact ⟨operations', resources', ⟨operationsFound, resourcesFound⟩, operationsPermuted,
    resourcesPermuted⟩

theorem ReorderedPolicy.grants (same : ReorderedPolicy pair pair')
    (granted : Grants pair.2 operation resource) : Grants pair'.2 operation resource := by
  rcases same with ⟨entry, entry', isMap, isMap', lookups⟩
  rcases granted with ⟨granting, operations, resources, isGranting, lists, listed, pattern, member,
    word⟩
  cases isMap.symm.trans isGranting
  rcases ReorderedPolicy.lists lookups lists with
    ⟨operations', resources', lists', operationsPermuted, resourcesPermuted⟩
  exact ⟨entry', operations', resources', isMap', lists', operationsPermuted.mem_iff.mp listed,
    pattern, resourcesPermuted.mem_iff.mp member, word⟩

theorem ReorderedPolicy.patternsNonzero (same : ReorderedPolicy pair pair')
    (nonzero : PatternsNonzero pair.2) : PatternsNonzero pair'.2 := by
  rcases same.symm with ⟨entry', entry, isMap', isMap, lookups⟩
  intro other operations' resources' isOther lists' pattern member
  cases isMap'.symm.trans isOther
  rcases ReorderedPolicy.lists lookups lists' with
    ⟨operations, resources, lists, _, resourcesPermuted⟩
  exact nonzero entry operations resources isMap lists pattern
    (resourcesPermuted.mem_iff.mp member)

theorem exists_reorderedPolicy (related : List.Forall₂ ReorderedPolicy policies policies')
    (member : pair ∈ policies) : ∃ pair' ∈ policies', ReorderedPolicy pair pair' := by
  induction related with
  | nil => cases member
  | cons same _ ih =>
    rcases mem_cons.mp member with rfl | later
    · exact ⟨_, mem_cons_self, same⟩
    · rcases ih later with ⟨pair', found, same⟩
      exact ⟨pair', mem_cons_of_mem _ found, same⟩

/-- Every policy of the one order has its counterpart in the other. -/
theorem Reordered.counterpart (same : Reordered policies policies') (member : pair ∈ policies) :
    ∃ pair' ∈ policies', ReorderedPolicy pair pair' := by
  rcases same with ⟨middle, permuted, related⟩
  exact exists_reorderedPolicy related (permuted.mem_iff.mp member)

theorem Reordered.counterpart_symm (same : Reordered policies policies')
    (member : pair' ∈ policies') : ∃ pair ∈ policies, ReorderedPolicy pair pair' := by
  rcases same with ⟨middle, permuted, related⟩
  have flipped : List.Forall₂ ReorderedPolicy policies' middle :=
    related.flip.imp fun _ _ same => ReorderedPolicy.symm same
  rcases exists_reorderedPolicy flipped member with ⟨pair, found, same⟩
  exact ⟨pair, permuted.mem_iff.mpr found, same.symm⟩

theorem Reordered.grants_iff (same : Reordered policies policies') :
    (∃ pair ∈ policies', Grants pair.2 operation resource) ↔
      ∃ pair ∈ policies, Grants pair.2 operation resource := by
  constructor
  · rintro ⟨pair', member, granted⟩
    rcases same.counterpart_symm member with ⟨pair, found, same⟩
    exact ⟨pair, found, same.symm.grants granted⟩
  · rintro ⟨pair, member, granted⟩
    rcases same.counterpart member with ⟨pair', found, same⟩
    exact ⟨pair', found, same.grants granted⟩

/-- A policy with a star, a quotation and two operations. -/
def examplePolicy : GglMap :=
  [(gglStr "operations", .list [.buf (gglStr "read"), .buf (gglStr "write")]),
    (gglStr "resources", .list [.buf (gglStr "a*"), .buf (gglStr "$\x7b*\x7d/*")])]

theorem examplePolicy_lists : PolicyLists examplePolicy [gglStr "read", gglStr "write"]
    [gglStr "a*", gglStr "$\x7b*\x7d/*"] :=
  ⟨rfl, rfl⟩

theorem examplePolicy_patternsNonzero : PatternsNonzero (.map examplePolicy) := by
  intro entry operations resources isMap lists pattern member
  cases isMap
  have same := lists.2.symm.trans examplePolicy_lists.2
  have resourcesEq : resources = [gglStr "a*", gglStr "$\x7b*\x7d/*"] := by
    rw [← bufferItems_map_buf resources, GglObject.list.inj (Option.some.inj same),
      bufferItems_map_buf]
  rw [resourcesEq] at member
  revert pattern
  decide

end Decision

end Policies

end GreengrassLite

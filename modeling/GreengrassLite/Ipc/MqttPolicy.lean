import GreengrassLite.Ipc.Authz
import GreengrassLite.Ipc.TopicFilter

/-!
# Policies for topics of AWS IoT Core

`ggl_ipc_mqtt_policy_matcher` of `ggipcd/src/services/mqttproxy/mqttproxy.c` grants
a topic that matches the resource of a policy as a glob or as a topic filter.  The
glob is matched first, and unescapes the resource in place, so the filter is what
the glob has left: the unescaped bytes with a zero byte for every star, and behind
them the end of the resource as it was.

The matcher is the disjunction of the two matches of the resource itself where
unescaping changes no byte the filter reads, that is none before the first `#`, and
where the resource has no wildcards of filters and no quotations: what is left of
it then is a word of the glob, as the resource itself is.
-/

namespace GreengrassLite

open Library

/-- `ggl_ipc_mqtt_policy_matcher`, with the bytes of the policy it leaves behind. -/
def gglIpcMqttPolicyMatcher : PolicyResourceMatcher := fun requestResource policyResource =>
  let (matched, left) := gglIpcDefaultPolicyMatcher requestResource policyResource
  (matched || matchTopicFilter requestResource left, left)

/-- The resource after it was unescaped in place: the tokens of the glob, and the bytes that
were not written over. -/
def unescapedInPlace (policyResource : Buffer) : Buffer :=
  (patternGlob false policyResource).map tokenByte ++
    policyResource.drop (patternGlob false policyResource).length

section Unescape

/-- What unescaping does to the bytes and to the position written. -/
structure Unescapes (data : Buffer) (writePos : Nat) (result : Buffer × Nat) : Prop where
  length : result.1.length = data.length
  forward : writePos ≤ result.2
  inside : result.2 ≤ data.length
  behind : result.1.drop result.2 = data.drop result.2

variable {data : Buffer} {position writePos fuel : Nat} {quoted : Bool}

/-- A byte is written before the loop goes on. -/
theorem Unescapes.write {result : Buffer × Nat} {byte : UInt8}
    (unescapes : Unescapes (data.set writePos byte) (writePos + 1) result) :
    Unescapes data writePos result where
  length := unescapes.length.trans List.length_set
  forward := Nat.le_of_succ_le unescapes.forward
  inside := by
    have inside := unescapes.inside
    rwa [List.length_set] at inside
  behind := unescapes.behind.trans (List.drop_set_of_lt unescapes.forward)

theorem unescapeLoop_unescapes (behind : writePos ≤ position) (inside : writePos ≤ data.length) :
    Unescapes data writePos (unescapeLoop fuel data position writePos quoted) := by
  have done : Unescapes data writePos (data, writePos) := ⟨rfl, Nat.le_refl _, inside, rfl⟩
  induction fuel generalizing data position writePos quoted with
  | zero => exact done
  | succ fuel ih =>
    cases read : data[position]? with
    | none =>
      rw [unescapeLoop, read]
      exact done
    | some byte =>
      have further : position < data.length := (List.getElem?_eq_some_iff.mp read).1
      have skips : ∀ (next : Nat) (quoted : Bool), position ≤ next →
          Unescapes data writePos (unescapeLoop fuel data next writePos quoted) :=
        fun next quoted ahead => ih (Nat.le_trans behind ahead) inside done
      have writes : ∀ (written : UInt8) (quoted : Bool), Unescapes data writePos
          (unescapeLoop fuel (data.set writePos written) (position + 1) (writePos + 1)
            quoted) := by
        intro written quoted
        have room : writePos + 1 ≤ (data.set writePos written).length := by
          rw [List.length_set]
          omega
        exact (ih (Nat.succ_le_succ behind) room ⟨rfl, Nat.le_refl _, room, rfl⟩).write
      rw [unescapeLoop, read]
      dsimp only
      split_ifs
      · exact skips _ _ (Nat.le_succ _)
      · exact writes _ _
      · exact writes _ _
      · exact skips _ _ (Nat.le_add_right _ _)
      · exact writes _ _

end Unescape

/-- What the default matcher leaves of a policy. -/
@[simp]
theorem gglIpcDefaultPolicyMatcher_left (request policy : Buffer) :
    (gglIpcDefaultPolicyMatcher request policy).2 = unescapedInPlace policy := by
  have written := @unescapeLoop_spec policy 0 0 policy.length false (Nat.le_refl 0) (by omega)
  have unescapes : Unescapes policy 0 (unescapeLoop policy.length policy 0 0 false) :=
    unescapeLoop_unescapes (Nat.le_refl 0) (Nat.zero_le _)
  rw [List.take_zero, List.nil_append, List.drop_zero] at written
  have length := congrArg List.length written
  rw [List.length_take, unescapes.length, Nat.min_eq_left unescapes.inside,
    List.length_map] at length
  change (unescapeLoop policy.length policy 0 0 false).1 = _
  rw [← List.take_append_drop (unescapeLoop policy.length policy 0 0 false).2
    (unescapeLoop policy.length policy 0 0 false).1, written, unescapes.behind, length,
    unescapedInPlace]

/-! ## Policies whose filter is kept -/

/-- A quotation opens at this byte. -/
def OpensQuotation (byte : UInt8) (rest : Buffer) : Prop :=
  byte = dollarByte ∧ rest.head? = some openBrace

/-- Before the first `#` there is neither a star nor a quotation. -/
def KeepsFilter : Buffer → Prop
  | [] => True
  | byte :: rest =>
    byte = multiLevel ∨ byte ≠ starByte ∧ ¬OpensQuotation byte rest ∧ KeepsFilter rest

/-- There are no wildcards of filters and no quotations. -/
def NoWildcards : Buffer → Prop
  | [] => True
  | byte :: rest =>
    byte ≠ singleLevel ∧ byte ≠ multiLevel ∧ ¬OpensQuotation byte rest ∧ NoWildcards rest

section Kept

variable {byte : UInt8} {rest policy request : Buffer}

theorem patternGlob_cons (notStar : byte ≠ starByte) (unquoted : ¬OpensQuotation byte rest) :
    patternGlob false (byte :: rest) = .letter byte :: patternGlob false rest := by
  rw [patternGlob.eq_def]
  cases rest with
  | nil => simp [notStar, patternGlob]
  | cons next rest =>
    have other : ¬(byte = dollarByte ∧ next = openBrace) := by
      simpa [OpensQuotation] using unquoted
    simp [notStar, other]

theorem unescapedInPlace_cons (notStar : byte ≠ starByte) (unquoted : ¬OpensQuotation byte rest) :
    unescapedInPlace (byte :: rest) = byte :: unescapedInPlace rest := by
  simp [unescapedInPlace, patternGlob_cons notStar unquoted, tokenByte]

/-- The filter does not read what was changed. -/
theorem matchTopicFilter_unescapedInPlace (keeps : KeepsFilter policy) :
    matchTopicFilter request (unescapedInPlace policy) = matchTopicFilter request policy := by
  induction policy generalizing request with
  | nil => rfl
  | cons byte rest ih =>
    rcases keeps with rfl | ⟨notStar, unquoted, keeps⟩
    · rw [unescapedInPlace_cons (by decide) fun opens => absurd opens.1 (by decide)]
      rfl
    · rw [unescapedInPlace_cons notStar unquoted]
      simp only [matchTopicFilter, ih keeps]

/-- How the glob takes a byte outside of quotations: a zero byte is a star as well. -/
def wildToken (byte : UInt8) : GlobToken UInt8 :=
  if byte = starByte ∨ byte = 0 then .star else .letter byte

theorem map_tokenByte_patternGlob (plain : NoWildcards policy) :
    (patternGlob false policy).map tokenByte = (policy.map wildToken).map tokenByte := by
  induction policy with
  | nil => rfl
  | cons byte rest ih =>
    obtain ⟨-, -, unquoted, plain⟩ := plain
    by_cases isStar : byte = starByte
    · rw [patternGlob.eq_def]
      simp [isStar, wildToken, ih plain]
    · rw [patternGlob_cons isStar unquoted, List.map_cons, ih plain]
      by_cases zero : byte = 0 <;> simp [isStar, zero, wildToken, tokenByte]

/-- What a filter without wildcards matches, letter by letter but for the stars, is a word of
the glob. -/
theorem mem_globWords_of_matchTopicFilter {replaced : UInt8 → UInt8}
    (same : ∀ byte, wildToken byte = .letter byte → replaced byte = byte)
    (literal : ∀ byte, byte ≠ singleLevel → byte ≠ multiLevel →
      replaced byte ≠ singleLevel ∧ replaced byte ≠ multiLevel)
    (plain : NoWildcards policy)
    (matched : matchTopicFilter request (policy.map replaced) = true) :
    request ∈ globWords (policy.map wildToken) := by
  induction policy generalizing request with
  | nil =>
    have empty : request = [] := of_decide_eq_true matched
    exact empty
  | cons byte rest ih =>
    obtain ⟨notSingle, notMulti, -, plain⟩ := plain
    obtain ⟨newSingle, newMulti⟩ := literal byte notSingle notMulti
    cases request with
    | nil =>
      rw [List.map_cons, matchTopicFilter_byte_nil newSingle newMulti] at matched
      cases matched
    | cons first request =>
      rw [List.map_cons, matchTopicFilter_byte newSingle newMulti, Bool.and_eq_true,
        decide_eq_true_eq] at matched
      have member := ih plain matched.2
      by_cases wild : byte = starByte ∨ byte = 0
      · rw [List.map_cons, wildToken, if_pos wild]
        exact ⟨request, member, List.suffix_cons _ _⟩
      · rw [List.map_cons, wildToken, if_neg wild]
        exact ⟨request, member, by rw [← matched.1, same byte (if_neg wild)]⟩

theorem gglIpcDefaultPolicyMatcher_of_noWildcards (plain : NoWildcards policy)
    (member : request ∈ globWords (policy.map wildToken)) :
    (gglIpcDefaultPolicyMatcher request policy).1 = true := by
  rw [gglIpcDefaultPolicyMatcher_eq, map_tokenByte_patternGlob plain, matchSegments_iff]
  · exact member
  · rintro _ letter rfl
    obtain ⟨byte, -, zero⟩ := List.mem_map.mp letter
    rw [wildToken] at zero
    split at zero <;> simp_all

end Kept

end GreengrassLite

import GreengrassLite.Core.Vector
import GreengrassLite.Library.JsonText

/-!
# The question to the cloud

`resolve_component_with_cloud` asks the cloud for a version of a component.  The
body of the request is put together in a static buffer of 2048 bytes, by appends
whose common error is lost, and the name and the requirement are copied into it as
they are.  What does not fit is left out, with the bytes of an earlier request
behind it, and the request is made all the same.

The body asks for what was given exactly when it fits and neither string has a
character that JSON escapes.
-/

namespace GreengrassLite.Deployment

open Library List

/-! ## The request -/

/-- `sizeof(resolve_candidates_body_buf)`. -/
def bodySize : Nat :=
  2048

/-- The static buffer of the body. -/
structure BodyMemory where
  bytes : Buffer
  size : bytes.length = bodySize

/-- The buffer once the vector over it has been filled. -/
def BodyMemory.fill (memory : BodyMemory) (vector : Vec UInt8 bodySize) : BodyMemory where
  bytes := vector.items ++ memory.bytes.drop vector.items.length
  size := by
    have bounded := vector.bounded
    rw [length_append, length_drop, memory.size]
    omega

@[simp]
theorem BodyMemory.fill_bytes (memory : BodyMemory) (vector : Vec UInt8 bodySize) :
    (memory.fill vector).bytes = vector.items ++ memory.bytes.drop vector.items.length :=
  rfl

/-! The literals of the body, in their order -/

def candidatesOpen : String :=
  "\x7b\"componentCandidates\": ["

def nameOpen : String :=
  "\x7b\"componentName\": \""

def requirementsOpen : String :=
  "\",\"versionRequirements\": \x7b\"requirements\": \""

def candidateClose : String :=
  "\"\x7d\x7d"

def platform : String :=
  "],\"platform\": \x7b \"attributes\": \x7b \"os\" : \"linux\", " ++
    "\"runtime\" : \"aws_nucleus_lite\" " ++ "\x7d,\"name\": \"linux\"\x7d\x7d"

/-- What is appended to the body. -/
def bodyPieces (componentName componentRequirements : Buffer) : List Buffer :=
  [gglStr candidatesOpen, gglStr nameOpen, componentName, gglStr requirementsOpen,
    componentRequirements, gglStr candidateClose, gglStr platform]

/-- `generate_resolve_component_candidates_body`.  The error of the chain is not returned. -/
def generateResolveComponentCandidatesBody (componentName componentRequirements : Buffer)
    (bodyVec : Vec UInt8 bodySize) : Except GglError Unit × Vec UInt8 bodySize :=
  let chain := gglByteVecChain bodyVec (bodyPieces componentName componentRequirements ++ [[0]])
  (.ok (), chain.2)

/-- The arguments of `gg_dataplane_call`; the body is the memory behind its pointer. -/
structure DataplaneCall where
  endpoint : Buffer
  port : Buffer
  uriPath : Buffer
  certPath : Buffer
  rootcaPath : Buffer
  pkeyPath : Buffer
  body : Buffer

/-- The configuration that is read for a request, and the cloud. -/
structure DataplaneAccess where
  getDataEndpoint : Except GglError Buffer
  getRegion : Except GglError Buffer
  getDataPort : Except GglError Buffer
  getPrivateKeyPath : Except GglError Buffer
  getCertPath : Except GglError Buffer
  getRootcaPath : Except GglError Buffer
  ggDataplaneCall : DataplaneCall → Except GglError Buffer

def DataplaneAccess.prepare (access : DataplaneAccess) (body : Buffer) :
    Except GglError DataplaneCall := do
  let endpoint ← access.getDataEndpoint
  let _ ← access.getRegion
  let port ← access.getDataPort
  let pkeyPath ← access.getPrivateKeyPath
  let certPath ← access.getCertPath
  let rootcaPath ← access.getRootcaPath
  pure ⟨endpoint, port, gglStr "greengrass/v2/resolveComponentCandidates", certPath, rootcaPath,
    pkeyPath, body⟩

/-- The calls made, the answer, and the buffer of the body afterwards. -/
structure Resolved where
  calls : List DataplaneCall
  answer : Except GglError Buffer
  memory : BodyMemory

/-- `resolve_component_with_cloud`. -/
def resolveComponentWithCloud (access : DataplaneAccess) (memory : BodyMemory)
    (componentName versionRequirements : Buffer) : Resolved :=
  match generateResolveComponentCandidatesBody componentName versionRequirements
      (Vec.empty UInt8 bodySize) with
  | (.error error, bodyVec) => ⟨[], .error error, memory.fill bodyVec⟩
  | (.ok (), bodyVec) =>
    match access.prepare (memory.fill bodyVec).bytes with
    | .error error => ⟨[], .error error, memory.fill bodyVec⟩
    | .ok call => ⟨[call], access.ggDataplaneCall call, memory.fill bodyVec⟩

/-- The buffer as it can be when a request is made: zero at first, and then what the requests
before have left. -/
inductive BodyMemory.Reached : BodyMemory → Prop
  | fresh : Reached ⟨replicate bodySize 0, length_replicate⟩
  | next {memory} (access : DataplaneAccess)
      (componentName versionRequirements : Buffer) : Reached memory →
      Reached (resolveComponentWithCloud access memory componentName versionRequirements).memory

/-! ## What is asked -/

/-- The one value of a key. -/
def HasOnly (members : List (List Char × JsonValue)) (key : String) (value : JsonValue) : Prop :=
  (key.toList, value) ∈ members ∧ ∀ other, (key.toList, other) ∈ members → other = value

/-- A request for one candidate, with this name and this requirement. -/
def RequestsCandidate (value : JsonValue) (name requirement : List Char) : Prop :=
  ∃ members candidate requirements, value = .object members ∧
    HasOnly members "componentCandidates" (.array [.object candidate]) ∧
    HasOnly candidate "componentName" (.string name) ∧
    HasOnly candidate "versionRequirements" (.object requirements) ∧
    HasOnly requirements "requirements" (.string requirement)

/-- The body ends with a NUL byte, and the text before it is the JSON text of a request for the
given strings. -/
def Asks (body componentName versionRequirements : Buffer) : Prop :=
  ∃ text behind value name requirement, body = text ++ 0 :: behind ∧ 0 ∉ text ∧
    IsJsonText text value ∧ RequestsCandidate value name requirement ∧
    utf8 name = componentName ∧ utf8 requirement = versionRequirements

/-- An error without a call, or a call that asks for the given strings. -/
def Resolved.Faithful (resolved : Resolved) (componentName versionRequirements : Buffer) : Prop :=
  (resolved.calls = [] ∧ ∃ error, resolved.answer = .error error) ∨
    ∃ call, resolved.calls = [call] ∧ Asks call.body componentName versionRequirements

/-- UTF-8 in which every character stands for itself in a JSON string. -/
def NothingToEscape (bytes : Buffer) : Prop :=
  ∃ chars, utf8 chars = bytes ∧ ∀ c ∈ chars, Unescaped c

/-! ## The text of the body -/

/-- Characters in quotes, and what follows. -/
def quoted (chars rest : List Char) : List Char :=
  '"' :: (chars ++ '"' :: rest)

/-- The last pair of the body and its closing brace. -/
def platformChars : List Char :=
  quoted "platform".toList (':' :: ' ' :: '{' :: ' ' ::
    quoted "attributes".toList (':' :: ' ' :: '{' :: ' ' ::
      quoted "os".toList (' ' :: ':' :: ' ' :: quoted "linux".toList (',' :: ' ' ::
        quoted "runtime".toList (' ' :: ':' :: ' ' :: quoted "aws_nucleus_lite".toList
          (' ' :: '}' :: ',' ::
            quoted "name".toList (':' :: ' ' :: quoted "linux".toList ['}', '}'])))))))

/-- The characters of the body. -/
def bodyChars (name requirement : List Char) : List Char :=
  '{' :: quoted "componentCandidates".toList (':' :: ' ' :: '[' :: '{' ::
    quoted "componentName".toList (':' :: ' ' :: quoted name (',' ::
      quoted "versionRequirements".toList (':' :: ' ' :: '{' ::
        quoted "requirements".toList (':' :: ' ' :: quoted requirement
          ('}' :: '}' :: ']' :: ',' :: platformChars))))))

theorem utf8_toList {literal : String}
    (ascii : (literal.toList.all fun c => c.toNat < 128) = true) :
    utf8 literal.toList = gglStr literal :=
  utf8_of_ascii ascii

theorem bodyChars_eq (name requirement : List Char) :
    bodyChars name requirement =
      candidatesOpen.toList ++ (nameOpen.toList ++ (name ++ (requirementsOpen.toList ++
        (requirement ++ (candidateClose.toList ++ platform.toList))))) := by
  have candidates : candidatesOpen.toList =
      '{' :: quoted "componentCandidates".toList [':', ' ', '['] := by
    decide +kernel
  have opened : nameOpen.toList = '{' :: quoted "componentName".toList [':', ' ', '"'] := by
    decide +kernel
  have requirements : requirementsOpen.toList =
      '"' :: ',' :: quoted "versionRequirements".toList (':' :: ' ' :: '{' ::
        quoted "requirements".toList [':', ' ', '"']) := by
    decide +kernel
  have closed : candidateClose.toList = ['"', '}', '}'] := by
    decide +kernel
  have last : platform.toList = ']' :: ',' :: platformChars := by
    decide +kernel
  rw [candidates, opened, requirements, closed, last]
  simp only [bodyChars, quoted, append_assoc, cons_append, nil_append]

theorem utf8_bodyChars (name requirement : List Char) :
    utf8 (bodyChars name requirement) = (bodyPieces (utf8 name) (utf8 requirement)).flatten := by
  rw [bodyChars_eq]
  simp only [bodyPieces, utf8_append, flatten_cons, flatten_nil, append_nil]
  rw [utf8_toList, utf8_toList, utf8_toList, utf8_toList, utf8_toList] <;> decide +kernel

/-! ## A body with nothing to escape -/

/-- The value of the last pair. -/
def platformValue : JsonValue :=
  .object [("attributes".toList, .object [("os".toList, .string "linux".toList),
      ("runtime".toList, .string "aws_nucleus_lite".toList)]),
    ("name".toList, .string "linux".toList)]

/-- The value of the body. -/
def bodyValue (name requirement : List Char) : JsonValue :=
  .object [("componentCandidates".toList, .array [.object [("componentName".toList, .string name),
      ("versionRequirements".toList,
        .object [("requirements".toList, .string requirement)])]]),
    ("platform".toList, platformValue)]

section Derivations

variable {key chars text after behind rest : List Char} {value : JsonValue}

theorem derives_pair (plain : AllUnescaped key) (quote : skipBlanks text = quoted key after)
    (colon : skipBlanks after = ':' :: behind)
    (derives : Derives (.value value) (skipBlanks behind) rest) :
    Derives (.pair key value) text rest :=
  .pair quote (.of_unescaped plain) colon derives

theorem derives_string_pair (plain : AllUnescaped key)
    (charsPlain : AllUnescaped chars) (quote : skipBlanks text = quoted key after)
    (colon : skipBlanks after = ':' :: ' ' :: quoted chars rest) :
    Derives (.pair key (.string chars)) text rest :=
  derives_pair plain quote colon (.string (.of_unescaped charsPlain))

theorem derives_platform :
    Derives (.members [("platform".toList, platformValue)]) platformChars [] := by
  have attributes : ∀ rest, Derives (.value (.object [("os".toList, .string "linux".toList),
      ("runtime".toList, .string "aws_nucleus_lite".toList)]))
      ('{' :: ' ' :: quoted "os".toList (' ' :: ':' :: ' ' :: quoted "linux".toList (',' :: ' ' ::
        quoted "runtime".toList (' ' :: ':' :: ' ' :: quoted "aws_nucleus_lite".toList
          (' ' :: '}' :: rest))))) rest := by
    intro rest
    apply Derives.object
    apply Derives.member
    · exact derives_string_pair (by decide) (by decide) rfl rfl
    · rfl
    apply Derives.lastMember
    · exact derives_string_pair (by decide) (by decide) rfl rfl
    · rfl
  apply Derives.lastMember
  · apply derives_pair (by decide) rfl rfl
    apply Derives.object
    apply Derives.member
    · exact derives_pair (by decide) rfl rfl (attributes _)
    · rfl
    apply Derives.lastMember
    · exact derives_string_pair (by decide) (by decide) rfl rfl
    · rfl
  · rfl

/-- A body whose strings have nothing to escape is the text of its value. -/
theorem derives_body {name requirement : List Char} (namePlain : AllUnescaped name)
    (requirementPlain : AllUnescaped requirement) :
    Derives (.value (bodyValue name requirement)) (bodyChars name requirement) [] := by
  have candidate : ∀ rest, Derives (.value (.object [("componentName".toList, .string name),
      ("versionRequirements".toList, .object [("requirements".toList, .string requirement)])]))
      ('{' :: quoted "componentName".toList (':' :: ' ' :: quoted name (',' ::
        quoted "versionRequirements".toList (':' :: ' ' :: '{' ::
          quoted "requirements".toList (':' :: ' ' :: quoted requirement
            ('}' :: '}' :: rest)))))) rest := by
    intro rest
    apply Derives.object
    apply Derives.member
    · exact derives_string_pair (by decide) namePlain rfl rfl
    · rfl
    apply Derives.lastMember
    · apply derives_pair (by decide) rfl rfl
      apply Derives.object
      apply Derives.lastMember
      · exact derives_string_pair (by decide) requirementPlain rfl rfl
      · rfl
    · rfl
  apply Derives.object
  apply Derives.member
  · apply derives_pair (by decide) rfl rfl
    apply Derives.array
    exact .lastElement (candidate _) rfl
  · rfl
  · exact derives_platform

/-! ## A body that is understood -/

theorem rest_of_quoted (plain : AllUnescaped chars)
    (derives : Derives (.value value) (quoted chars behind) rest) : rest = behind := by
  rcases derives.of_quote with ⟨_, -, read⟩
  exact (read.eq_of_unescaped plain).2

/-- The platform is read to its end. -/
theorem rest_of_platform {pairs : List (List Char × JsonValue)}
    (derives : Derives (.members pairs) platformChars rest) : rest = [] := by
  rcases derives.first_member (by decide) rfl rfl with ⟨_, _, _, -, object, ending⟩
  rcases object.of_brace rfl (by decide) with ⟨_, -, members⟩
  rcases members.first_member (by decide) rfl rfl with ⟨_, _, _, -, attributes, goesOn⟩
  rcases attributes.of_brace rfl (by decide) with ⟨_, -, inner⟩
  rcases inner.first_member (by decide) rfl rfl with ⟨_, _, _, -, os, more⟩
  cases rest_of_quoted (by decide) os
  rcases (more.more rfl).first_member (by decide) rfl rfl with ⟨_, _, _, -, runtime, closed⟩
  cases rest_of_quoted (by decide) runtime
  cases closed.closed rfl
  rcases (goesOn.more rfl).first_member (by decide) rfl rfl with ⟨_, _, _, -, name, closed⟩
  cases rest_of_quoted (by decide) name
  cases closed.closed rfl
  exact ending.closed rfl

/-- A body that is read as a request for the strings in it has nothing to escape in them, and is
read to its end. -/
theorem unescaped_of_derives {name requirement : List Char}
    (derives : Derives (.value value) (bodyChars name requirement) rest)
    (requests : RequestsCandidate value name requirement) :
    AllUnescaped name ∧ AllUnescaped requirement ∧ rest = [] := by
  -- A string that swallowed its closing quote would end with a comma.
  have ends : ∀ {front tail : List Char}, AllUnescaped (front ++ [',']) →
      ∀ {chars rest : List Char}, StringChars (front ++ [','] ++ '"' :: tail) chars rest →
        chars.getLast? ≠ some '\\' := by
    intro front tail plain chars rest read
    rw [(read.eq_of_unescaped plain).1, getLast?_concat]
    decide
  rcases requests with ⟨members, candidate, requirements, rfl, ⟨-, candidates⟩, ⟨-, named⟩,
    ⟨-, versions⟩, ⟨-, required⟩⟩
  rcases derives.of_brace rfl (by decide) with ⟨_, same, derives⟩
  cases same
  rcases derives.first_member (by decide) rfl rfl with ⟨_, _, _, rfl, array, more⟩
  cases candidates _ mem_cons_self
  rcases array.of_bracket with ⟨_, object, closed⟩
  rcases object.of_brace rfl (by decide) with ⟨_, same, derives⟩
  cases same
  rcases derives.first_member (by decide) rfl rfl with ⟨_, _, _, rfl, string, second⟩
  cases named _ mem_cons_self
  rcases string.of_quote with ⟨_, same, read⟩
  cases same
  obtain ⟨namePlain, rfl⟩ := read.unescaped_of_same (@ends [] _ (by decide))
  rcases (second.more rfl).first_member (by decide) rfl rfl with ⟨_, _, _, rfl, object, closing⟩
  cases versions _ (mem_cons_of_mem _ mem_cons_self)
  rcases object.of_brace rfl (by decide) with ⟨_, same, derives⟩
  cases same
  rcases derives.first_member (by decide) rfl rfl with ⟨_, _, _, rfl, string, closingInner⟩
  cases required _ mem_cons_self
  rcases string.of_quote with ⟨_, same, read⟩
  cases same
  obtain ⟨requirementPlain, rfl⟩ := read.unescaped_of_same (@ends ['}', '}', ']'] _ (by decide))
  cases closingInner.closed rfl
  cases closing.closed rfl
  cases closed
  exact ⟨namePlain, requirementPlain, rest_of_platform (more.more rfl)⟩

end Derivations

/-! ## The buffer -/

section Buffer

variable {componentName versionRequirements text : Buffer}

/-- Of a beginning of the body, only the whole can be understood. -/
theorem eq_body_of_isJsonText {value : JsonValue} {name requirement : List Char}
    (isName : utf8 name = componentName) (isRequirement : utf8 requirement = versionRequirements)
    (front : text <+: (bodyPieces componentName versionRequirements).flatten)
    (isText : IsJsonText text value) (requests : RequestsCandidate value name requirement) :
    text = (bodyPieces componentName versionRequirements).flatten ∧
      NothingToEscape componentName ∧ NothingToEscape versionRequirements := by
  subst isName isRequirement
  rw [← utf8_bodyChars] at front ⊢
  rcases isText with ⟨chars, rest, rfl, derives, -⟩
  rcases front with ⟨bytes, encoded⟩
  rcases prefix_of_utf8 encoded with ⟨extra, whole⟩
  -- The derivation goes over to the whole body, and there it leaves nothing.
  have derivesAll := derives.append extra
  rw [← skipBlanks_append extra derives.ne_nil, whole] at derivesAll
  rcases unescaped_of_derives derivesAll requests with ⟨namePlain, requirementPlain, nothing⟩
  rw [(append_eq_nil_iff.mp nothing).2, append_nil] at whole
  rw [whole]
  exact ⟨rfl, ⟨name, rfl, namePlain⟩, ⟨requirement, rfl, requirementPlain⟩⟩

theorem zero_notMem_of_nothingToEscape {bytes : Buffer} (plain : NothingToEscape bytes) :
    0 ∉ bytes := by
  rcases plain with ⟨chars, rfl, plain⟩
  apply zero_notMem_utf8
  intro c inside zero
  have printable := (plain c inside).1
  rw [zero] at printable
  cases printable

theorem zero_notMem_body (name : 0 ∉ componentName) (requirement : 0 ∉ versionRequirements) :
    0 ∉ (bodyPieces componentName versionRequirements).flatten := by
  have literals : 0 ∉ gglStr candidatesOpen ∧ 0 ∉ gglStr nameOpen ∧ 0 ∉ gglStr requirementsOpen ∧
      0 ∉ gglStr candidateClose ∧ 0 ∉ gglStr platform := by
    decide +kernel
  simp [bodyPieces, literals, name, requirement]

/-- The vector of the body after `generate_resolve_component_candidates_body`. -/
def bodyVector (componentName versionRequirements : Buffer) : Vec UInt8 bodySize :=
  (generateResolveComponentCandidatesBody componentName versionRequirements
    (Vec.empty UInt8 bodySize)).2

/-- A body that fits is there with its NUL byte, whatever was in the buffer. -/
theorem fill_of_fits (memory : BodyMemory)
    (fits : (bodyPieces componentName versionRequirements).flatten.length < bodySize) :
    ∃ behind, (memory.fill (bodyVector componentName versionRequirements)).bytes =
      (bodyPieces componentName versionRequirements).flatten ++ 0 :: behind := by
  rcases gglByteVecChain_cases (Vec.empty UInt8 bodySize)
    (bodyPieces componentName versionRequirements ++ [[0]]) with
    ⟨-, all⟩ | ⟨done, buf, rest, split, -, -, full⟩
  · refine ⟨memory.bytes.drop (bodyVector componentName versionRequirements).items.length, ?_⟩
    rw [append_cons]
    refine congrArg (· ++ _) ?_
    rw [flatten_append] at all
    exact all
  · -- what does not fit would have to be longer than all of it
    have lengths := congrArg (fun bufs : List Buffer => bufs.flatten.length) split
    simp only [flatten_append, flatten_cons, flatten_nil, length_append,
      length_cons, length_nil, Vec.empty_items, nil_append] at lengths full
    omega

/-- In a new buffer, zeros stand behind a beginning of the body. -/
theorem fill_fresh (componentName versionRequirements : Buffer) {memory : BodyMemory}
    (fresh : memory.bytes = replicate bodySize 0) :
    ∃ written zeros, (memory.fill (bodyVector componentName versionRequirements)).bytes =
        written ++ replicate zeros 0 ∧
      written <+: (bodyPieces componentName versionRequirements).flatten := by
  have dropped : ∀ count, memory.bytes.drop count = replicate (bodySize - count) 0 := by
    intro count
    rw [fresh, drop_replicate]
  rcases gglByteVecChain_cases (Vec.empty UInt8 bodySize)
    (bodyPieces componentName versionRequirements ++ [[0]]) with
    ⟨-, all⟩ | ⟨done, buf, rest, split, -, kept, -⟩
  · rw [flatten_append] at all
    refine ⟨_, bodySize - (bodyVector componentName versionRequirements).items.length + 1, ?_,
      prefix_rfl⟩
    rw [BodyMemory.fill_bytes, dropped, replicate_succ, append_cons]
    exact congrArg (· ++ _) all
  · refine ⟨done.flatten, bodySize - (bodyVector componentName versionRequirements).items.length,
      ?_, ?_⟩
    · rw [BodyMemory.fill_bytes, dropped]
      exact congrArg (· ++ _) kept
    · -- the buffer that did not fit is one of the body, or its NUL byte
      have before : done <+: bodyPieces componentName versionRequirements := by
        have among : done <+: bodyPieces componentName versionRequirements ++ [[0]] :=
          ⟨buf :: rest, split.symm⟩
        rcases prefix_concat_iff.mp among with whole | before
        · have lengths := congrArg length (split.trans (congrArg (· ++ buf :: rest) whole))
          simp at lengths
        · exact before
      rcases before with ⟨left, same⟩
      exact ⟨left.flatten, by rw [← same, flatten_append]⟩

/-- What stands before the first zero of some bytes and zeros is a beginning of the bytes. -/
theorem prefix_of_zeros {written behind : Buffer} {zeros : Nat} (uncut : 0 ∉ text)
    (same : written ++ replicate zeros 0 = text ++ 0 :: behind) : text <+: written := by
  rcases append_eq_append_iff.mp same with ⟨extra, rfl, split⟩ | ⟨extra, rfl, -⟩
  · cases extra with
    | nil => simp
    | cons byte extra =>
      have isZero : byte ∈ replicate zeros 0 := by
        rw [split]
        exact mem_cons_self
      rw [eq_of_mem_replicate isZero] at uncut
      exact absurd (mem_append_right written mem_cons_self) uncut
  · exact prefix_append text extra

theorem body_of_prepare {access : DataplaneAccess} {body : Buffer} {call : DataplaneCall}
    (prepared : access.prepare body = .ok call) : call.body = body := by
  simp only [DataplaneAccess.prepare, except_bind_eq_ok_iff] at prepared
  rcases prepared with ⟨_, -, _, -, _, -, _, -, _, -, _, -, made⟩
  cases made
  rfl

theorem resolveComponentWithCloud_eq (access : DataplaneAccess) (memory : BodyMemory)
    (componentName versionRequirements : Buffer) :
    resolveComponentWithCloud access memory componentName versionRequirements =
      let filled := memory.fill (bodyVector componentName versionRequirements)
      match access.prepare filled.bytes with
      | .error error => ⟨[], .error error, filled⟩
      | .ok call => ⟨[call], access.ggDataplaneCall call, filled⟩ :=
  rfl

/-- In a new buffer only a body that fits, with nothing to escape, asks for the given strings. -/
theorem fits_of_asks {memory : BodyMemory} (fresh : memory.bytes = replicate bodySize 0)
    (asks : Asks (memory.fill (bodyVector componentName versionRequirements)).bytes componentName
      versionRequirements) :
    (bodyPieces componentName versionRequirements).flatten.length < bodySize ∧
      NothingToEscape componentName ∧ NothingToEscape versionRequirements := by
  rcases asks with ⟨text, behind, value, name, requirement, split, uncut, isText, requests,
    isName, isRequirement⟩
  rcases fill_fresh componentName versionRequirements fresh with ⟨written, zeros, filled, front⟩
  have beginning := prefix_of_zeros uncut (filled.symm.trans split)
  rcases eq_body_of_isJsonText isName isRequirement (beginning.trans front) isText requests with
    ⟨whole, plain⟩
  refine ⟨?_, plain⟩
  have size := (memory.fill (bodyVector componentName versionRequirements)).size
  rw [split, length_append, length_cons] at size
  rw [← whole]
  omega

/-- A body that fits, with nothing to escape, asks for the given strings. -/
theorem asks_of_fits (memory : BodyMemory)
    (fits : (bodyPieces componentName versionRequirements).flatten.length < bodySize)
    (namePlain : NothingToEscape componentName)
    (requirementPlain : NothingToEscape versionRequirements) :
    Asks (memory.fill (bodyVector componentName versionRequirements)).bytes componentName
      versionRequirements := by
  have uncut := zero_notMem_body (zero_notMem_of_nothingToEscape namePlain)
    (zero_notMem_of_nothingToEscape requirementPlain)
  rcases fill_of_fits memory fits with ⟨behind, filled⟩
  rcases namePlain with ⟨name, rfl, namePlain⟩
  rcases requirementPlain with ⟨requirement, rfl, requirementPlain⟩
  refine ⟨_, behind, bodyValue name requirement, name, requirement, filled, uncut, ?_, ?_, rfl, rfl⟩
  · exact ⟨bodyChars name requirement, [], (utf8_bodyChars name requirement).symm,
      derives_body namePlain requirementPlain, rfl⟩
  · refine ⟨_, _, _, rfl, ⟨mem_cons_self, ?_⟩, ⟨mem_cons_self, ?_⟩,
      ⟨mem_cons_of_mem _ mem_cons_self, ?_⟩, ⟨mem_cons_self, ?_⟩⟩
    all_goals
      intro other member
      simpa using member

end Buffer

/-- The cloud is asked for the given strings, or not at all, exactly when the body with its NUL
byte fits into the buffer and neither string has anything to escape. -/
theorem resolveComponentWithCloud_faithful_iff (componentName versionRequirements : Buffer) :
    (∀ (memory : BodyMemory) (access : DataplaneAccess), memory.Reached →
      (resolveComponentWithCloud access memory componentName versionRequirements).Faithful
        componentName versionRequirements) ↔
    (bodyPieces componentName versionRequirements).flatten.length < bodySize ∧
      NothingToEscape componentName ∧ NothingToEscape versionRequirements := by
  constructor
  · intro faithful
    have answered := faithful _
      ⟨.ok [], .ok [], .ok [], .ok [], .ok [], .ok [], fun _ => .ok []⟩ .fresh
    rcases answered with ⟨none, -⟩ | ⟨call, isCall, asks⟩
    · cases none
    · cases isCall
      exact fits_of_asks rfl asks
  · rintro ⟨fits, namePlain, requirementPlain⟩ memory access -
    rw [resolveComponentWithCloud_eq]
    dsimp only
    cases prepared : access.prepare
        (memory.fill (bodyVector componentName versionRequirements)).bytes with
    | error error => exact .inl ⟨rfl, error, rfl⟩
    | ok call =>
      refine .inr ⟨call, rfl, ?_⟩
      rw [body_of_prepare prepared]
      exact asks_of_fits memory fits namePlain requirementPlain

/-- A quote in the name of a component is sent as it is. -/
theorem quoted_name_breaks_body :
    ∃ (memory : BodyMemory) (access : DataplaneAccess) (call : DataplaneCall), memory.Reached ∧
      (resolveComponentWithCloud access memory (gglStr "a\"b") (gglStr "1.0.0")).calls = [call] ∧
      ¬Asks call.body (gglStr "a\"b") (gglStr "1.0.0") := by
  refine ⟨_, ⟨.ok [], .ok [], .ok [], .ok [], .ok [], .ok [], fun _ => .ok []⟩, _, .fresh, rfl, ?_⟩
  intro asks
  have fits := @fits_of_asks (gglStr "a\"b") (gglStr "1.0.0")
    ⟨replicate bodySize 0, length_replicate⟩ rfl asks
  rcases fits.2.1 with ⟨chars, encoded, plain⟩
  have same : utf8 ['a', '"', 'b'] ++ [] = utf8 chars :=
    (utf8_of_ascii (by decide)).trans encoded.symm
  exact absurd rfl (plain '"' ((prefix_of_utf8 same).subset (by decide))).2.1

end GreengrassLite.Deployment

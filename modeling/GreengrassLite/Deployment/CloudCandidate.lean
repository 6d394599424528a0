import GreengrassLite.Deployment.CandidateBody
import GreengrassLite.Deployment.Consistency
import GreengrassLite.Core.Base64
import GreengrassLite.File.Resolve
import GreengrassLite.Json.Decode

/-!
# The candidate of the cloud

The response to a question for a component is decoded, and the recipe in it is
written to the recipe directory.  Most checks of
`parse_dataplane_response_and_save_recipe` answer the variable that holds the
success of the decoding, and the result of the base64 decoding is not looked at.

Here the decoder, the base64 decoder and the file system are those of the other
modules.  The strings of a response lie apart, so the recipe is decoded in place
without a change of the name and of the version.
-/

namespace GreengrassLite.Deployment

open Library List FileM

/-- `ggl_buffer_from_null_term`. -/
def gglBufferFromNullTerm (memory : Buffer) : Buffer :=
  memory.takeWhile (· ≠ 0)

/-- What handling a response depends on. -/
structure CloudEnvironment where
  strtod : Buffer → Option UInt64
  /-- the memory behind the response. -/
  behind : Buffer
  /-- the memory that `args->root_path` points to. -/
  rootPath : Buffer
  workingDirectory : Path
  kernel : Kernel
  /-- the write of the ARN of a component to the configuration. -/
  writeArn : Buffer → Buffer → Except GglError Unit
  /-- what opening a name with a NUL byte does, which system calls take for its end. -/
  openCutName : Path → Buffer → FileM Path

namespace CloudEnvironment

variable (env : CloudEnvironment)

/-- `ggl_json_decode_destructive` into memory for 100 objects. -/
def decodeResponse (response : Buffer) : Except GglError GglObject :=
  match Json.gglJsonDecodeDestructive env.strtod bumpAllocator response.length
      ⟨response ++ env.behind, some (gglBumpAllocInit (100 * objectSize))⟩ with
  | (.error error, _) => .error error
  | (.ok node, state) => .ok (node.load state.memory)

/-- `ggl_file_openat` with any name. -/
def openRecipe (dir : Path) (name : Buffer) : FileM Path :=
  if 0 ∈ name then env.openCutName dir name else gglFileOpenat dir name

/-- The name of a recipe file. -/
def recipeName (name version : Buffer) : List Buffer :=
  [name, gglStr "-", version, gglStr ".yaml"]

def recipeDirectory : List Buffer :=
  [gglBufferFromNullTerm env.rootPath, gglStr "/packages/recipes/"]

/-- The part of the loop of `parse_dataplane_response_and_save_recipe` that saves a recipe. -/
def saveRecipe (component : CloudComponent) : FileM Unit := do
  let recipe := (gglBase64DecodeInPlace component.recipe).2
  let name := gglByteVecChain (Vec.empty UInt8 pathMax)
    (recipeName component.name component.version)
  ofExcept name.1
  let dir := gglByteVecChain (Vec.empty UInt8 pathMax) env.recipeDirectory
  ofExcept dir.1
  let rootDir ← gglDirOpen env.workingDirectory dir.2.items true
  let file ← env.openRecipe rootDir name.2.items
  gglFileWriteBuf file recipe
  ofExcept (env.writeArn component.name component.arn)

/-- A resolution with this decoder and this file system. -/
def context (others : ResolveContext FileSystem) : ResolveContext FileSystem :=
  { others with
    jsonDecode := env.decodeResponse
    saveRecipe := fun fs component => (env.saveRecipe component).run env.kernel fs }

/-- The path of the recipe file of a component. -/
def recipePath (name version : Buffer) : Path :=
  resolve env.workingDirectory (env.recipeDirectory.flatten ++ (recipeName name version).flatten)

end CloudEnvironment

/-! ## Saving a recipe -/

section Saving

variable {env : CloudEnvironment} {component : CloudComponent} {fs fs' : FileSystem}

theorem follow_recipeDirectory (path : Buffer) :
    follow (resolve env.workingDirectory env.recipeDirectory.flatten) path =
      resolve env.workingDirectory (env.recipeDirectory.flatten ++ path) := by
  have slash : env.recipeDirectory.flatten =
      gglBufferFromNullTerm env.rootPath ++ gglStr "/packages/recipes" ++ slashByte :: [] := by
    rw [append_assoc]
    exact congrArg (gglBufferFromNullTerm env.rootPath ++ ·) (append_nil _)
  have head : (gglBufferFromNullTerm env.rootPath ++ gglStr "/packages/recipes" ++
      slashByte :: []).head? = (gglBufferFromNullTerm env.rootPath ++
        gglStr "/packages/recipes" ++ slashByte :: path).head? := by
    cases gglBufferFromNullTerm env.rootPath <;> rfl
  rw [slash, resolve, resolve, head, follow_append, follow_nil, ← follow_append,
    ← append_cons]

/-- A recipe that was saved stands in the file of its name, unless the name was cut. -/
theorem saveRecipe_eq_ok (saved : (env.saveRecipe component).run env.kernel fs = (.ok (), fs'))
    (whole : 0 ∉ component.name ++ component.version) :
    fs'.disk.tree.node (env.recipePath component.name component.version) =
      some (.file (gglBase64DecodeInPlace component.recipe).2) := by
  rcases bind_eq_ok saved with ⟨_, fs₁, named, saved⟩
  rcases ofExcept_eq_ok named with ⟨named, -⟩
  rcases bind_eq_ok saved with ⟨_, fs₂, placed, saved⟩
  rcases ofExcept_eq_ok placed with ⟨placed, -⟩
  rcases bind_eq_ok saved with ⟨dir, fs₃, entered, saved⟩
  rcases bind_eq_ok saved with ⟨file, fs₄, opened, saved⟩
  rcases bind_eq_ok saved with ⟨_, fs₅, written, recorded⟩
  rcases ofExcept_eq_ok recorded with ⟨-, rfl⟩
  have nameItems := gglByteVecChain_eq_ok (Prod.ext named rfl)
  have dirItems := gglByteVecChain_eq_ok (Prod.ext placed rfl)
  rw [Vec.empty_items, nil_append] at nameItems dirItems
  have uncut : 0 ∉ (CloudEnvironment.recipeName component.name component.version).flatten := by
    simp only [mem_append, not_or] at whole
    simp only [CloudEnvironment.recipeName, flatten_cons, flatten_nil, mem_append,
      not_or]
    exact ⟨whole.1, by decide, whole.2, by decide, not_mem_nil⟩
  rw [CloudEnvironment.openRecipe, nameItems, if_neg uncut] at opened
  rcases gglFileOpenat_eq_ok opened with ⟨isFile, isEmpty⟩
  have content := gglFileWriteBuf_eq_ok isEmpty written
  rw [isFile, gglDirOpen_eq_ok entered, dirItems, follow_recipeDirectory] at content
  exact content

end Saving

/-! ## Responses -/

/-- The member of a JSON object with this key. -/
def jsonMember (key : String) : JsonValue → Option JsonValue
  | .object members => members.lookup key.toList
  | _ => none

/-- The response is the JSON text of an object that lists one component, with these bytes as its
name, its version and its recipe. -/
def Names (response name version recipe : Buffer) : Prop :=
  ∃ value entry nameChars versionChars recipeChars, IsJsonText response value ∧
    jsonMember "resolvedComponentVersions" value = some (.array [entry]) ∧
    jsonMember "componentName" entry = some (.string nameChars) ∧ utf8 nameChars = name ∧
    jsonMember "componentVersion" entry = some (.string versionChars) ∧
    utf8 versionChars = version ∧
    jsonMember "recipe" entry = some (.string recipeChars) ∧ utf8 recipeChars = recipe

/-- The response names one component, with this version, and its recipe is in the file of its
name. -/
def Delivered (env : CloudEnvironment) (response version : Buffer) (disk : Disk) : Prop :=
  ∃ name recipe, Names response name version (gglBase64Encode recipe) ∧ 0 ∉ name ++ version ∧
    disk.tree.node (env.recipePath name version) = some (.file recipe)

/-- The decoded response lists components, the first of them a map. -/
def Lists (object : GglObject) (first : GglMap) (rest : List GglObject) : Prop :=
  ∃ fields, object = .map fields ∧
    gglMapGet fields (gglStr "resolvedComponentVersions") = some (.list (.map first :: rest))

/-- A response that can be decoded lists components, the first of them a map; and if that is the
only one, and valid, then the response is a JSON text that names it, its recipe is a base64 text
and no NUL byte is in its name and in its version. -/
def Sound (env : CloudEnvironment) (response : Buffer) : Prop :=
  ∀ object, env.decodeResponse response = .ok object →
    ∃ first rest, Lists object first rest ∧
      (rest = [] → ∀ component, cloudComponent first = .ok component →
        component.version.length ≤ nameMax →
        Names response component.name component.version component.recipe ∧
          0 ∉ component.name ++ component.version ∧
          ∃ recipe, component.recipe = gglBase64Encode recipe)

section Responses

variable {env : CloudEnvironment} {others : ResolveContext FileSystem} {response version : Buffer}
  {fs fs' : FileSystem}

/-- The first candidate decides: it is no map, or it is saved and must be the last. -/
theorem saveCandidates_eq_ok {context : ResolveContext FileSystem} {candidates : List GglObject}
    (ok : saveCandidates context fs candidates = (.ok version, fs')) :
    (∃ fields component, candidates = [.map fields] ∧ cloudComponent fields = .ok component ∧
      component.version.length ≤ nameMax ∧ context.saveRecipe fs component = (.ok (), fs') ∧
      version = component.version) ∨
    (¬∃ fields rest, candidates = .map fields :: rest) := by
  revert ok
  fun_cases saveCandidates context fs candidates with
  | case1 => exact fun _ => .inr nofun
  | case2 | case3 | case4 => rintro ⟨⟩
  | case5 fields rest component valid short world saved =>
    cases rest with
    | nil =>
      rintro ⟨⟩
      exact .inl ⟨fields, component, rfl, valid, Nat.le_of_not_lt short, saved, rfl⟩
    | cons next rest => rintro ⟨⟩
  | case6 other rest noMap =>
    rintro -
    right
    rintro ⟨fields, tail, ⟨⟩⟩
    exact noMap fields rfl

theorem parseDataplaneResponse_of_lists {object : GglObject} {first : GglMap}
    {rest : List GglObject} (decoded : env.decodeResponse response = .ok object)
    (lists : Lists object first rest) :
    parseDataplaneResponseAndSaveRecipe (env.context others) response fs =
      saveCandidates (env.context others) fs (.map first :: rest) := by
  rcases lists with ⟨fields, rfl, listed⟩
  have context : (env.context others).jsonDecode response = .ok (.map fields) := decoded
  rw [parseDataplaneResponseAndSaveRecipe, context]
  dsimp only
  rw [listed]

/-- System calls succeed, and so does the write to the configuration. -/
def quietEnvironment : CloudEnvironment where
  strtod _ := none
  behind := []
  rootPath := gglStr "/greengrass"
  workingDirectory := []
  kernel _ := none
  writeArn _ _ := .ok ()
  openCutName _ _ := fail .failure

/-- The daemon knows of nothing. -/
def idleContext : ResolveContext FileSystem where
  writeRoots _ := .ok ()
  deviceThingGroups := .error .noentry
  jsonDecode _ := .error .parse
  readGroup _ alloc := (.error .noentry, alloc)
  activeVersion _ _ := .error .noentry
  recipeDirectory _ := .error .noentry
  resolveWithCloud _ _ _ := .error .failure
  saveRecipe fs _ := (.error .failure, fs)
  recipe _ _ := .error .noentry
  uninitialized := []
  pastEnd := 0

/-- A response that lists one component. -/
def oneComponent : String :=
  "\x7b\"resolvedComponentVersions\": [\x7b\"arn\": \"b\", \"componentName\": \"a\", " ++
    "\"componentVersion\": \"1\", \"recipe\": \"QQ==\"\x7d]\x7d"

theorem names_oneComponent : Names (gglStr oneComponent) (gglStr "a") (gglStr "1")
    (gglStr "QQ==") := by
  refine ⟨.object [("resolvedComponentVersions".toList, .array [.object
      [("arn".toList, .string "b".toList), ("componentName".toList, .string "a".toList),
        ("componentVersion".toList, .string "1".toList),
        ("recipe".toList, .string "QQ==".toList)]])],
    _, _, _, _, ⟨oneComponent.toList, [], by decide +kernel, ?_, rfl⟩, rfl, rfl, rfl, rfl, rfl, rfl,
    rfl⟩
  apply Derives.object
  apply Derives.lastMember
  · apply derives_pair (by decide) rfl rfl
    apply Derives.array
    apply Derives.lastElement
    · apply Derives.object
      apply Derives.member
      · exact derives_string_pair (by decide) (by decide) rfl rfl
      · rfl
      apply Derives.member
      · exact derives_string_pair (by decide) (by decide) rfl rfl
      · rfl
      apply Derives.member
      · exact derives_string_pair (by decide) (by decide) rfl rfl
      · rfl
      apply Derives.lastMember
      · exact derives_string_pair (by decide) (by decide) rfl rfl
      · rfl
    · rfl
  · rfl

/-- What this response is decoded to. -/
def listsOne : GglObject → Bool
  | .map [(key, .list [.map fields])] =>
    key = gglStr "resolvedComponentVersions" ∧ ((cloudComponent fields).map fun component =>
      [component.name, component.version, component.recipe]).toOption =
        some [gglStr "a", gglStr "1", gglStr "QQ=="]
  | _ => false

/-- A file system without files. -/
def blankFileSystem : FileSystem where
  disk :=
    { tree :=
        { node := fun path => if path = [] then some .directory else none
          root := rfl
          parent := by simp }
      touched := [] }
  calls := 0

end Responses

end GreengrassLite.Deployment

import GreengrassLite.Config.Completeness
import GreengrassLite.Json.Outcome

/-!
# The texts of stored values

The daemon stores the JSON text of a value and decodes it for every read.  For the
decoder of the source a text has one value, whatever memory there is.
-/

namespace GreengrassLite.Config

/-- `ggl_json_decode_destructive` on a stored text, with the bytes that lie behind it.  Only one
decoding of a read can fail, so what it leaves of its text is a function of the text here. -/
def storedDecoder (strtod : Buffer → Option UInt64) (behind : Buffer)
    (damaged : Buffer → Buffer) (mistaken : Buffer → GglMap) : JsonDecoder where
  decode text alloc :=
    match Json.gglJsonDecodeDestructive strtod bumpAllocator text.length
        ⟨text ++ behind, some alloc⟩ with
    | (.error error, state) => (.error error, state.alloc.getD alloc)
    | (.ok node, state) => (.ok (node.load state.memory), state.alloc.getD alloc)
  damaged := damaged
  mistaken := mistaken

/-- A text has one value, whatever memory it is decoded in. -/
def OneValue (decoder : JsonDecoder) : Prop :=
  ∀ {text : Buffer} {value other : GglObject}, Decodes decoder text value →
    Decodes decoder text other → value = other

section Decoder

variable {strtod : Buffer → Option UInt64} {behind : Buffer} {damaged : Buffer → Buffer}
  {mistaken : Buffer → GglMap} {printG : UInt64 → Buffer}
  {text : Buffer} {value : GglObject}

theorem storedDecoder_eq_ok {alloc : BumpAlloc}
    (decoded : ((storedDecoder strtod behind damaged mistaken).decode text alloc).1 = .ok value) :
    ∃ node state, Json.gglJsonDecodeDestructive strtod bumpAllocator text.length
        ⟨text ++ behind, some alloc⟩ = (.ok node, state) ∧ value = node.load state.memory := by
  rw [storedDecoder] at decoded
  dsimp only at decoded
  split at decoded
  · cases decoded
  next node state here =>
    cases decoded
    exact ⟨node, state, here, rfl⟩

/-- A plain value survives its text, given the memory for its lists and maps. -/
theorem decodes_of_plain (plain : Json.Plain value) (isLeaf : value.isMap = false)
    (short : (Json.jsonText printG value).length < 1024) {alloc left : BumpAlloc}
    (enough : bumpAllocator.allocAll alloc (value.requests false) = some left)
    (encoded : Json.gglJsonEncode 1024 printG value = .ok text) :
    Decodes (storedDecoder strtod behind damaged mistaken) text value := by
  cases encoded.symm.trans (Json.gglJsonEncode_of_fits short)
  obtain ⟨node, changed, decoded, loads⟩ :=
    @Json.gglJsonDecodeDestructive_jsonText _ strtod _ printG _ plain behind _ _ enough
  refine ⟨isLeaf, alloc, ?_⟩
  rw [storedDecoder]
  dsimp only
  rw [decoded]
  exact congrArg Except.ok loads

theorem storedDecoder_oneValue : OneValue (storedDecoder strtod behind damaged mistaken) := by
  rintro text value other ⟨-, alloc, decoded⟩ ⟨-, otherAlloc, otherDecoded⟩
  obtain ⟨node, state, here, rfl⟩ := storedDecoder_eq_ok decoded
  obtain ⟨other, otherState, there, rfl⟩ := storedDecoder_eq_ok otherDecoded
  obtain ⟨rfl, sameMemory⟩ := Json.gglJsonDecodeDestructive_unique here there
  rw [sameMemory]

end Decoder

end GreengrassLite.Config

import GreengrassLite.CoreBus.RoundTrip
import GreengrassLite.Json.Integer
import GreengrassLite.Json.Recognise
import GreengrassLite.Json.Unescape
import Mathlib.Data.List.Forall2

/-!
# The round trip of JSON

`ggl_json_decode_destructive` turns the text of a plain object back into the
object.  The walk over a text changes it in place, but only where it has been
read, so what stands behind is still the text when its turn comes, and what was
decoded before is not touched again.
-/

namespace GreengrassLite.Json

open GreengrassLite.Library List GglObject

/-! ## Strings -/

/-- The piece of a content that the text of a byte is. -/
def pieceOf (byte : UInt8) : StringPiece :=
  if byte = 34 ∨ byte = 92 then .escape byte else .byte byte

@[simp]
theorem text_pieceOf {byte : UInt8} (plain : 0x20 ≤ byte ∧ byte ≤ 0x7F) :
    (pieceOf byte).text = escapeByte byte := by
  unfold pieceOf escapeByte
  split_ifs <;> simp_all [StringPiece.text, not_control]

theorem standsFor_pieceOf (byte : UInt8) : StandsFor (pieceOf byte) byte := by
  unfold pieceOf
  split_ifs with special
  · exact .escape (by rcases special with rfl | rfl <;> rfl)
  · exact .byte (not_or.mp special).2

/-- `unescape_string` gives the plain string back, and leaves the memory around it alone. -/
theorem unescapeString_escapeText {bytes : Buffer} (plain : PlainText bytes)
    (before after : Buffer) :
    ∃ rest, (bytes ++ rest).length = (escapeText bytes).length ∧
      unescapeString (before ++ (escapeText bytes ++ after))
          ⟨before.length, (escapeText bytes).length⟩ =
        (some ⟨before.length, bytes.length⟩, before ++ (bytes ++ rest ++ after)) := by
  have text : (bytes.map pieceOf).flatMap StringPiece.text = escapeText bytes := by
    rw [flatMap_map]
    exact flatMap_congr fun byte mem => text_pieceOf (plain byte mem)
  have stand : List.Forall₂ StandsFor (bytes.map pieceOf) bytes :=
    forall₂_map_left_iff.mpr (forall₂_same.mpr fun byte _ => standsFor_pieceOf byte)
  rw [← text]
  exact unescapeString_pieces stand before after

/-! ## Values -/

section Values

variable {σ : Type} {strtod : Buffer → Option UInt64} {allocator : GglAlloc σ}
  {printG : UInt64 → Buffer}

@[simp]
theorem input_append {before text after : Buffer} {buf : Span}
    (at_ : buf = ⟨before.length, text.length⟩) :
    buf.input (before ++ (text ++ after)) = ⟨before.length, text⟩ := by
  subst at_
  rw [Span.input, region_append before text after rfl rfl]

theorem decodeJsonNumber_intText {value : Int} (lower : int64Min ≤ value)
    (upper : value ≤ int64Max) (before after : Buffer) (alloc : Option σ) :
    decodeJsonNumber strtod ⟨before.length, (gglStr (toString value)).length⟩
        ⟨before ++ (gglStr (toString value) ++ after), alloc⟩ =
      (.ok (.i64 value), ⟨before ++ (gglStr (toString value) ++ after), alloc⟩) := by
  have int := @takes_intPart [] trivial value before.length none
  rw [append_nil] at int
  have integer : parserCall parserIntPart (before ++ (gglStr (toString value) ++ after))
      ⟨before.length, (gglStr (toString value)).length⟩ =
        some ⟨before.length + (gglStr (toString value)).length, 0⟩ := by
    rw [parserCall, input_append rfl, int]
    rfl
  have content := region_append before (gglStr (toString value)) after rfl rfl
  rw [decodeJsonNumber]
  rw [integer]
  simp only [content, gglStrToInt64_intText lower upper]
  exact if_pos ⟨rfl, rfl⟩

@[simp]
theorem takeChar_append (c : UInt8) (before rest after : Buffer) (alloc : Option σ) :
    takeChar c ⟨before.length, (c :: rest).length⟩ ⟨before ++ (c :: rest ++ after), alloc⟩ =
      (.ok ⟨(before ++ [c]).length, rest.length⟩, ⟨before ++ (c :: rest ++ after), alloc⟩) := by
  have length : (before ++ [c]).length = before.length + 1 := length_append
  have taken : parserCall (parserChar c) (before ++ (c :: rest ++ after))
      ⟨before.length, (c :: rest).length⟩ = some ⟨before.length + 1, rest.length⟩ := by
    have here := @takes_char rest c before.length none
    rw [singleton_append] at here
    rw [parserCall, input_append rfl, here]
    rfl
  rw [takeChar, taken, length]

/-- A text is taken and decoded to a result, whatever stands around it.  The requests for
memory are those given, and only the text itself is changed. -/
def TakesAs {ε γ : Type} (allocator : GglAlloc σ) (take : Span → Decoding σ (Span × ε))
    (load : Buffer → ε → γ) (text : Buffer) (requests : List (Nat × Nat)) (result : γ) : Prop :=
  ∀ (before rest after : Buffer) (alloc left : σ), Ends rest →
    allocator.allocAll alloc requests = some left →
    ∃ entry changed, changed.length = text.length ∧
      take ⟨before.length, (text ++ rest).length⟩
          ⟨before ++ (text ++ rest ++ after), some alloc⟩ =
        (.ok (⟨(before ++ text).length, rest.length⟩, entry),
          ⟨before ++ (changed ++ rest ++ after), some left⟩) ∧
      ∀ around behind : Buffer, around.length = before.length →
        load (around ++ (changed ++ behind)) entry = result

section Entries

variable {ε γ β : Type} {take : Span → Decoding σ (Span × ε)} {load : Buffer → ε → γ}
  {text : β → Buffer} {requests : β → List (Nat × Nat)} {result : β → γ}

/-- The loop over the entries of a container takes them all. -/
theorem decodeEntries_texts {entries : List β}
    (takes : ∀ entry ∈ entries,
      TakesAs allocator take load (text entry) (requests entry) (result entry)) :
    ∀ (before after : Buffer) (alloc left : σ),
      allocator.allocAll alloc (entries.flatMap requests) = some left →
      ∃ decoded changed,
        changed.length = (intercalate [44] (entries.map text)).length ∧
        decodeEntries take entries.length
            ⟨before.length, (intercalate [44] (entries.map text)).length⟩
            ⟨before ++ (intercalate [44] (entries.map text) ++ after), some alloc⟩ =
          (.ok decoded, ⟨before ++ (changed ++ after), some left⟩) ∧
        ∀ around behind : Buffer, around.length = before.length →
          decoded.map (load (around ++ (changed ++ behind))) = entries.map result := by
  induction entries with
  | nil =>
    intro before after alloc left granted
    cases granted
    exact ⟨[], [], rfl, rfl, fun _ _ _ => rfl⟩
  | cons entry entries ih =>
    intro before after alloc left granted
    rcases GglAlloc.allocAll_append granted with ⟨middle, here, later⟩
    have first := takes entry mem_cons_self
    cases entries with
    | nil =>
      cases later
      rcases first before [] after alloc _ trivial here with
        ⟨decoded, changed, length, taken, loads⟩
      refine ⟨[decoded], changed, ?_, ?_, ?_⟩
      · simpa using length
      · simp only [append_nil] at taken
        rw [map_singleton, intercalate_singleton, length_singleton,
          decodeEntries, taken]
        rfl
      · intro around behind same
        rw [map_singleton, loads around behind same, map_singleton]
    | cons second entries =>
      let inner := intercalate [44] ((second :: entries).map text)
      have texts : intercalate [44] ((entry :: second :: entries).map text) =
          text entry ++ 44 :: inner := by
        rfl
      rcases first before (44 :: inner) after alloc middle (.inl rfl) here with
        ⟨decoded, changed, length, taken, loads⟩
      have moved : (before ++ text entry).length = (before ++ changed).length := by
        rw [length_append, length_append, length]
      have comma := takeChar_append 44 (before ++ changed) inner after (some middle)
      rcases ih (fun other mem => takes other (mem_cons_of_mem _ mem))
        (before ++ changed ++ [44]) after middle left later with
        ⟨others, rest, lengths, decodes, loadsOthers⟩
      refine ⟨decoded :: others, changed ++ 44 :: rest, ?_, ?_, ?_⟩
      · rw [texts, length_append, length_append, length, length_cons,
          length_cons, lengths]
      · have shape : before ++ changed ++ (44 :: inner ++ after) =
            before ++ changed ++ [44] ++ (inner ++ after) := by simp
        rw [texts, length_cons, decodeEntries, taken]
        dsimp only
        have more : (second :: entries).length ≠ 0 := Nat.succ_ne_zero _
        rw [moved, append_assoc changed, ← append_assoc before, takeComma,
          if_neg more, comma]
        dsimp only
        rw [shape, decodes]
        simp
      · intro around behind same
        have here := loads around (44 :: (rest ++ behind)) same
        have next := loadsOthers (around ++ changed ++ [44]) behind
          (by simp only [length_append, same])
        rw [map_cons]
        congr 1
        · rw [← here]
          simp
        · rw [← next]
          simp

end Entries

/-- The array of a container is allocated, if the allocator grants the request. -/
@[simp]
theorem allocateArray_of_granted {size count : Nat} {memory : Buffer} {alloc left : σ}
    (granted : allocator.allocAll alloc (arrayRequests size count) = some left) :
    allocateArray allocator size count ⟨memory, some alloc⟩ = (.ok (), ⟨memory, some left⟩) := by
  cases count with
  | zero =>
    cases granted
    rfl
  | succ count =>
    rcases Option.bind_eq_some_iff.mp granted with ⟨taken, request, ended⟩
    cases ended
    dsimp only at request
    rw [allocateArray, if_pos (Nat.succ_pos count)]
    dsimp only
    rw [request]

@[simp]
theorem loadItems_eq_map (memory : Buffer) (items : List Node) :
    loadItems memory items = items.map (Node.load memory) := by
  induction items with
  | nil => rfl
  | cons item items ih => rw [loadItems, ih, map_cons]

/-- A pair as it lies in memory. -/
def loadPair (memory : Buffer) (pair : Span × Node) : Buffer × GglObject :=
  (region memory pair.1.data pair.1.len, pair.2.load memory)

@[simp]
theorem loadPairs_eq_map (memory : Buffer) (pairs : List (Span × Node)) :
    loadPairs memory pairs = pairs.map (loadPair memory) := by
  induction pairs with
  | nil => rfl
  | cons pair pairs ih => rw [loadPairs, ih, map_cons, loadPair]

@[simp]
theorem itemRequests_eq_flatMap (items : List GglObject) :
    itemRequests false items = items.flatMap (requests false) := by
  induction items with
  | nil => rfl
  | cons item items ih => rw [itemRequests, ih, flatMap_cons]

@[simp]
theorem pairRequests_eq_flatMap (pairs : GglMap) :
    pairRequests false pairs =
      pairs.flatMap fun pair => requests false pair.2 := by
  induction pairs with
  | nil => rfl
  | cons pair pairs ih =>
    rw [pairRequests, ih]
    rfl

/-- A pair is taken, if its key and its value are. -/
theorem takePair_takesAs {take : Span → Decoding σ (Span × Node)} {key : Buffer}
    {value : GglObject} {text : Buffer} {requests : List (Nat × Nat)}
    (takesKey : TakesAs allocator take Node.load (stringText key) [] (.buf key))
    (takesValue : TakesAs allocator take Node.load text requests value) :
    TakesAs allocator (takePair take) loadPair (stringText key ++ 58 :: text) requests
      (key, value) := by
  intro before rest after alloc left ends granted
  rcases takesKey before (58 :: (text ++ rest)) after alloc alloc (.inr (.inl rfl)) rfl with
    ⟨keyNode, keyChanged, keyLength, keyTaken, keyLoads⟩
  have keyMoved : (before ++ stringText key).length = (before ++ keyChanged).length := by
    rw [length_append, length_append, keyLength]
  have colon := takeChar_append 58 (before ++ keyChanged) (text ++ rest) after (some alloc)
  rcases takesValue (before ++ keyChanged ++ [58]) rest after alloc left ends granted with
    ⟨valueNode, valueChanged, valueLength, valueTaken, valueLoads⟩
  -- A node that is a string in memory lies there as one.
  have string : ∃ str, keyNode = .buf str := by
    have here := keyLoads before [] rfl
    cases keyNode with
    | buf str => exact ⟨str, rfl⟩
    | _ => simp [Node.load] at here
  rcases string with ⟨str, rfl⟩
  refine ⟨(str, valueNode), keyChanged ++ 58 :: valueChanged, ?_, ?_, ?_⟩
  · rw [length_append, length_append, length_cons, length_cons, keyLength,
      valueLength]
  · have source : stringText key ++ 58 :: text ++ rest =
        stringText key ++ 58 :: (text ++ rest) := by simp
    have shape : before ++ keyChanged ++ (58 :: (text ++ rest) ++ after) =
        before ++ keyChanged ++ [58] ++ (text ++ rest ++ after) := by simp
    have length : (before ++ (stringText key ++ 58 :: text)).length =
        (before ++ keyChanged ++ [58] ++ text).length := by
      simp only [length_append, length_cons, length_nil, keyLength]
      omega
    rw [source, takePair, keyTaken]
    dsimp only
    rw [keyMoved, append_assoc keyChanged, ← append_assoc before, colon]
    dsimp only
    rw [shape, valueTaken, length]
    simp
  · intro around behind same
    have name := keyLoads around (58 :: (valueChanged ++ behind)) same
    have object := valueLoads (around ++ keyChanged ++ [58]) behind
      (by simp only [length_append, same])
    rw [Node.load, buf.injEq] at name
    have memory : around ++ (keyChanged ++ 58 :: valueChanged ++ behind) =
        around ++ keyChanged ++ [58] ++ (valueChanged ++ behind) := by simp
    have memory' : around ++ (keyChanged ++ 58 :: valueChanged ++ behind) =
        around ++ (keyChanged ++ 58 :: (valueChanged ++ behind)) := by simp
    rw [loadPair, Prod.mk.injEq]
    constructor
    · rw [memory', name]
    · rw [memory, object]

/-- `take_json_val` of a recognised text does what is done with its content. -/
theorem takeJsonVal_of_content {object : GglObject} (plain : Plain object) {levels : Nat}
    {before rest after changed : Buffer} {alloc left : Option σ} {output : ParseResult}
    {node : Node} (ends : Ends rest)
    (noted : recognised printG before.length (some ⟨.str, ⟨0, 0⟩, 0⟩) object = some output)
    (decoded : decodeContent strtod allocator (takeJsonVal strtod allocator levels) output
        ⟨before ++ (jsonText printG object ++ rest ++ after), alloc⟩ =
      (.ok node, ⟨before ++ (changed ++ rest ++ after), left⟩)) :
    takeJsonVal strtod allocator (levels + 1)
        ⟨before.length, (jsonText printG object ++ rest).length⟩
        ⟨before ++ (jsonText printG object ++ rest ++ after), alloc⟩ =
      (.ok (⟨(before ++ jsonText printG object).length, rest.length⟩, node),
        ⟨before ++ (changed ++ rest ++ after), left⟩) := by
  have short : (jsonText printG object).length < (jsonText printG object ++ rest).length + 1 := by
    rw [length_append]
    omega
  have parsed := takes_jsonText plain short ends before.length (some ⟨.str, ⟨0, 0⟩, 0⟩)
  dsimp only at parsed
  rw [noted] at parsed
  rw [takeJsonVal]
  rw [input_append rfl, parsed]
  dsimp only
  rw [decoded, length_append]

/-- The string of a text lies behind its first quote. -/
theorem takesAs_string {bytes : Buffer} (plain : PlainText bytes) (levels : Nat) :
    TakesAs allocator (takeJsonVal strtod allocator (levels + 1)) Node.load (stringText bytes) []
      (.buf bytes) := by
  intro before rest after alloc left ends granted
  cases granted
  have content : before ++ (stringText bytes ++ rest ++ after) =
      before ++ [34] ++ (escapeText bytes ++ (34 :: (rest ++ after))) := by
    simp [stringText]
  rcases unescapeString_escapeText plain (before ++ [34]) (34 :: (rest ++ after)) with
    ⟨junk, length, unescaped⟩
  have data : (before ++ [34]).length = before.length + 1 := length_append
  refine ⟨.buf ⟨before.length + 1, bytes.length⟩, 34 :: (bytes ++ junk ++ [34]), ?_, ?_, ?_⟩
  · rw [length_append] at length
    simp only [stringText, length_cons, length_append]
    omega
  · refine @takeJsonVal_of_content σ strtod allocator (fun _ => []) (.buf bytes) plain levels
      before rest after _ _ _ ⟨.str, ⟨before.length + 1, (escapeText bytes).length⟩, 0⟩ _ ends rfl
      ?_
    rw [jsonText, content]
    change decodeJsonStr _ _ = _
    rw [← data, decodeJsonStr, unescaped]
    simp
  · intro around behind same
    have inside := region_append (around ++ [34]) bytes (junk ++ 34 :: behind) length_append
      rfl
    rw [same] at inside
    rw [Node.load]
    simpa using inside

/-- The entries of a container and the brackets around them, which stay as they are. -/
theorem takesAs_brackets {ε γ β : Type} {takeEntry : Span → Decoding σ (Span × ε)}
    {load : Buffer → ε → γ} {text : β → Buffer} {requests : β → List (Nat × Nat)}
    {result : β → γ} {entries : List β} {size : Nat} (opening closing : UInt8)
    (takes : ∀ entry ∈ entries,
      TakesAs allocator takeEntry load (text entry) (requests entry) (result entry))
    {before rest after : Buffer} {alloc left : σ}
    (granted : allocator.allocAll alloc
      (arrayRequests size entries.length ++ entries.flatMap requests) = some left) :
    ∃ middle decoded changed,
      changed.length = (intercalate [44] (entries.map text)).length ∧
      (∀ memory, allocateArray allocator size entries.length ⟨memory, some alloc⟩ =
        (.ok (), ⟨memory, some middle⟩)) ∧
      decodeEntries takeEntry entries.length
          ⟨before.length + 1, (intercalate [44] (entries.map text)).length⟩
          ⟨before ++ (opening :: (intercalate [44] (entries.map text) ++ [closing]) ++
            rest ++ after), some middle⟩ =
        (.ok decoded, ⟨before ++ (opening :: (changed ++ [closing]) ++ rest ++ after),
          some left⟩) ∧
      ∀ around behind : Buffer, around.length = before.length →
        decoded.map (load (around ++ (opening :: (changed ++ [closing]) ++ behind))) =
          entries.map result := by
  rcases GglAlloc.allocAll_append granted with ⟨middle, array, later⟩
  rcases decodeEntries_texts takes (before ++ [opening]) (closing :: (rest ++ after)) middle left
    later with ⟨decoded, changed, length, decodes, loads⟩
  have data : (before ++ [opening]).length = before.length + 1 := length_append
  refine ⟨middle, decoded, changed, length, fun _ => allocateArray_of_granted array, ?_, ?_⟩
  · simpa using decodes
  · intro around behind same
    have inside := loads (around ++ [opening]) (closing :: behind)
      (by rw [length_append, length_append, same])
    simpa using inside

/-- The text of a plain object is decoded to the object. -/
theorem takeJsonVal_takesAs {object : GglObject} (plain : Plain object) {levels : Nat}
    (short : (jsonText printG object).length ≤ levels) :
    TakesAs allocator (takeJsonVal strtod allocator (levels + 1)) Node.load
      (jsonText printG object) (object.requests false) object := by
  induction object using members_induction generalizing levels with
  | null =>
    intro before rest after alloc left ends granted
    cases granted
    exact ⟨.null, _, rfl, takeJsonVal_of_content plain ends rfl rfl, fun _ _ _ => rfl⟩
  | boolean flag =>
    intro before rest after alloc left ends granted
    cases granted
    refine ⟨.boolean flag, _, rfl, ?_, fun _ _ _ => rfl⟩
    cases flag with
    | true | false => exact takeJsonVal_of_content plain ends rfl rfl
  | i64 value =>
    intro before rest after alloc left ends granted
    cases granted
    refine ⟨.i64 value, jsonText printG (.i64 value), rfl, ?_, fun _ _ _ => rfl⟩
    refine takeJsonVal_of_content plain ends rfl ?_
    rw [append_assoc]
    exact decodeJsonNumber_intText plain.1 plain.2 before (rest ++ after) (some alloc)
  | f64 => cases plain
  | buf bytes =>
    exact takesAs_string plain levels
  | list items ih =>
    intro before rest after alloc left ends granted
    have each := plainItems_iff.mp plain
    rw [jsonText, length_cons, length_append] at short
    obtain ⟨below, rfl⟩ : ∃ below, levels = below + 1 := ⟨levels - 1, by omega⟩
    rw [requests, itemRequests_eq_flatMap] at granted
    rcases @takesAs_brackets σ allocator _ _ _ _ _ (jsonText printG) _ id _ objectSize 91 93
      (fun item member => @ih item member (each item member) below (by
        have bound := length_le_intercalate (mem_map_of_mem (f := jsonText printG) member)
        rw [← itemTexts_eq_map] at bound
        omega)) before rest after alloc left granted with
      ⟨middle, decoded, changed, length, allocates, decodes, loads⟩
    rw [← itemTexts_eq_map] at length decodes
    refine ⟨.list decoded, 91 :: (changed ++ [93]), ?_, ?_, ?_⟩
    · simp [jsonText, length]
    · refine takeJsonVal_of_content plain ends rfl ?_
      rw [jsonText]
      change decodeJsonArray _ _ _ (0 + items.length) _ = _
      rw [Nat.zero_add, decodeJsonArray, allocates]
      dsimp only
      rw [decodes]
    · intro around behind same
      rw [Node.load, loadItems_eq_map, loads around behind same, map_id]
  | map pairs ih =>
    intro before rest after alloc left ends granted
    have each := plainPairs_iff.mp plain
    rw [jsonText, length_cons, length_append] at short
    obtain ⟨below, rfl⟩ : ∃ below, levels = below + 1 := ⟨levels - 1, by omega⟩
    rw [requests, pairRequests_eq_flatMap] at granted
    rcases @takesAs_brackets σ allocator _ _ _ _ _ (pairText printG) _ id _ pairSize 123 125
      (fun pair member => takePair_takesAs (takesAs_string (each pair member).1 below)
        (ih pair member (each pair member).2 (by
          have bound := length_le_intercalate (mem_map_of_mem (f := pairText printG) member)
          rw [← pairTexts_eq_map, pairText, length_append, length_cons] at bound
          omega))) before rest after alloc left granted with
      ⟨middle, decoded, changed, length, allocates, decodes, loads⟩
    rw [← pairTexts_eq_map] at length decodes
    refine ⟨.map decoded, 123 :: (changed ++ [125]), ?_, ?_, ?_⟩
    · simp [jsonText, length]
    · refine takeJsonVal_of_content plain ends rfl ?_
      rw [jsonText]
      change decodeJsonObject _ _ _ (0 + pairs.length) _ = _
      rw [Nat.zero_add, decodeJsonObject, allocates]
      dsimp only
      rw [decodes]
    · intro around behind same
      rw [Node.load, loadPairs_eq_map, loads around behind same, map_id]

end Values

/-! ## The round trip -/

/-- The text of a plain object decodes to the object. -/
theorem gglJsonDecodeDestructive_jsonText {σ : Type} {strtod : Buffer → Option UInt64}
    {allocator : GglAlloc σ} {printG : UInt64 → Buffer} {object : GglObject}
    (plain : Plain object) (behind : Buffer) {alloc left : σ}
    (enough : allocator.allocAll alloc (object.requests false) = some left) :
    ∃ node changed,
      gglJsonDecodeDestructive strtod allocator (jsonText printG object).length
          ⟨jsonText printG object ++ behind, some alloc⟩ =
        (.ok node, ⟨changed ++ behind, some left⟩) ∧
      node.load (changed ++ behind) = object := by
  rcases takeJsonVal_takesAs plain Nat.le.refl [] [] behind alloc left trivial enough with
    ⟨node, changed, -, taken, loads⟩
  refine ⟨node, changed, ?_, loads [] behind rfl⟩
  simp only [append_nil, nil_append, length_nil] at taken
  rw [gglJsonDecodeDestructive, taken]
  rfl

/-- An object of null, booleans, integers, lists, maps and strings of the bytes from `0x20`
to `0x7F` is encoded into every buffer that is larger than its text, and the text decodes
to the object again if the allocator grants what the lists and maps need. -/
theorem gglJsonDecodeDestructive_gglJsonEncode {σ : Type} (strtod : Buffer → Option UInt64)
    (allocator : GglAlloc σ) (printG : UInt64 → Buffer) (object : GglObject)
    (plain : Plain object) (capacity : Nat) (larger : (jsonText printG object).length < capacity)
    (behind : Buffer) (alloc left : σ)
    (enough : allocator.allocAll alloc (object.requests false) = some left) :
    ∃ text, gglJsonEncode capacity printG object = .ok text ∧
      ∃ node changed,
        gglJsonDecodeDestructive strtod allocator text.length ⟨text ++ behind, some alloc⟩ =
          (.ok node, ⟨changed ++ behind, some left⟩) ∧
        node.load (changed ++ behind) = object :=
  ⟨jsonText printG object, gglJsonEncode_of_fits larger,
    gglJsonDecodeDestructive_jsonText plain behind enough⟩

theorem roundTrip_of_nested_object :
    ∃ text, gglJsonEncode 64 (fun _ => [])
        (.map [(gglStr "a\"b", .list [.null, .i64 (-20), .buf (gglStr "\\")]), ([], .map [])]) =
          .ok text ∧
      ∃ node changed,
        gglJsonDecodeDestructive (fun _ => none) bumpAllocator text.length
            ⟨text ++ [0], some (gglBumpAllocInit 200)⟩ =
          (.ok node, ⟨changed ++ [0], some ⟨152, 200⟩⟩) ∧
        node.load (changed ++ [0]) =
          .map [(gglStr "a\"b", .list [.null, .i64 (-20), .buf (gglStr "\\")]),
            ([], .map [])] := by
  refine gglJsonDecodeDestructive_gglJsonEncode (fun _ => none) bumpAllocator (fun _ => []) _ ?_ 64
    (by decide) [0] (gglBumpAllocInit 200) ⟨152, 200⟩ rfl
  simp [Plain, PlainPairs, PlainItems, PlainText, gglStr, int64Min, int64Max]

end GreengrassLite.Json

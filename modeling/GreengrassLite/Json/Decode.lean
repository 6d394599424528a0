import GreengrassLite.CoreBus.Serde
import GreengrassLite.Library.Parser
import GreengrassLite.Library.Region

/-!
# JSON decoding

`ggl-json/src/json_decode.c` decodes a text in two passes.  A parser made of
combinators recognises a value and notes its type, where its content lies and how
many items it has.  The content is then walked again: an array of the noted number
of items is allocated, and each item is recognised and decoded in turn.

Strings are unescaped where they lie, so the decoded object refers to the memory
of the text.  The memory is modelled with the bytes behind the text, as both the
unescaping and `strtod` can go beyond its end.  `strtod` is a parameter; it
answers nothing for a number out of range.

An escape of four hexadecimal digits is not removed from the text that is left, so
its bytes are read again after the code point has been written.
-/

namespace GreengrassLite.Json

open GreengrassLite.Library

/-! ## The parsers -/

/-- `JsonType`. -/
inductive JsonType where
  | str
  | number
  | object
  | array
  | true
  | false
  | null
  deriving DecidableEq, Repr

/-- A `GglBuffer` by its address. -/
structure Span where
  data : Nat
  len : Nat
  deriving DecidableEq, Repr

/-- `ParseResult`. -/
structure ParseResult where
  jsonType : JsonType
  content : Span
  count : Nat
  deriving DecidableEq, Repr

/-- A parser of the source.  The output may be missing. -/
abbrev JsonParser := Parser UInt8 (Option ParseResult)

/-- `COMB_NESTED`: the output is not handed on. -/
def combNested (parser : JsonParser) : JsonParser := fun input output =>
  ((parser input none).1, output)

/-- `COMB_RESULT_VAL`. -/
def combResultVal (type : JsonType) (parser : JsonParser) : JsonParser := fun input output =>
  match parser input output with
  | (some rest, some result) =>
    (some rest, some ⟨type, ⟨input.data, rest.data - input.data⟩, result.count⟩)
  | parsed => parsed

/-- `COMB_INCREMENT_COUNT`. -/
def combIncrementCount (parser : JsonParser) : JsonParser := fun input output =>
  match parser input output with
  | (some rest, some result) => (some rest, some { result with count := result.count + 1 })
  | parsed => parsed

/-- `PARSER_CHAR`. -/
def parserChar (c : UInt8) : JsonParser :=
  tokenIf (· = c)

/-- `PARSER_CHAR_RANGE`. -/
def parserCharRange (start stop : UInt8) : JsonParser :=
  tokenIf fun c => start ≤ c ∧ c ≤ stop

/-- `PARSER_STR`. -/
def parserStr (str : String) : JsonParser :=
  tokens (gglStr str)

/-- `PARSER_DIGIT`. -/
def parserDigit : JsonParser :=
  parserCharRange 48 57

/-- `PARSER_HEX_DIGIT`. -/
def parserHexDigit : JsonParser :=
  oneOf [parserDigit, parserCharRange 65 70, parserCharRange 97 102]

/-- `PARSER_JSON_STR_ESCAPE`: a backslash with a quote, a backslash, a slash, one of the
letters `bfnrt`, or `u` and four digits. -/
def parserJsonStrEscape : JsonParser :=
  sequence [
    parserChar 92,
    oneOf [
      parserChar 34,
      parserChar 92,
      parserChar 47,
      parserChar 98,
      parserChar 102,
      parserChar 110,
      parserChar 114,
      parserChar 116,
      sequence [
        parserChar 117,
        parserHexDigit,
        parserHexDigit,
        parserHexDigit,
        parserHexDigit]]]

/-- The length of the UTF-8 sequence that starts with a byte. -/
def utf8Len (first : UInt8) : Option Nat :=
  if first &&& 0b10000000 = 0 then some 1
  else if first &&& 0b11100000 = 0b11000000 then some 2
  else if first &&& 0b11110000 = 0b11100000 then some 3
  else if first &&& 0b11111000 = 0b11110000 then some 4
  else none

/-- `PARSER_JSON_STR_CODEPOINT`.  The loop over the continuation bytes looks at the first
byte each time. -/
def parserJsonStrCodepoint : JsonParser := fun input output =>
  match input.rest with
  | [] => (none, output)
  | first :: _ =>
    if first ≤ 0x1F then (none, output)
    else if first = 34 then (none, output)
    else if first = 92 then (none, output)
    else if first &&& 0b11000000 = 0b10000000 then (none, output)
    else
      match utf8Len first with
      | none => (none, output)
      | some len =>
        if input.rest.length < len then (none, output)
        else if (List.range (len - 1)).all (fun _ => first &&& 0b11000000 = 0b10000000) then
          (some (input.skip len), output)
        else (none, output)

/-- `PARSER_JSON_WHITESPACE`. -/
def parserJsonWhitespace : JsonParser :=
  zeroOrMore (oneOf [parserChar 32, parserChar 10, parserChar 13, parserChar 9])

/-- `PARSER_JSON_STR`. -/
def parserJsonStr : JsonParser :=
  sequence [
    parserChar 34,
    combResultVal .str (zeroOrMore (oneOf [parserJsonStrCodepoint, parserJsonStrEscape])),
    parserChar 34]

/-- `PARSER_INT_PART`. -/
def parserIntPart : JsonParser :=
  sequence [
    maybe (parserChar 45),
    oneOf [
      parserChar 48,
      sequence [parserCharRange 49 57, zeroOrMore parserDigit]]]

/-- `PARSER_FRAC_PART`. -/
def parserFracPart : JsonParser :=
  sequence [parserChar 46, zeroOrMore parserDigit]

/-- `PARSER_EXPONENT`. -/
def parserExponent : JsonParser :=
  sequence [
    oneOf [parserChar 101, parserChar 69],
    maybe (oneOf [parserChar 43, parserChar 45]),
    parserDigit,
    zeroOrMore parserDigit]

/-- `PARSER_JSON_NUMBER`. -/
def parserJsonNumber : JsonParser :=
  combResultVal .number
    (sequence [parserIntPart, maybe parserFracPart, maybe parserExponent])

variable (value : JsonParser)

/-- `PARSER_JSON_OBJECT_KV`. -/
def parserJsonObjectKv : JsonParser :=
  combNested (sequence [parserJsonStr, parserJsonWhitespace, parserChar 58, value])

/-- `PARSER_JSON_OBJECT`. -/
def parserJsonObject : JsonParser :=
  sequence [
    parserChar 123,
    parserJsonWhitespace,
    combResultVal .object
      (maybe (sequence [
        zeroOrMore (combIncrementCount (sequence [
          parserJsonObjectKv value,
          parserChar 44,
          parserJsonWhitespace])),
        combIncrementCount (parserJsonObjectKv value)])),
    parserChar 125]

/-- `PARSER_JSON_ARRAY_ELEM`. -/
def parserJsonArrayElem : JsonParser :=
  combNested value

/-- `PARSER_JSON_ARRAY`. -/
def parserJsonArray : JsonParser :=
  sequence [
    parserChar 91,
    parserJsonWhitespace,
    combResultVal .array
      (maybe (sequence [
        zeroOrMore (combIncrementCount (sequence [
          parserJsonArrayElem value,
          parserChar 44])),
        combIncrementCount (parserJsonArrayElem value)])),
    parserChar 93]

/-- The alternatives of `PARSER_JSON_VALUE`. -/
def parserJsonAlternatives : JsonParser :=
  oneOf [
    parserJsonStr,
    parserJsonNumber,
    parserJsonObject value,
    parserJsonArray value,
    combResultVal .true (parserStr "true"),
    combResultVal .false (parserStr "false"),
    combResultVal .null (parserStr "null")]

/-- `PARSER_JSON_VALUE`.  Every nested value stands behind a bracket, so a text has no more
levels than bytes, and one level more for the value that is tried behind the last. -/
def parserJsonValue : (levels : Nat) → JsonParser
  | 0 => fun _ output => (none, output)
  | levels + 1 =>
    sequence [
      parserJsonWhitespace,
      parserJsonAlternatives (parserJsonValue levels),
      parserJsonWhitespace]

/-! ## Strings -/

/-- `hex_char_to_byte`. -/
def hexCharToByte (c : UInt8) : Option Nat :=
  if 48 ≤ c ∧ c ≤ 57 then some (c.toNat - 48)
  else if 65 ≤ c ∧ c ≤ 70 then some (c.toNat - 65 + 10)
  else if 97 ≤ c ∧ c ≤ 102 then some (c.toNat - 97 + 10)
  else none

/-- `get_uint16_from_hex4`. -/
def getUint16FromHex4 (memory : Buffer) (hexBytes : Nat) : Option Nat := do
  let first ← hexCharToByte (memory.getD hexBytes 0)
  let second ← hexCharToByte (memory.getD (hexBytes + 1) 0)
  let third ← hexCharToByte (memory.getD (hexBytes + 2) 0)
  let fourth ← hexCharToByte (memory.getD (hexBytes + 3) 0)
  some (4096 * first + 256 * second + 16 * third + fourth)

/-- The bytes that `write_codepoint_utf8` writes. -/
def codepointUtf8 (codePoint : Nat) : Option Buffer :=
  if codePoint ≤ 0x7F then some [UInt8.ofNat codePoint]
  else if codePoint ≤ 0x7FF then
    some [UInt8.ofNat (0b11000000 + codePoint / 64), UInt8.ofNat (0b10000000 + codePoint % 64)]
  else if codePoint ≤ 0xFFFF then
    some [UInt8.ofNat (0b11100000 + codePoint / 4096),
      UInt8.ofNat (0b10000000 + codePoint / 64 % 64), UInt8.ofNat (0b10000000 + codePoint % 64)]
  else if codePoint ≤ 0x1FFFFF then
    some [UInt8.ofNat (0b11110000 + codePoint / 262144),
      UInt8.ofNat (0b10000000 + codePoint / 4096 % 64),
      UInt8.ofNat (0b10000000 + codePoint / 64 % 64), UInt8.ofNat (0b10000000 + codePoint % 64)]
  else none

/-- Bytes stored one after the other; those behind the modelled memory are lost. -/
def store : Buffer → Nat → Buffer → Buffer
  | memory, _, [] => memory
  | memory, address, byte :: bytes => store (memory.set address byte) (address + 1) bytes

/-- The state of `unescape_string`: the memory, the text that is left, and where the next
byte is written. -/
structure Unescape where
  memory : Buffer
  buf : Span
  writePtr : Nat

/-- `write_codepoint_utf8`. -/
def writeCodepointUtf8 (codePoint : Nat) (state : Unescape) : Option Unescape :=
  (codepointUtf8 codePoint).map fun bytes =>
    { state with
      memory := store state.memory state.writePtr bytes
      writePtr := state.writePtr + bytes.length }

/-- `str_conv_handle_utf16_escape`.  The digits are read from where the bytes are written
to, and the text that is left stays as it is. -/
def strConvHandleUtf16Escape (state : Unescape) : Option Unescape :=
  let byte := fun index => state.memory.getD (state.buf.data + index) 0
  if state.buf.len < 6 ∨ byte 0 ≠ 92 ∨ byte 1 ≠ 117 then none
  else
    match getUint16FromHex4 state.memory (state.writePtr + 2) with
    | none => none
    | some codeValue =>
      if 0xD800 ≤ codeValue ∧ codeValue ≤ 0xDBFF then
        if state.buf.len < 12 ∨ byte 6 ≠ 92 ∨ byte 7 ≠ 117 then none
        else
          match getUint16FromHex4 state.memory (state.writePtr + 8) with
          | none => none
          | some lowSurrogate =>
            if lowSurrogate < 0xDC00 ∨ 0xDFFF < lowSurrogate then none
            else
              writeCodepointUtf8
                ((codeValue - 0xD800) * 1024 + (lowSurrogate - 0xDC00) + 0x10000) state
      else if 0xDC00 ≤ codeValue ∧ codeValue ≤ 0xDFFF then none
      else writeCodepointUtf8 codeValue state

/-- The byte that an escape of one character stands for. -/
def escapedByte (c : UInt8) : Option UInt8 :=
  if c = 34 ∨ c = 92 ∨ c = 47 then some c
  else if c = 98 then some 8
  else if c = 102 then some 12
  else if c = 110 then some 10
  else if c = 114 then some 13
  else if c = 116 then some 9
  else none

/-- One byte is written, and `taken` bytes of the text have been read. -/
def Unescape.put (state : Unescape) (byte : UInt8) (taken : Nat) : Unescape where
  memory := store state.memory state.writePtr [byte]
  buf := ⟨state.buf.data + taken, state.buf.len - taken⟩
  writePtr := state.writePtr + 1

/-- `str_conv_handle_escape`. -/
def strConvHandleEscape (state : Unescape) : Option Unescape :=
  let byte := fun index => state.memory.getD (state.buf.data + index) 0
  if state.buf.len < 2 ∨ byte 0 ≠ 92 then none
  else if byte 1 = 117 then strConvHandleUtf16Escape state
  else (escapedByte (byte 1)).map fun c => state.put c 2

/-- The loop of `unescape_string`.  Each round takes a byte of the text or moves the place
of the next byte on, up to where the memory has no more digits.  The memory is answered
also when it fails. -/
def unescapeLoop : (fuel : Nat) → Unescape → Bool × Unescape
  | 0, state => (false, state)
  | fuel + 1, state =>
    if state.buf.len = 0 then (true, state)
    else
      let byte := state.memory.getD state.buf.data 0
      if byte = 92 then
        match strConvHandleEscape state with
        | none => (false, state)
        | some state => unescapeLoop fuel state
      else unescapeLoop fuel (state.put byte 1)

/-- `unescape_string`. -/
def unescapeString (memory : Buffer) (str : Span) : Option Span × Buffer :=
  let done := unescapeLoop (str.len + memory.length + 1) ⟨memory, str, str.data⟩
  (if done.1 then some ⟨str.data, done.2.writePtr - str.data⟩ else none, done.2.memory)

/-! ## Numbers -/

/-- `INT64_MAX`. -/
def int64Max : Int := 9223372036854775807

/-- `INT64_MIN`. -/
def int64Min : Int := -9223372036854775808

/-- `mult_overflow_int64` by ten. -/
def multOverflowInt64 (a : Int) : Bool :=
  a > int64Max.tdiv 10 ∨ a < int64Min.tdiv 10

/-- `add_overflow_int64`. -/
def addOverflowInt64 (a b : Int) : Bool :=
  if b > 0 then a > int64Max - b else a < int64Min - b

/-- The loop of `ggl_str_to_int64`. -/
def strToInt64Loop (sign : Int) : Int → Buffer → Except GglError Int
  | ret, [] => .ok ret
  | ret, c :: str =>
    if c < 48 ∨ 57 < c then .error .invalid
    else if multOverflowInt64 ret then .error .range
    else
      let digit := sign * (c.toNat - 48 : Int)
      if addOverflowInt64 (ret * 10) digit then .error .range
      else strToInt64Loop sign (ret * 10 + digit) str

/-- `ggl_str_to_int64`. -/
def gglStrToInt64 (str : Buffer) : Except GglError Int :=
  let negative := str.head? = some 45
  let digits := if negative then str.drop 1 else str
  if digits = [] then .error .invalid
  else strToInt64Loop (if negative then -1 else 1) 0 digits

/-! ## Values -/

/-- A decoded object.  Its strings lie in the memory of the text. -/
inductive Node where
  | null
  | boolean (value : Bool)
  | i64 (value : Int)
  | f64 (bits : UInt64)
  | buf (str : Span)
  | list (items : List Node)
  | map (pairs : List (Span × Node))

mutual

/-- The object that a node is, given what the memory holds. -/
def Node.load (memory : Buffer) : Node → GglObject
  | .null => .null
  | .boolean value => .boolean value
  | .i64 value => .i64 value
  | .f64 bits => .f64 bits
  | .buf str => .buf (region memory str.data str.len)
  | .list items => .list (loadItems memory items)
  | .map pairs => .map (loadPairs memory pairs)

def loadItems (memory : Buffer) : List Node → List GglObject
  | [] => []
  | item :: items => item.load memory :: loadItems memory items

def loadPairs (memory : Buffer) : List (Span × Node) → GglMap
  | [] => []
  | (key, value) :: pairs =>
    (region memory key.data key.len, value.load memory) :: loadPairs memory pairs

end

/-- The memory of the text and the allocator, which may be missing. -/
structure DecodeState (σ : Type) where
  memory : Buffer
  alloc : Option σ

/-- What the decoding does to the memory stays also when it fails. -/
abbrev Decoding (σ α : Type) := DecodeState σ → Except GglError α × DecodeState σ

section Values

variable {σ : Type} (strtod : Buffer → Option UInt64) (allocator : GglAlloc σ)

/-- A text in memory as the input of a parser. -/
def Span.input (buf : Span) (memory : Buffer) : Input UInt8 :=
  ⟨buf.data, region memory buf.data buf.len⟩

/-- `parser_call` without an output, on a text in memory. -/
def parserCall (parser : JsonParser) (memory : Buffer) (buf : Span) : Option Span :=
  (parser (buf.input memory) none).1.map fun rest => ⟨rest.data, rest.rest.length⟩

/-- `decode_json_str`. -/
def decodeJsonStr (content : Span) : Decoding σ Node := fun state =>
  match unescapeString state.memory content with
  | (none, memory) => (.error .parse, { state with memory })
  | (some str, memory) => (.ok (.buf str), { state with memory })

/-- `decode_json_number`. -/
def decodeJsonNumber (content : Span) : Decoding σ Node := fun state =>
  match parserCall parserIntPart state.memory content with
  | none => (.error .parse, state)
  | some buf =>
    let frac := parserCall parserFracPart state.memory buf
    let exponent := parserCall parserExponent state.memory (frac.getD buf)
    if frac = none ∧ exponent = none then
      match gglStrToInt64 (region state.memory content.data content.len) with
      | .error error => (.error error, state)
      | .ok val => (.ok (.i64 val), state)
    else
      match strtod (state.memory.drop content.data) with
      | none => (.error .range, state)
      | some val => (.ok (.f64 val), state)

/-- The array of a container; an empty one takes no memory. -/
def allocateArray (size count : Nat) : Decoding σ Unit := fun state =>
  if count > 0 then
    match state.alloc with
    | none => (.error .nomem, state)
    | some alloc =>
      match allocator.alloc alloc (count * size) 8 with
      | none => (.error .nomem, state)
      | some taken => (.ok (), { state with alloc := some taken })
  else (.ok (), state)

/-- A separator that the walk over a content expects. -/
def takeChar (c : UInt8) (buf : Span) : Decoding σ Span := fun state =>
  match parserCall (parserChar c) state.memory buf with
  | none => (.error .parse, state)
  | some rest => (.ok rest, state)

/-- The comma after every item but the last. -/
def takeComma (remaining : Nat) (buf : Span) : Decoding σ Span := fun state =>
  if remaining = 0 then (.ok buf, state) else takeChar 44 buf state

/-- The loops of `decode_json_array` and `decode_json_object`, over what they take for an
entry. -/
def decodeEntries {ε : Type} (takeEntry : Span → Decoding σ (Span × ε)) :
    (count : Nat) → Span → Decoding σ (List ε)
  | 0, _, state => (.ok [], state)
  | remaining + 1, buf, state =>
    match takeEntry buf state with
    | (.error error, state) => (.error error, state)
    | (.ok (buf, entry), state) =>
      match takeComma remaining buf state with
      | (.error error, state) => (.error error, state)
      | (.ok buf, state) =>
        match decodeEntries takeEntry remaining buf state with
        | (.error error, state) => (.error error, state)
        | (.ok entries, state) => (.ok (entry :: entries), state)

variable (take : Span → Decoding σ (Span × Node)) (content : Span)

/-- `decode_json_array`, where `take` is `take_json_val`. -/
def decodeJsonArray (count : Nat) : Decoding σ Node := fun state =>
  match allocateArray allocator objectSize count state with
  | (.error error, state) => (.error error, state)
  | (.ok (), state) =>
    match decodeEntries take count content state with
    | (.error error, state) => (.error error, state)
    | (.ok items, state) => (.ok (.list items), state)

/-- The key, the colon and the value of a pair. -/
def takePair (buf : Span) : Decoding σ (Span × (Span × Node)) := fun state =>
  match take buf state with
  | (.error error, state) => (.error error, state)
  | (.ok (buf, .buf key), state) =>
    match takeChar 58 buf state with
    | (.error error, state) => (.error error, state)
    | (.ok buf, state) =>
      match take buf state with
      | (.error error, state) => (.error error, state)
      | (.ok (buf, value), state) => (.ok (buf, (key, value)), state)
  | (.ok (_, _), state) => (.error .parse, state)

/-- `decode_json_object`. -/
def decodeJsonObject (count : Nat) : Decoding σ Node := fun state =>
  match allocateArray allocator pairSize count state with
  | (.error error, state) => (.error error, state)
  | (.ok (), state) =>
    match decodeEntries (takePair take) count content state with
    | (.error error, state) => (.error error, state)
    | (.ok pairs, state) => (.ok (.map pairs), state)

/-- The part of `take_json_val` behind the parser. -/
def decodeContent (output : ParseResult) : Decoding σ Node := fun state =>
  match output.jsonType with
  | .str => decodeJsonStr output.content state
  | .number => decodeJsonNumber strtod output.content state
  | .true => (.ok (.boolean true), state)
  | .false => (.ok (.boolean false), state)
  | .null => (.ok .null, state)
  | .array => decodeJsonArray allocator take output.content output.count state
  | .object => decodeJsonObject allocator take output.content output.count state

/-- `take_json_val`.  A content is shorter than the text it lies in, so the levels last. -/
def takeJsonVal : (levels : Nat) → Span → Decoding σ (Span × Node)
  | 0, _, state => (.error .failure, state)
  | levels + 1, buf, state =>
    match parserJsonValue (buf.len + 1) (buf.input state.memory) (some ⟨.str, ⟨0, 0⟩, 0⟩) with
    | (some rest, some output) =>
      match decodeContent strtod allocator (takeJsonVal levels) output state with
      | (.error error, state) => (.error error, state)
      | (.ok node, state) => (.ok (⟨rest.data, rest.rest.length⟩, node), state)
    | _ => (.error .parse, state)

/-- `ggl_json_decode_destructive` of the `len` bytes at the beginning of the memory. -/
def gglJsonDecodeDestructive (len : Nat) : Decoding σ Node := fun state =>
  match takeJsonVal strtod allocator (len + 1) ⟨0, len⟩ state with
  | (.error error, state) => (.error error, state)
  | (.ok (rest, node), state) =>
    if rest.len > 0 then (.error .parse, state) else (.ok node, state)

end Values

end GreengrassLite.Json

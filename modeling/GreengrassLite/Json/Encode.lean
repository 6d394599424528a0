import GreengrassLite.Core.Object

/-!
# JSON encoding

`ggl-json/src/json_encode.c` writes an object into a buffer of fixed capacity
and fails with `GGL_ERR_NOMEM` when the text does not fit.  Plain pieces are
copied.  Numbers and escaped control bytes go through `snprintf`, which also
stores a terminating zero byte: a text that exactly fills the rest of the
buffer passes the length check and loses its last byte to that terminator.

The text of a double is what `snprintf` prints with `%g`, taken as a
parameter.
-/

namespace GreengrassLite.Json

variable (capacity : Nat)

/-- `buf_write`: append a piece to the bytes written so far. -/
def bufWrite (str out : Buffer) : Except GglError Buffer :=
  if capacity - out.length < str.length then .error .nomem else .ok (out ++ str)

/-- `snprintf` of a text into the rest of the buffer, with the length check
that follows every such call. -/
def snprintfWrite (text out : Buffer) : Except GglError Buffer :=
  if capacity - out.length < text.length then
    .error .nomem
  else if text.length < capacity - out.length ∨ text = [] then
    .ok (out ++ text)
  else
    .ok (out ++ text.dropLast ++ [0])

/-- The upper-case hexadecimal digit of a number below sixteen. -/
def hexDigit (digit : Nat) : UInt8 :=
  if digit < 10 then UInt8.ofNat (48 + digit) else UInt8.ofNat (55 + digit)

/-- The text `"\\u00%02X"` prints for a byte. -/
def unicodeEscape (byte : UInt8) : Buffer :=
  gglStr "\\u00" ++ [hexDigit (byte.toNat / 16), hexDigit (byte.toNat % 16)]

/-- The loop body of `json_write_buf` for one byte of a string. -/
def jsonWriteByte (byte : UInt8) (out : Buffer) : Except GglError Buffer :=
  if byte = 34 then bufWrite capacity (gglStr "\\\"") out
  else if byte = 92 then bufWrite capacity (gglStr "\\\\") out
  else if byte ≤ 0x1F then snprintfWrite capacity (unicodeEscape byte) out
  else bufWrite capacity [byte] out

/-- The loop of `json_write_buf` over the bytes of a string. -/
def jsonWriteBytes : Buffer → Buffer → Except GglError Buffer
  | [], out => .ok out
  | byte :: bytes, out => do
    let out ← jsonWriteByte capacity byte out
    jsonWriteBytes bytes out

/-- `json_write_buf`. -/
def jsonWriteBuf (str out : Buffer) : Except GglError Buffer := do
  let out ← bufWrite capacity (gglStr "\"") out
  let out ← jsonWriteBytes capacity str out
  bufWrite capacity (gglStr "\"") out

/-- The comma before every item but the first. -/
def jsonWriteComma (first : Bool) (out : Buffer) : Except GglError Buffer :=
  if first then .ok out else bufWrite capacity (gglStr ",") out

variable (printG : UInt64 → Buffer)

mutual

/-- `json_write`. -/
def jsonWrite : GglObject → Buffer → Except GglError Buffer
  | .null, out => bufWrite capacity (gglStr "null") out
  | .boolean value, out =>
    bufWrite capacity (if value then gglStr "true" else gglStr "false") out
  | .i64 value, out => snprintfWrite capacity (gglStr (toString value)) out
  | .f64 bits, out => snprintfWrite capacity (printG bits) out
  | .buf bytes, out => jsonWriteBuf capacity bytes out
  | .list items, out => do
    let out ← bufWrite capacity (gglStr "[") out
    let out ← jsonWriteItems true items out
    bufWrite capacity (gglStr "]") out
  | .map pairs, out => do
    let out ← bufWrite capacity (gglStr "\x7b") out
    let out ← jsonWritePairs true pairs out
    bufWrite capacity (gglStr "\x7d") out

/-- The loop of `json_write_list`. -/
def jsonWriteItems : Bool → List GglObject → Buffer → Except GglError Buffer
  | _, [], out => .ok out
  | first, item :: items, out => do
    let out ← jsonWriteComma capacity first out
    let out ← jsonWrite item out
    jsonWriteItems false items out

/-- The loop of `json_write_map`. -/
def jsonWritePairs : Bool → GglMap → Buffer → Except GglError Buffer
  | _, [], out => .ok out
  | first, (key, value) :: pairs, out => do
    let out ← jsonWriteComma capacity first out
    let out ← jsonWriteBuf capacity key out
    let out ← bufWrite capacity (gglStr ":") out
    let out ← jsonWrite value out
    jsonWritePairs false pairs out

end

/-- `ggl_json_encode` into a buffer of this capacity. -/
def gglJsonEncode (object : GglObject) : Except GglError Buffer :=
  jsonWrite capacity printG object []

end GreengrassLite.Json

import TrafficAnalyzer.Lib.Strtod
import TrafficAnalyzer.Server.Json

/-!
# The JSON parser (`third_party/cjson/cJSON.c`)

The text is a buffer with an offset. Where the source checks the bounds before it reads, the
read answers `none` outside the buffer and the check fails; where it does not check, a read
outside the buffer is a `fault`, and so is a write outside the block that `parse_string`
allocates. Memory is always there. The position of a parse error is left out, nothing reads it.
-/

namespace TrafficAnalyzer.Cjson

open LineProtocol Printf

/-- What a parse function leaves behind: `fail` is the answer `false`, and `ok` has the new
offset. -/
inductive Parsed (α : Type)
  | fault
  | fail
  | ok (a : α) (offset : Nat)
deriving DecidableEq

def Parsed.bind {α β : Type} (r : Parsed α) (k : α → Nat → Parsed β) : Parsed β :=
  match r with
  | .fault => .fault
  | .fail => .fail
  | .ok a offset => k a offset

def CJSON_NESTING_LIMIT : Nat := 1000

/-- `buffer_skip_whitespace`. At the end of the buffer it steps back by one. -/
def bufferSkipWhitespace (content : Bytes) (offset : Nat) : Nat :=
  if content.length ≤ offset then offset
  else
    let n := ((content.drop offset).takeWhile (· ≤ 32)).length
    if offset + n = content.length then offset + n - 1 else offset + n

/-- `skip_utf8_bom`, at the offset 0. -/
def skipUtf8Bom (content : Bytes) : Nat :=
  if 4 < content.length ∧ content.take 3 = [0xEF, 0xBB, 0xBF] then 3 else 0

/-! ## Numbers -/

/-- The bytes that `parse_number` copies for `strtod`. -/
def numberByte (c : UInt8) : Bool := isDigit c ∨ c = 43 ∨ c = 45 ∨ c = 101 ∨ c = 69 ∨ c = 46

/-- `parse_number`. -/
def parseNumber (content : Bytes) (offset : Nat) : Parsed Json :=
  let text := (content.drop offset).takeWhile numberByte
  match strtod text with
  | none => .fail
  | some (x, rest) => .ok (.number x) (offset + (text.length - rest.length))

/-! ## Strings -/

def hexValue (c : UInt8) : Option Nat :=
  if 48 ≤ c ∧ c ≤ 57 then some (c.toNat - 48)
  else if 65 ≤ c ∧ c ≤ 70 then some (10 + c.toNat - 65)
  else if 97 ≤ c ∧ c ≤ 102 then some (10 + c.toNat - 97)
  else none

/-- The loop of `parse_hex4` over the last `n` digits. -/
def hexLoop (content : Bytes) : Nat → Nat → Nat → Option Nat
  | 0, _, h => some h
  | n + 1, i, h => do
    let c ← content[i]?
    match hexValue c with
    | none => some 0
    | some d => hexLoop content n (i + 1) (if n = 0 then h + d else (h + d) <<< 4)

/-- `parse_hex4`, which answers 0 for what is not hexadecimal. -/
def parseHex4 (content : Bytes) (input : Nat) : Option Nat := hexLoop content 4 input 0

/-- The loop that writes the continuation bytes, the last one first: what is left of the code
point, and the bytes. -/
def utf8Tail : Nat → Nat → Bytes → Nat × Bytes
  | 0, codepoint, bytes => (codepoint, bytes)
  | n + 1, codepoint, bytes =>
    utf8Tail n (codepoint >>> 6) (UInt8.ofNat ((codepoint ||| 0x80) &&& 0xBF) :: bytes)

def utf8Bytes (length mark codepoint : Nat) : Bytes :=
  let (codepoint, bytes) := utf8Tail (length - 1) codepoint []
  UInt8.ofNat ((codepoint ||| mark) &&& 0xFF) :: bytes

def encodeUtf8 (codepoint : Nat) : Option Bytes :=
  if codepoint < 0x80 then some [UInt8.ofNat (codepoint &&& 0x7F)]
  else if codepoint < 0x800 then some (utf8Bytes 2 0xC0 codepoint)
  else if codepoint < 0x10000 then some (utf8Bytes 3 0xE0 codepoint)
  else if codepoint ≤ 0x10FFFF then some (utf8Bytes 4 0xF0 codepoint)
  else none

/-- `utf16_literal_to_utf8`: the bytes to write and the length of the sequence, or `some none`
for the answer 0. -/
def utf16LiteralToUtf8 (content : Bytes) (input inputEnd : Nat) :
    Option (Option (Bytes × Nat)) := do
  if inputEnd - input < 6 then some none
  else
    let firstCode ← parseHex4 content (input + 2)
    if 0xDC00 ≤ firstCode ∧ firstCode ≤ 0xDFFF then some none
    else if 0xD800 ≤ firstCode ∧ firstCode ≤ 0xDBFF then
      let secondSequence := input + 6
      if inputEnd - secondSequence < 6 then some none
      else
        let c ← content[secondSequence]?
        let u ← content[secondSequence + 1]?
        if c ≠ 92 ∨ u ≠ 117 then some none
        else
          let secondCode ← parseHex4 content (secondSequence + 2)
          if secondCode < 0xDC00 ∨ 0xDFFF < secondCode then some none
          else
            let codepoint := 0x10000 + ((firstCode &&& 0x3FF) <<< 10 ||| secondCode &&& 0x3FF)
            some ((encodeUtf8 codepoint).map fun bytes => (bytes, 12))
    else some ((encodeUtf8 firstCode).map fun bytes => (bytes, 6))

/-- The byte that a backslash and a letter stand for. -/
def unescaped (c : UInt8) : Option UInt8 :=
  if c = 98 then some 8
  else if c = 102 then some 12
  else if c = 110 then some 10
  else if c = 114 then some 13
  else if c = 116 then some 9
  else if c = 34 ∨ c = 92 ∨ c = 47 then some c
  else none

/-- The first loop of `parse_string`: the bytes before the closing quote, and how many of them
are the backslash of an escape. Every read is checked. -/
def closingQuote : Bytes → Option (Nat × Nat)
  | [] => none
  | 34 :: _ => some (0, 0)
  | 92 :: [] => none
  | 92 :: _ :: s => (closingQuote s).map fun r => (r.1 + 2, r.2 + 1)
  | _ :: s => (closingQuote s).map fun r => (r.1 + 1, r.2)

/-- The second loop of `parse_string`, with the bytes that are left in the allocated block. The
result is `none` for an access outside, and `some none` for `goto fail`. The fuel bounds the
rounds. -/
def unescape (content : Bytes) (inputEnd : Nat) : Nat → Nat → Nat → Option (Option Bytes)
  | 0, _, _ => none
  | fuel + 1, input, room =>
    let write (bytes : Bytes) (length : Nat) : Option (Option Bytes) :=
      if bytes.length ≤ room then
        (unescape content inputEnd fuel (input + length) (room - bytes.length)).map
          fun output => output.map fun s => bytes ++ s
      else none
    if inputEnd ≤ input then
      -- the terminating NUL
      if 0 < room then some (some []) else none
    else do
      let c ← content[input]?
      if c ≠ 92 then write [c] 1
      else
        let e ← content[input + 1]?
        if e = 117 then
          match ← utf16LiteralToUtf8 content input inputEnd with
          | none => some none
          | some (bytes, length) => write bytes length
        else
          match unescaped e with
          | none => some none
          | some b => write [b] 2

/-- `parse_string`: the bytes that it leaves in front of the terminating NUL. -/
def parseString (content : Bytes) (offset : Nat) : Parsed Bytes :=
  match content[offset]? with
  | none => .fault
  | some c =>
    if c ≠ 34 then .fail
    else
      match closingQuote (content.drop (offset + 1)) with
      | none => .fail
      | some (n, skippedBytes) =>
        let inputEnd := offset + 1 + n
        let allocationLength := inputEnd - offset - skippedBytes
        match unescape content inputEnd (n + 1) (offset + 1) (allocationLength + 1) with
        | none => .fault
        | some none => .fail
        | some (some output) => .ok output (inputEnd + 1)

/-! ## Values -/

section Values

variable (content : Bytes) (value : Nat → Parsed Json)

/-- The loop of `parse_array`, from the byte in front of an element to the closing bracket. -/
def parseElements : Nat → Nat → Parsed (List Json)
  | 0, _ => .fault
  | fuel + 1, offset =>
    (value (bufferSkipWhitespace content (offset + 1))).bind fun item offset =>
      let offset := bufferSkipWhitespace content offset
      if content[offset]? = some 44 then
        (parseElements fuel offset).bind fun items offset => .ok (item :: items) offset
      else if content[offset]? = some 93 then .ok [item] offset
      else .fail

/-- `parse_array`, below the nesting limit. -/
def parseArray (offset : Nat) : Parsed Json :=
  match content[offset]? with
  | none => .fault
  | some c =>
    if c ≠ 91 then .fail
    else
      let offset := bufferSkipWhitespace content (offset + 1)
      if content[offset]? = some 93 then .ok (.array []) (offset + 1)
      else if content.length ≤ offset then .fail
      else
        (parseElements content value content.length (offset - 1)).bind fun items offset =>
          .ok (.array items) (offset + 1)

/-- The loop of `parse_object`, from the byte in front of a name to the closing brace. -/
def parseMembers : Nat → Nat → Parsed (List (Bytes × Json))
  | 0, _ => .fault
  | fuel + 1, offset =>
    if content.length ≤ offset + 1 then .fail
    else
      (parseString content (bufferSkipWhitespace content (offset + 1))).bind fun name offset =>
        let offset := bufferSkipWhitespace content offset
        if content[offset]? ≠ some 58 then .fail
        else
          (value (bufferSkipWhitespace content (offset + 1))).bind fun item offset =>
            let offset := bufferSkipWhitespace content offset
            if content[offset]? = some 44 then
              (parseMembers fuel offset).bind fun members offset =>
                .ok ((name, item) :: members) offset
            else if content[offset]? = some 125 then .ok [(name, item)] offset
            else .fail

/-- `parse_object`, below the nesting limit. -/
def parseObject (offset : Nat) : Parsed Json :=
  if content[offset]? ≠ some 123 then .fail
  else
    let offset := bufferSkipWhitespace content (offset + 1)
    if content[offset]? = some 125 then .ok (.object []) (offset + 1)
    else if content.length ≤ offset then .fail
    else
      (parseMembers content value content.length (offset - 1)).bind fun members offset =>
        .ok (.object members) (offset + 1)

end Values

/-- The text at an offset starts with a word. -/
def startsWith (content : Bytes) (offset : Nat) (word : Bytes) : Bool :=
  word.isPrefixOf (content.drop offset)

/-- `parse_value`, with what it does for a bracket and for a brace. -/
def parseValueWith (content : Bytes) (array object : Nat → Parsed Json) (offset : Nat) :
    Parsed Json :=
  if startsWith content offset (ascii "null") then .ok .null (offset + 4)
  else if startsWith content offset (ascii "false") then .ok (.bool false) (offset + 5)
  else if startsWith content offset (ascii "true") then .ok (.bool true) (offset + 4)
  else
    match content[offset]? with
    | none => .fail
    | some c =>
      if c = 34 then (parseString content offset).bind fun s offset => .ok (.string s) offset
      else if c = 45 ∨ isDigit c then parseNumber content offset
      else if c = 91 then array offset
      else if c = 123 then object offset
      else .fail

/-- `parse_value`, where so many levels of arrays and objects may still be opened. -/
def parseValue (content : Bytes) : Nat → Nat → Parsed Json
  | 0 => parseValueWith content (fun _ => .fail) (fun _ => .fail)
  | limit + 1 =>
    parseValueWith content (parseArray content (parseValue content limit))
      (parseObject content (parseValue content limit))

/-- `cJSON_ParseWithLength`: `none` for a fault, and `some none` for the answer `NULL`. What
follows the value is not looked at. -/
def cJSONParseWithLength (value : Bytes) : Option (Option Json) :=
  if value = [] then some none
  else
    match parseValue value CJSON_NESTING_LIMIT
        (bufferSkipWhitespace value (skipUtf8Bom value)) with
    | .fault => none
    | .fail => some none
    | .ok item _ => some (some item)

/-- `cJSON_Parse`: the terminating NUL belongs to the buffer. -/
def cJSONParse (value : CStr) : Option (Option Json) := cJSONParseWithLength (value.val ++ [0])

end TrafficAnalyzer.Cjson

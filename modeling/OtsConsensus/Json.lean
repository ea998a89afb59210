import OtsConsensus.Bytes
import Mathlib.Data.Nat.Digits

/-!
# JSON text as `encoding/json` writes it

`OTSState.Encode` and `Snapshot.Encode` are `json.Marshal`. This file holds the value tree the
marshaller builds, `JsonValue`, and its compact rendering: no whitespace, fields in declaration
order, numbers in decimal, strings quoted as Go's `encodeState.string` does with HTML escaping.

Go strings are byte strings. The quoting copies valid UTF-8 through, escapes `"`, `\`, the
control characters, `<`, `>`, `&`, U+2028 and U+2029, and writes the escape of U+FFFD for every
byte that does not start a valid UTF-8 sequence (`utf8.DecodeRune` returning `RuneError, 1`).
-/

namespace Ots

/-- A JSON value; a number keeps its literal text. -/
inductive JsonValue where
  | null
  | bool (b : Bool)
  | number (literal : List UInt8)
  | string (s : GoString)
  | array (elems : List JsonValue)
  | object (fields : List (GoString × JsonValue))

/-- `strconv.AppendUint(dst, n, 10)`: the decimal digits of `n`, most significant first. -/
def decimal (n : Nat) : List UInt8 :=
  if n = 0 then [48] else (Nat.digits 10 n).reverse.map fun d => UInt8.ofNat (48 + d)

/-- A continuation byte `10xxxxxx` within `[lo, hi]`, as `utf8.DecodeRune` accepts it. -/
def contIn (lo hi : Nat) (b : UInt8) : Bool := lo ≤ b.toNat && b.toNat ≤ hi

/-- `utf8.DecodeRune` at a lead byte of at least `0x80`: the rune and the number of continuation
bytes it uses, `none` where Go returns `(RuneError, 1)`. -/
def decodeMultibyte (b0 : UInt8) (rest : List UInt8) : Option (Nat × Nat) :=
  let lead := b0.toNat
  let low (b : UInt8) := b.toNat % 64
  match rest with
  | b1 :: more =>
    if 0xC2 ≤ lead ∧ lead ≤ 0xDF then
      if contIn 0x80 0xBF b1 then some ((lead % 32) * 64 + low b1, 1) else none
    else if 0xE0 ≤ lead ∧ lead ≤ 0xEF then
      let lo := if lead = 0xE0 then 0xA0 else 0x80
      let hi := if lead = 0xED then 0x9F else 0xBF
      match more with
      | b2 :: _ =>
        if contIn lo hi b1 && contIn 0x80 0xBF b2 then
          some ((lead % 16) * 4096 + low b1 * 64 + low b2, 2)
        else none
      | [] => none
    else if 0xF0 ≤ lead ∧ lead ≤ 0xF4 then
      let lo := if lead = 0xF0 then 0x90 else 0x80
      let hi := if lead = 0xF4 then 0x8F else 0xBF
      match more with
      | b2 :: b3 :: _ =>
        if contIn lo hi b1 && contIn 0x80 0xBF b2 && contIn 0x80 0xBF b3 then
          some ((lead % 8) * 262144 + low b1 * 4096 + low b2 * 64 + low b3, 3)
        else none
      | _ => none
    else none
  | [] => none

/-- The escape `\uXXXX` of a code below `0x10000`. -/
def unicodeEscape (code : Nat) : List UInt8 :=
  [92, 117, hexDigit (code / 4096 % 16), hexDigit (code / 256 % 16), hexDigit (code / 16 % 16),
    hexDigit (code % 16)]

/-- How `encodeState.string` writes one ASCII byte. -/
def escapeAscii (b : UInt8) : List UInt8 :=
  if b = 34 ∨ b = 92 then [92, b]
  else if b = 8 then [92, 98]
  else if b = 12 then [92, 102]
  else if b = 10 then [92, 110]
  else if b = 13 then [92, 114]
  else if b = 9 then [92, 116]
  else if b < 32 ∨ b = 60 ∨ b = 62 ∨ b = 38 then unicodeEscape b.toNat
  else [b]

/-- The body of a JSON string literal for a Go string, as `encodeState.string` writes it. -/
def escapeString : List UInt8 → List UInt8
  | [] => []
  | b :: rest =>
    if b < 0x80 then escapeAscii b ++ escapeString rest
    else
      match decodeMultibyte b rest with
      | none => unicodeEscape 0xFFFD ++ escapeString rest
      | some (r, k) =>
        (if r = 0x2028 ∨ r = 0x2029 then unicodeEscape r else b :: rest.take k) ++
          escapeString (rest.drop k)
termination_by bs => bs.length
decreasing_by all_goals simp_wf; try omega

/-- A Go string as a JSON string literal. -/
def quote (s : GoString) : List UInt8 := [34] ++ escapeString s ++ [34]

mutual

/-- The compact text of a value, as `json.Marshal` writes it. -/
def JsonValue.render : JsonValue → List UInt8
  | .null => ascii "null"
  | .bool true => ascii "true"
  | .bool false => ascii "false"
  | .number literal => literal
  | .string s => quote s
  | .array elems => [91] ++ renderElems elems ++ [93]
  | .object fields => [123] ++ renderFields fields ++ [125]

/-- Array elements separated by commas. -/
def renderElems : List JsonValue → List UInt8
  | [] => []
  | v :: vs => v.render ++ renderElemsAfter vs

/-- The elements after the first, each preceded by a comma. -/
def renderElemsAfter : List JsonValue → List UInt8
  | [] => []
  | v :: vs => [44] ++ v.render ++ renderElemsAfter vs

/-- Object members `"key":value` separated by commas. -/
def renderFields : List (GoString × JsonValue) → List UInt8
  | [] => []
  | (k, v) :: fs => quote k ++ [58] ++ v.render ++ renderFieldsAfter fs

/-- The members after the first, each preceded by a comma. -/
def renderFieldsAfter : List (GoString × JsonValue) → List UInt8
  | [] => []
  | (k, v) :: fs => [44] ++ quote k ++ [58] ++ v.render ++ renderFieldsAfter fs

end

end Ots

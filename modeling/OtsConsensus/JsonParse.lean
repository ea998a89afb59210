import OtsConsensus.Json

/-!
# JSON text as `encoding/json` reads it

`json.Unmarshal` first checks the whole input with its scanner and then decodes it. The parser
here does both at once: `parseJson` accepts exactly the texts the scanner accepts (one value,
whitespace around it), and returns the value tree with each string unquoted as `unquoteBytes`
does: escapes decoded, `\uXXXX` surrogate pairs joined, a lone surrogate and every byte that does
not start valid UTF-8 replaced by U+FFFD, valid UTF-8 copied.

Nesting is bounded by a fuel argument; `parseJson` gives one unit per input byte, and every level
of nesting consumes at least one byte.

The main result is that the parser reads back what `JsonValue.render` writes
(`parseJson_render`): a value whose numbers are decimal literals comes back with each string
replaced by `utf8Sanitize` of it, the identity on valid UTF-8 (`scanString_escapeString`).
-/

namespace Ots

/-- A value as `json.Unmarshal` reads it. A string keeps the text between its quotes, which is
what a type with its own `UnmarshalJSON` receives, and its unquoted bytes. -/
inductive JsonTree where
  | null
  | bool (b : Bool)
  | number (literal : List UInt8)
  | string (raw : List UInt8) (s : GoString)
  | array (elems : List JsonTree)
  | object (fields : List (GoString × JsonTree))

/-! ## Strings -/

/-- `utf8.EncodeRune`: the UTF-8 bytes of a code point; U+FFFD for a surrogate or a value past
U+10FFFF. -/
def encodeRune (r : Nat) : List UInt8 :=
  if r < 0x80 then [UInt8.ofNat r]
  else if r < 0x800 then [UInt8.ofNat (0xC0 + r / 64), UInt8.ofNat (0x80 + r % 64)]
  else if (0xD800 ≤ r ∧ r < 0xE000) ∨ 0x10FFFF < r then [0xEF, 0xBF, 0xBD]
  else if r < 0x10000 then
    [UInt8.ofNat (0xE0 + r / 4096), UInt8.ofNat (0x80 + r / 64 % 64), UInt8.ofNat (0x80 + r % 64)]
  else
    [UInt8.ofNat (0xF0 + r / 262144), UInt8.ofNat (0x80 + r / 4096 % 64),
      UInt8.ofNat (0x80 + r / 64 % 64), UInt8.ofNat (0x80 + r % 64)]

/-- `unhex`: the value of a hexadecimal digit, either case, the test of `hexValue`. -/
def hexNibble (c : UInt8) : Option Nat := hexValue c

/-- `getu4`: the value of four hexadecimal digits. -/
def hex4 (a b c d : UInt8) : Option Nat := do
  let a ← hexNibble a
  let b ← hexNibble b
  let c ← hexNibble c
  let d ← hexNibble d
  pure (((a * 16 + b) * 16 + c) * 16 + d)

/-- The byte a one-character escape `\e` stands for. -/
def simpleEscape (e : UInt8) : Option UInt8 :=
  if e = 34 ∨ e = 92 ∨ e = 47 then some e
  else if e = 98 then some 8
  else if e = 102 then some 12
  else if e = 110 then some 10
  else if e = 114 then some 13
  else if e = 116 then some 9
  else none

/-- Prepend bytes to the unquoted part of a scan result. -/
def consBytes (bs : List UInt8) (r : Option (List UInt8 × List UInt8)) :
    Option (List UInt8 × List UInt8) :=
  r.map fun p => (bs ++ p.1, p.2)

/-- A string literal after its opening quote, as the scanner checks it and `unquoteBytes` decodes
it: the unquoted bytes and the input after the closing quote. -/
def scanString : List UInt8 → Option (List UInt8 × List UInt8)
  | [] => none
  | 34 :: rest => some ([], rest)
  | 92 :: 117 :: a :: b :: c :: d :: rest =>
    match hex4 a b c d with
    | none => none
    | some u =>
      if 0xD800 ≤ u ∧ u < 0xDC00 then
        match _hrest : rest with
        | 92 :: 117 :: a' :: b' :: c' :: d' :: rest' =>
          match hex4 a' b' c' d' with
          | none => none
          | some u' =>
            if 0xDC00 ≤ u' ∧ u' < 0xE000 then
              consBytes (encodeRune ((u - 0xD800) * 1024 + (u' - 0xDC00) + 0x10000))
                (scanString rest')
            else consBytes (encodeRune 0xFFFD) (scanString rest)
        | _ => consBytes (encodeRune 0xFFFD) (scanString rest)
      else consBytes (encodeRune (if u < 0xE000 ∧ 0xDC00 ≤ u then 0xFFFD else u)) (scanString rest)
  | 92 :: e :: rest =>
    match simpleEscape e with
    | some b => consBytes [b] (scanString rest)
    | none => none
  | c :: rest =>
    if c < 0x20 ∨ c = 92 then none
    else if c < 0x80 then consBytes [c] (scanString rest)
    else
      match decodeMultibyte c rest with
      | some (_, k) => consBytes (c :: rest.take k) (scanString (rest.drop k))
      | none => consBytes (encodeRune 0xFFFD) (scanString rest)
termination_by s => s.length
decreasing_by all_goals simp_wf; all_goals (try subst _hrest); all_goals (try simp); all_goals omega

/-- What quoting and unquoting leave of a Go string: valid UTF-8 kept, every byte that does not
start valid UTF-8 replaced by the bytes of U+FFFD. -/
def utf8Sanitize : List UInt8 → List UInt8
  | [] => []
  | b :: rest =>
    if b < 0x80 then b :: utf8Sanitize rest
    else
      match decodeMultibyte b rest with
      | some (_, k) => (b :: rest.take k) ++ utf8Sanitize (rest.drop k)
      | none => [0xEF, 0xBF, 0xBD] ++ utf8Sanitize rest
termination_by bs => bs.length
decreasing_by all_goals simp_wf; try omega

/-- `utf8.Valid(s)`: every byte of `s` is ASCII or starts a sequence `utf8.DecodeRune` accepts. -/
def validUTF8 : List UInt8 → Bool
  | [] => true
  | b :: rest =>
    if b < 0x80 then validUTF8 rest
    else
      match decodeMultibyte b rest with
      | some (_, k) => validUTF8 (rest.drop k)
      | none => false
termination_by bs => bs.length
decreasing_by all_goals simp_wf; try omega

/-! ## Numbers -/

/-- An ASCII digit. -/
def isDigit (c : UInt8) : Bool := 48 ≤ c.toNat && c.toNat ≤ 57

/-- One or more digits. -/
def scanDigits (s : List UInt8) : Option (List UInt8 × List UInt8) :=
  if s.takeWhile isDigit = [] then none else some (s.takeWhile isDigit, s.dropWhile isDigit)

/-- The integer part: `0`, or a digit `1`–`9` and more digits. -/
def scanInt : List UInt8 → Option (List UInt8 × List UInt8)
  | 48 :: rest => some ([48], rest)
  | s => scanDigits s

/-- An optional fraction `.` digits. -/
def scanFrac : List UInt8 → Option (List UInt8 × List UInt8)
  | 46 :: rest => (scanDigits rest).map fun p => (46 :: p.1, p.2)
  | s => some ([], s)

/-- An optional exponent `e` or `E`, a sign, digits. -/
def scanExp : List UInt8 → Option (List UInt8 × List UInt8)
  | e :: rest =>
    if e = 101 ∨ e = 69 then
      match rest with
      | 43 :: r => (scanDigits r).map fun p => (e :: 43 :: p.1, p.2)
      | 45 :: r => (scanDigits r).map fun p => (e :: 45 :: p.1, p.2)
      | r => (scanDigits r).map fun p => (e :: p.1, p.2)
    else some ([], e :: rest)
  | [] => some ([], [])

/-- An optional minus sign. -/
def scanSign : List UInt8 → List UInt8 × List UInt8
  | 45 :: rest => ([45], rest)
  | s => ([], s)

/-- A number literal at the head of the input: `-? int frac? exp?`. -/
def scanNumber (s : List UInt8) : Option (List UInt8 × List UInt8) :=
  (scanInt (scanSign s).2).bind fun i => (scanFrac i.2).bind fun f => (scanExp f.2).map fun e =>
    ((scanSign s).1 ++ i.1 ++ f.1 ++ e.1, e.2)

/-! ## Values -/

/-- JSON whitespace: space, tab, line feed, carriage return. -/
def isSpace (c : UInt8) : Bool := c == 32 || c == 9 || c == 10 || c == 13

/-- The input after leading whitespace. -/
def skipSpace (s : List UInt8) : List UInt8 := s.dropWhile isSpace

mutual

/-- A value, after optional whitespace; the value and the input after it. -/
def parseValue : Nat → List UInt8 → Option (JsonTree × List UInt8)
  | 0, _ => none
  | fuel + 1, s =>
    match skipSpace s with
    | 110 :: 117 :: 108 :: 108 :: rest => some (.null, rest)
    | 116 :: 114 :: 117 :: 101 :: rest => some (.bool true, rest)
    | 102 :: 97 :: 108 :: 115 :: 101 :: rest => some (.bool false, rest)
    | 34 :: rest =>
      (scanString rest).map fun p => (.string (rest.take (rest.length - p.2.length - 1)) p.1, p.2)
    | 91 :: rest =>
      match skipSpace rest with
      | 93 :: rest' => some (.array [], rest')
      | _ => (parseElems fuel rest).map fun p => (.array p.1, p.2)
    | 123 :: rest =>
      match skipSpace rest with
      | 125 :: rest' => some (.object [], rest')
      | _ => (parseFields fuel rest).map fun p => (.object p.1, p.2)
    | t => (scanNumber t).map fun p => (.number p.1, p.2)

/-- Array elements after `[`, the array not empty: values separated by commas, then `]`. -/
def parseElems : Nat → List UInt8 → Option (List JsonTree × List UInt8)
  | 0, _ => none
  | fuel + 1, s =>
    (parseValue fuel s).bind fun p =>
      match skipSpace p.2 with
      | 44 :: rest => (parseElems fuel rest).map fun q => (p.1 :: q.1, q.2)
      | 93 :: rest => some ([p.1], rest)
      | _ => none

/-- Object members after `{`, the object not empty: `"key": value` separated by commas, then
`}`. -/
def parseFields : Nat → List UInt8 → Option (List (GoString × JsonTree) × List UInt8)
  | 0, _ => none
  | fuel + 1, s =>
    match skipSpace s with
    | 34 :: rest =>
      (scanString rest).bind fun k =>
        match skipSpace k.2 with
        | 58 :: rest' =>
          (parseValue fuel rest').bind fun p =>
            match skipSpace p.2 with
            | 44 :: rest'' => (parseFields fuel rest'').map fun q => ((k.1, p.1) :: q.1, q.2)
            | 125 :: rest'' => some ([(k.1, p.1)], rest'')
            | _ => none
        | _ => none
    | _ => none

end

/-- The scanner's check and the decoder's parse of a whole input: one value and whitespace. -/
def parseJson (s : List UInt8) : Option JsonTree :=
  match parseValue (s.length + 1) s with
  | some (v, rest) => if skipSpace rest = [] then some v else none
  | none => none

/-! ## Unquoting what the marshaller quotes

`scanString` reads back `escapeString` one piece at a time: an ASCII byte's escape gives the
byte (`scanString_escapeAscii`), a `\uXXXX` escape of a non-surrogate gives the rune's UTF-8
(`scanString_unicodeEscape`), and a valid multi-byte sequence is copied. -/

/-- A digit `hexDigit` writes unquotes as its nibble. -/
theorem hexNibble_hexDigit {n : Nat} (h : n < 16) : hexNibble (hexDigit n) = some n :=
  hexValue_hexDigit h

/-- The four digits of a `\uXXXX` escape read back as its code. -/
theorem hex4_unicodeEscape {code : Nat} (h : code < 0x10000) :
    hex4 (hexDigit (code / 4096 % 16)) (hexDigit (code / 256 % 16)) (hexDigit (code / 16 % 16))
      (hexDigit (code % 16)) = some code := by
  simp only [hex4, hexNibble_hexDigit (Nat.mod_lt _ (by omega : 16 > 0))]
  show some _ = _
  congr 1
  omega

/-- A printable ASCII byte other than a quote or a backslash stands for itself. -/
theorem scanString_ascii {c : UInt8} (h34 : c ≠ 34) (h92 : c ≠ 92) (h32 : ¬c < 32) (h : c < 128)
    (rest : List UInt8) : scanString (c :: rest) = consBytes [c] (scanString rest) := by
  rw [scanString.eq_5 c rest h34 (fun _ _ _ _ _ h _ => h92 h) (fun _ _ h _ => h92 h),
    if_neg (by tauto), if_pos h]

/-- A lead byte of a valid multi-byte sequence: the sequence is copied. -/
theorem scanString_multibyte {c : UInt8} {rest : List UInt8} {r k : Nat} (h : ¬c < 128)
    (hd : decodeMultibyte c rest = some (r, k)) :
    scanString (c :: rest) = consBytes (c :: rest.take k) (scanString (rest.drop k)) := by
  have hc : 128 ≤ c.toNat := Nat.le_of_not_lt h
  have h92 : c ≠ 92 := fun e => by subst e; exact absurd hc (by decide)
  rw [scanString.eq_5 c rest (fun e => by subst e; exact absurd hc (by decide))
    (fun _ _ _ _ _ h _ => h92 h) (fun _ _ h _ => h92 h),
    if_neg (fun e => e.elim (fun e => absurd (show c.toNat < 32 from e) (by omega)) h92),
    if_neg h, hd]

/-- A one-character escape other than `\u`. -/
theorem scanString_simple {e : UInt8} (hu : e ≠ 117) (rest : List UInt8) :
    scanString (92 :: e :: rest) =
      match simpleEscape e with
      | some b => consBytes [b] (scanString rest)
      | none => none :=
  scanString.eq_4 e rest (fun _ _ _ _ _ h _ => hu h)

/-- Unquoting a `\uXXXX` escape of a code outside the surrogates gives the code's UTF-8. -/
theorem scanString_unicodeEscape {code : Nat} (hc : code < 0x10000)
    (hs : ¬(0xD800 ≤ code ∧ code < 0xE000)) (rest : List UInt8) :
    scanString (unicodeEscape code ++ rest) = consBytes (encodeRune code) (scanString rest) := by
  rw [unicodeEscape, List.cons_append, List.cons_append, List.cons_append, List.cons_append,
    List.cons_append, List.cons_append, List.nil_append, scanString.eq_3, hex4_unicodeEscape hc]
  simp only [if_neg (show ¬(0xD800 ≤ code ∧ code < 0xDC00) by omega),
    if_neg (show ¬(code < 0xE000 ∧ 0xDC00 ≤ code) by omega)]

/-- An ASCII rune is its own byte. -/
theorem encodeRune_ascii {b : UInt8} (h : b < 128) : encodeRune b.toNat = [b] := by
  have hlt : b.toNat < 128 := h
  rw [encodeRune, if_pos hlt]
  exact congrArg (· :: []) (UInt8.toNat.inj (by rw [toNat_uint8_ofNat]; omega))

/-- Unquoting the escape of an ASCII byte gives the byte. -/
theorem scanString_escapeAscii {b : UInt8} (h : b < 128) (rest : List UInt8) :
    scanString (escapeAscii b ++ rest) = consBytes [b] (scanString rest) := by
  have hlt : b.toNat < 128 := h
  have simple : ∀ e, e ≠ 117 → simpleEscape e = some b →
      scanString ([92, e] ++ rest) = consBytes [b] (scanString rest) := fun e hu hs => by
    rw [List.cons_append, List.cons_append, List.nil_append, scanString_simple hu, hs]
  have escape : ∀ (k e : UInt8) (other : List UInt8), e ≠ 117 → simpleEscape e = some k →
      (b ≠ k → scanString (other ++ rest) = consBytes [b] (scanString rest)) →
      scanString ((if b = k then [92, e] else other) ++ rest) = consBytes [b] (scanString rest) := by
    intro k e other hu hs ho
    by_cases hk : b = k
    · rw [if_pos hk]; subst hk; exact simple e hu hs
    · rw [if_neg hk]; exact ho hk
  unfold escapeAscii
  by_cases h1 : b = 34 ∨ b = 92
  · rw [if_pos h1]
    rcases h1 with rfl | rfl
    · exact simple 34 (by decide) rfl
    · exact simple 92 (by decide) rfl
  rw [if_neg h1]
  refine escape 8 98 _ (by decide) rfl fun _ => escape 12 102 _ (by decide) rfl fun _ =>
    escape 10 110 _ (by decide) rfl fun _ => escape 13 114 _ (by decide) rfl fun _ =>
    escape 9 116 _ (by decide) rfl fun _ => ?_
  by_cases h7 : b < 32 ∨ b = 60 ∨ b = 62 ∨ b = 38
  · rw [if_pos h7, scanString_unicodeEscape (by omega) (by omega), encodeRune_ascii h]
  · rw [if_neg h7, List.singleton_append, scanString_ascii (fun e => h1 (.inl e))
      (fun e => h1 (.inr e)) (fun e => h7 (.inl e)) h]

/-! ### Multi-byte sequences -/

/-- The sequences `utf8.DecodeRune` accepts after a lead byte `b`: `k` continuation bytes, each in
its range, and the rune `r` they encode. -/
def MultibyteSeq (b : UInt8) (rest : List UInt8) (r k : Nat) : Prop :=
  (∃ b1 more, rest = b1 :: more ∧ k = 1 ∧ 0xC2 ≤ b.toNat ∧ b.toNat ≤ 0xDF ∧
    0x80 ≤ b1.toNat ∧ b1.toNat ≤ 0xBF ∧ r = b.toNat % 32 * 64 + b1.toNat % 64) ∨
  (∃ b1 b2 more, rest = b1 :: b2 :: more ∧ k = 2 ∧ 0xE0 ≤ b.toNat ∧ b.toNat ≤ 0xEF ∧
    (b.toNat = 0xE0 → 0xA0 ≤ b1.toNat) ∧ (b.toNat = 0xED → b1.toNat ≤ 0x9F) ∧
    0x80 ≤ b1.toNat ∧ b1.toNat ≤ 0xBF ∧ 0x80 ≤ b2.toNat ∧ b2.toNat ≤ 0xBF ∧
    r = b.toNat % 16 * 4096 + b1.toNat % 64 * 64 + b2.toNat % 64) ∨
  (∃ b1 b2 b3 more, rest = b1 :: b2 :: b3 :: more ∧ k = 3 ∧ 0xF0 ≤ b.toNat ∧ b.toNat ≤ 0xF4 ∧
    (b.toNat = 0xF0 → 0x90 ≤ b1.toNat) ∧ (b.toNat = 0xF4 → b1.toNat ≤ 0x8F) ∧
    0x80 ≤ b1.toNat ∧ b1.toNat ≤ 0xBF ∧ 0x80 ≤ b2.toNat ∧ b2.toNat ≤ 0xBF ∧
    0x80 ≤ b3.toNat ∧ b3.toNat ≤ 0xBF ∧
    r = b.toNat % 8 * 262144 + b1.toNat % 64 * 4096 + b2.toNat % 64 * 64 + b3.toNat % 64)

/-- What `decodeMultibyte` accepts is a well-formed sequence. -/
theorem decodeMultibyte_cases {b : UInt8} {rest : List UInt8} {r k : Nat}
    (h : decodeMultibyte b rest = some (r, k)) : MultibyteSeq b rest r k := by
  rcases rest with _ | ⟨b1, more⟩
  · cases h
  simp only [decodeMultibyte, contIn, Bool.and_eq_true, decide_eq_true_eq] at h
  by_cases hA : 0xC2 ≤ b.toNat ∧ b.toNat ≤ 0xDF
  · rw [if_pos hA, Option.ite_none_right_eq_some, Option.some.injEq, Prod.mk.injEq] at h
    obtain ⟨hc, rfl, rfl⟩ := h
    exact .inl ⟨b1, more, rfl, rfl, hA.1, hA.2, hc.1, hc.2, rfl⟩
  rw [if_neg hA] at h
  by_cases hB : 0xE0 ≤ b.toNat ∧ b.toNat ≤ 0xEF
  · rw [if_pos hB] at h
    rcases more with _ | ⟨b2, more⟩
    · cases h
    rw [Option.ite_none_right_eq_some, Option.some.injEq, Prod.mk.injEq] at h
    obtain ⟨⟨⟨hlo, hhi⟩, h3, h4⟩, rfl, rfl⟩ := h
    refine .inr (.inl ⟨b1, b2, more, rfl, rfl, hB.1, hB.2, fun e => ?_, fun e => ?_, ?_, ?_, h3,
      h4, rfl⟩) <;> split_ifs at hlo hhi <;> omega
  rw [if_neg hB] at h
  by_cases hD : 0xF0 ≤ b.toNat ∧ b.toNat ≤ 0xF4
  · rw [if_pos hD] at h
    rcases more with _ | ⟨b2, _ | ⟨b3, more⟩⟩
    · cases h
    · cases h
    rw [Option.ite_none_right_eq_some, Option.some.injEq, Prod.mk.injEq] at h
    obtain ⟨⟨⟨⟨hlo, hhi⟩, h3, h4⟩, h5, h6⟩, rfl, rfl⟩ := h
    refine .inr (.inr ⟨b1, b2, b3, more, rfl, rfl, hD.1, hD.2, fun e => ?_, fun e => ?_, ?_, ?_,
      h3, h4, h5, h6, rfl⟩) <;> split_ifs at hlo hhi <;> omega
  rw [if_neg hD] at h
  cases h

/-- A well-formed sequence is accepted by `decodeMultibyte`. -/
theorem decodeMultibyte_of_seq {b : UInt8} {rest : List UInt8} {r k : Nat}
    (h : MultibyteSeq b rest r k) : decodeMultibyte b rest = some (r, k) := by
  rcases h with ⟨b1, more, rfl, rfl, h1, h2, h3, h4, rfl⟩ |
    ⟨b1, b2, more, rfl, rfl, h1, h2, hlo, hhi, h3, h4, h5, h6, rfl⟩ |
    ⟨b1, b2, b3, more, rfl, rfl, h1, h2, hlo, hhi, h3, h4, h5, h6, h7, h8, rfl⟩ <;>
  simp only [decodeMultibyte, contIn, Bool.and_eq_true, decide_eq_true_eq]
  · rw [if_pos ⟨h1, h2⟩, if_pos ⟨h3, h4⟩]
  · rw [if_neg (by omega), if_pos ⟨h1, h2⟩, if_pos (by split_ifs <;> omega)]
  · rw [if_neg (by omega), if_neg (by omega), if_pos ⟨h1, h2⟩, if_pos (by split_ifs <;> omega)]

/-- Accepting a sequence reads only its own continuation bytes. -/
theorem decodeMultibyte_take_append {b : UInt8} {rest : List UInt8} {r k : Nat}
    (h : decodeMultibyte b rest = some (r, k)) (t : List UInt8) :
    decodeMultibyte b (rest.take k ++ t) = some (r, k) := by
  apply decodeMultibyte_of_seq
  rcases decodeMultibyte_cases h with ⟨b1, more, rfl, rfl, hc⟩ | ⟨b1, b2, more, rfl, rfl, hc⟩ |
    ⟨b1, b2, b3, more, rfl, rfl, hc⟩
  · exact .inl ⟨b1, t, rfl, rfl, hc⟩
  · exact .inr (.inl ⟨b1, b2, t, rfl, rfl, hc⟩)
  · exact .inr (.inr ⟨b1, b2, b3, t, rfl, rfl, hc⟩)

/-- The continuation bytes of an accepted sequence are in the input. -/
theorem decodeMultibyte_length {b : UInt8} {rest : List UInt8} {r k : Nat}
    (h : decodeMultibyte b rest = some (r, k)) : k ≤ rest.length := by
  rcases decodeMultibyte_cases h with ⟨_, _, rfl, rfl, -⟩ | ⟨_, _, _, rfl, rfl, -⟩ |
    ⟨_, _, _, _, rfl, rfl, -⟩ <;> simp

/-- A byte made from a number with the byte's value modulo 256 is that byte. -/
theorem u8_ofNat_eq {x : Nat} {c : UInt8} (h : x % 256 = c.toNat) : UInt8.ofNat x = c :=
  UInt8.toNat.inj (by rw [toNat_uint8_ofNat, h])

/-- **`EncodeRune` inverts `DecodeRune`**: the rune of an accepted sequence encodes to the same
bytes. -/
theorem encodeRune_of_decodeMultibyte {b : UInt8} {rest : List UInt8} {r k : Nat}
    (h : decodeMultibyte b rest = some (r, k)) : encodeRune r = b :: rest.take k := by
  rcases decodeMultibyte_cases h with ⟨b1, more, rfl, rfl, hc⟩ | ⟨b1, b2, more, rfl, rfl, hc⟩ |
    ⟨b1, b2, b3, more, rfl, rfl, hc⟩
  · rw [encodeRune, if_neg (by omega), if_pos (by omega)]
    simp only [List.take, List.cons.injEq, and_true]
    refine ⟨u8_ofNat_eq ?_, u8_ofNat_eq ?_⟩ <;> omega
  · rw [encodeRune, if_neg (by omega), if_neg (by omega), if_neg (by omega), if_pos (by omega)]
    simp only [List.take, List.cons.injEq, and_true]
    refine ⟨u8_ofNat_eq ?_, u8_ofNat_eq ?_, u8_ofNat_eq ?_⟩ <;> omega
  · rw [encodeRune, if_neg (by omega), if_neg (by omega), if_neg (by omega), if_neg (by omega)]
    simp only [List.take, List.cons.injEq, and_true]
    refine ⟨u8_ofNat_eq ?_, u8_ofNat_eq ?_, u8_ofNat_eq ?_, u8_ofNat_eq ?_⟩ <;> omega


/-- ASCII text comes through quoting and unquoting unchanged. -/
theorem utf8Sanitize_ascii {s : List UInt8} (h : ∀ c ∈ s, c < 128) : utf8Sanitize s = s := by
  induction s with
  | nil => exact utf8Sanitize.eq_1
  | cons c s ih =>
    rw [utf8Sanitize.eq_2, if_pos (h c (List.mem_cons_self c s)),
      ih fun x hx => h x (List.mem_cons_of_mem c hx)]

/-- Valid UTF-8 is what quoting and unquoting leave unchanged. -/
theorem utf8Sanitize_of_validUTF8 {s : List UInt8} (h : validUTF8 s = true) :
    utf8Sanitize s = s := by
  induction s using validUTF8.induct with
  | case1 => exact utf8Sanitize.eq_1
  | case2 b rest hb ih =>
    rw [validUTF8, if_pos hb] at h
    rw [utf8Sanitize.eq_2, if_pos hb, ih h]
  | case3 b rest hb r k hd ih =>
    rw [validUTF8, if_neg hb, hd] at h
    rw [utf8Sanitize.eq_2, if_neg hb, hd]
    dsimp only at h ⊢
    rw [ih h, List.cons_append, List.take_append_drop]
  | case4 b rest hb hd =>
    rw [validUTF8, if_neg hb, hd] at h
    cases h

/-- **Unquoting reads back quoting**: the scanner, run on the escaped bytes of a Go string and a
closing quote, returns the string with every invalid byte replaced by U+FFFD, and the input after
the quote. -/
theorem scanString_escapeString (s rest : List UInt8) :
    scanString (escapeString s ++ 34 :: rest) = some (utf8Sanitize s, rest) := by
  induction s using escapeString.induct with
  | case1 => rw [escapeString, List.nil_append, scanString.eq_2, utf8Sanitize]
  | case2 b s hb ih =>
    rw [escapeString.eq_2, if_pos hb, List.append_assoc, scanString_escapeAscii hb, ih,
      utf8Sanitize.eq_2, if_pos hb]
    rfl
  | case3 b s hb hd ih =>
    rw [escapeString.eq_2, if_neg hb, hd, List.append_assoc,
      scanString_unicodeEscape (by norm_num) (by norm_num), ih, utf8Sanitize.eq_2, if_neg hb, hd]
    rfl
  | case4 b s hb r k hd ih =>
    have hk := decodeMultibyte_length hd
    rw [escapeString.eq_2, if_neg hb, hd, utf8Sanitize.eq_2, if_neg hb, hd]
    dsimp only
    split_ifs with hr
    · rw [List.append_assoc, scanString_unicodeEscape (by omega) (by omega), ih,
        encodeRune_of_decodeMultibyte hd]
      rfl
    · simp only [List.cons_append, List.append_assoc]
      rw [scanString_multibyte hb (decodeMultibyte_take_append hd _), List.take_append_of_le_length (by simp; omega), List.take_take, min_self,
        List.drop_append_of_le_length (by simp; omega), List.drop_take, Nat.sub_self, List.take_zero,
        List.nil_append, ih]
      rfl

/-! ## Reading back decimal numbers -/

/-- What may follow a value in the marshaller's text: nothing, a comma, or a closing bracket. -/
def Delimited (rest : List UInt8) : Prop := ∀ c ∈ rest.head?, c = 44 ∨ c = 93 ∨ c = 125

/-- What may follow a number: nothing, a comma, a closing bracket or a closing brace. -/
theorem Delimited.cases {rest : List UInt8} (h : Delimited rest) :
    rest = [] ∨ ∃ r, rest = 44 :: r ∨ rest = 93 :: r ∨ rest = 125 :: r := by
  rcases rest with _ | ⟨c, r⟩
  · exact .inl rfl
  · rcases h c rfl with rfl | rfl | rfl <;> simp

/-- Every byte of a decimal number is a digit. -/
theorem isDigit_decimal (n : Nat) : ∀ c ∈ decimal n, isDigit c = true := by
  unfold decimal
  split_ifs
  · decide
  · simp only [List.mem_map, List.mem_reverse, forall_exists_index, and_imp]
    rintro _ d hd rfl
    have := Nat.digits_lt_base (by norm_num) hd
    simp only [isDigit, toNat_uint8_ofNat, Bool.and_eq_true, decide_eq_true_eq]
    omega

/-- A positive number's text starts with a digit other than `0`. -/
theorem decimal_cons {n : Nat} (h : n ≠ 0) : ∃ c cs, decimal n = c :: cs ∧ c ≠ 48 := by
  have hne : (Nat.digits 10 n).reverse ≠ [] := by simpa using Nat.digits_ne_nil_iff_ne_zero.mpr h
  obtain ⟨d, ds, hds⟩ := List.exists_cons_of_ne_nil hne
  have hd : d ≠ 0 := by
    have := Nat.getLast_digit_ne_zero 10 h
    rw [← List.head_reverse hne] at this
    simpa [hds] using this
  have hd10 : d < 10 := Nat.digits_lt_base (by norm_num) (List.mem_reverse.mp (hds ▸ List.mem_cons_self d ds))
  refine ⟨_, _, by rw [decimal, if_neg h, hds, List.map_cons], fun e => hd ?_⟩
  have := congrArg UInt8.toNat e
  rw [toNat_uint8_ofNat] at this
  have h48 : (48 : UInt8).toNat = 48 := rfl
  omega

/-- The integer scanner reads a decimal number up to the delimiter after it. -/
theorem scanInt_decimal (n : Nat) {rest : List UInt8} (hr : Delimited rest) :
    scanInt (decimal n ++ rest) = some (decimal n, rest) := by
  have htake : rest.takeWhile isDigit = [] ∧ rest.dropWhile isDigit = rest := by
    rcases hr.cases with rfl | ⟨r, rfl | rfl | rfl⟩ <;> exact ⟨rfl, rfl⟩
  by_cases h0 : n = 0
  · subst h0; rfl
  · obtain ⟨c, cs, hcs, hc⟩ := decimal_cons h0
    have hne : ∀ r, decimal n ++ rest = 48 :: r → False := fun r e => by
      rw [hcs, List.cons_append] at e; exact hc (List.cons.inj e).1
    rw [scanInt.eq_2 _ hne,
      scanDigits, List.takeWhile_append_of_pos (isDigit_decimal n), List.dropWhile_append_of_pos (isDigit_decimal n),
      htake.1, htake.2, List.append_nil, if_neg (by simp [hcs])]

/-- The number scanner reads a decimal number up to the delimiter after it. -/
theorem scanNumber_decimal (n : Nat) {rest : List UInt8} (hr : Delimited rest) :
    scanNumber (decimal n ++ rest) = some (decimal n, rest) := by
  have hfe : scanFrac rest = some ([], rest) ∧ scanExp rest = some ([], rest) := by
    rcases hr.cases with rfl | ⟨r, rfl | rfl | rfl⟩ <;> exact ⟨rfl, rfl⟩
  have hint := scanInt_decimal n hr
  have hdig := isDigit_decimal n
  obtain ⟨c, cs, hcs⟩ : ∃ c cs, decimal n = c :: cs := by
    unfold decimal; split_ifs
    · exact ⟨_, _, rfl⟩
    · exact List.exists_cons_of_ne_nil (by simpa using Nat.digits_ne_nil_iff_ne_zero.mpr ‹_›)
  have hsign : scanSign (decimal n ++ rest) = ([], decimal n ++ rest) :=
    scanSign.eq_2 _ fun r e => by
      rw [hcs, List.cons_append] at e
      have := hdig c (hcs ▸ List.mem_cons_self c cs)
      rw [(List.cons.inj e).1] at this
      exact absurd this (by decide)
  simp only [scanNumber, hsign, hint, Option.some_bind, hfe.1, hfe.2, Option.map_some',
    List.nil_append, List.append_nil]

/-! ## Values -/

mutual

/-- The tree `json.Unmarshal` reads from a value's text: each string's literal body is its
escaped bytes, and its unquoted bytes are the string sanitized. -/
def JsonValue.parsed : JsonValue → JsonTree
  | .null => .null
  | .bool b => .bool b
  | .number literal => .number literal
  | .string s => .string (escapeString s) (utf8Sanitize s)
  | .array elems => .array (parsedElems elems)
  | .object fields => .object (parsedFields fields)

/-- `JsonValue.parsed` of each element. -/
def parsedElems : List JsonValue → List JsonTree
  | [] => []
  | v :: vs => v.parsed :: parsedElems vs

/-- `JsonValue.parsed` of each member, with its key sanitized. -/
def parsedFields : List (GoString × JsonValue) → List (GoString × JsonTree)
  | [] => []
  | (k, v) :: fs => (utf8Sanitize k, v.parsed) :: parsedFields fs

end

mutual

/-- The fuel `parseValue` needs for a value: one unit per value and per element or member. -/
def JsonValue.size : JsonValue → Nat
  | .array elems => 1 + sizeElems elems
  | .object fields => 1 + sizeFields fields
  | _ => 1

/-- The fuel for a list of elements. -/
def sizeElems : List JsonValue → Nat
  | [] => 0
  | v :: vs => 1 + v.size + sizeElems vs

/-- The fuel for a list of members. -/
def sizeFields : List (GoString × JsonValue) → Nat
  | [] => 0
  | (_, v) :: fs => 1 + v.size + sizeFields fs

end

mutual

/-- Every number of the value is the text of a natural number, as the marshaller writes an
unsigned integer. -/
def JsonValue.DecimalNumbers : JsonValue → Prop
  | .number literal => ∃ n, literal = decimal n
  | .array elems => ElemsDecimal elems
  | .object fields => FieldsDecimal fields
  | _ => True

/-- `JsonValue.DecimalNumbers` of each element. -/
def ElemsDecimal : List JsonValue → Prop
  | [] => True
  | v :: vs => v.DecimalNumbers ∧ ElemsDecimal vs

/-- `JsonValue.DecimalNumbers` of each member. -/
def FieldsDecimal : List (GoString × JsonValue) → Prop
  | [] => True
  | (_, v) :: fs => v.DecimalNumbers ∧ FieldsDecimal fs

end

/-- Skipping space stops at a byte that is not space. -/
theorem skipSpace_cons {c : UInt8} (h : isSpace c = false) (s : List UInt8) :
    skipSpace (c :: s) = c :: s :=
  List.dropWhile_cons_of_neg (by simp [h])

/-- A digit opens no other kind of value, and is no space and no closing bracket. -/
theorem digit_facts {c : UInt8} (h : isDigit c = true) :
    isSpace c = false ∧ c ≠ 93 ∧ c ≠ 125 ∧ c ≠ 110 ∧ c ≠ 116 ∧ c ≠ 102 ∧ c ≠ 34 ∧ c ≠ 91 ∧
      c ≠ 123 := by
  simp only [isDigit, Bool.and_eq_true, decide_eq_true_eq] at h
  refine ⟨?_, ?_, ?_, ?_, ?_, ?_, ?_, ?_, ?_⟩ <;>
  first
  | (simp only [isSpace, Bool.or_eq_false_iff, beq_eq_false_iff_ne, ne_eq]
     refine ⟨⟨⟨?_, ?_⟩, ?_⟩, ?_⟩ <;> rintro rfl <;> exact absurd h (by decide))
  | (rintro rfl; exact absurd h (by decide))

/-- A value that starts with a digit is a number. -/
theorem parseValue_digit {c : UInt8} (h : isDigit c = true) (fuel : Nat) (s : List UInt8) :
    parseValue (fuel + 1) (c :: s) = (scanNumber (c :: s)).map fun p => (.number p.1, p.2) := by
  rw [parseValue.eq_2, skipSpace_cons (digit_facts h).1]
  simp only [isDigit, Bool.and_eq_true, decide_eq_true_eq] at h
  obtain ⟨k, hk, rfl⟩ : ∃ k < 10, c = UInt8.ofNat (48 + k) :=
    ⟨c.toNat - 48, by omega, (u8_ofNat_eq (by omega)).symm⟩
  interval_cases k <;> rfl

/-- A decimal number starts with a digit. -/
theorem decimal_digit_cons (n : Nat) : ∃ c cs, decimal n = c :: cs ∧ isDigit c = true := by
  obtain ⟨c, cs, h⟩ : ∃ c cs, decimal n = c :: cs := by
    unfold decimal; split_ifs
    · exact ⟨_, _, rfl⟩
    · exact List.exists_cons_of_ne_nil (by simpa using Nat.digits_ne_nil_iff_ne_zero.mpr ‹_›)
  exact ⟨c, cs, h, isDigit_decimal n c (h ▸ List.mem_cons_self c cs)⟩

/-- Every value's text starts with a byte that is no space and no closing bracket. -/
theorem render_cons {v : JsonValue} (hv : v.DecimalNumbers) :
    ∃ c cs, v.render = c :: cs ∧ isSpace c = false ∧ c ≠ 93 ∧ c ≠ 125 := by
  cases v with
  | number literal =>
    obtain ⟨n, rfl⟩ := hv
    obtain ⟨c, cs, h, hd⟩ := decimal_digit_cons n
    obtain ⟨hs, h93, h125, -⟩ := digit_facts hd
    exact ⟨c, cs, h, hs, h93, h125⟩
  | bool b => cases b <;> exact ⟨_, _, rfl, rfl, by decide, by decide⟩
  | _ => exact ⟨_, _, rfl, rfl, by decide, by decide⟩

/-- Every value has a positive size. -/
theorem size_pos (v : JsonValue) : 0 < v.size := by
  cases v <;> simp only [JsonValue.size] <;> omega

/-- The bytes before a closing quote are the quoted text. -/
theorem take_quoted (e rest : List UInt8) :
    (e ++ 34 :: rest).take ((e ++ 34 :: rest).length - rest.length - 1) = e := by
  rw [List.length_append, List.length_cons,
    show e.length + (rest.length + 1) - rest.length - 1 = e.length by omega, List.take_left]

/-- A value that starts with a quote is a string. -/
theorem parseValue_quote (fuel : Nat) (s : List UInt8) :
    parseValue (fuel + 1) (34 :: s) =
      (scanString s).map fun p => (.string (s.take (s.length - p.2.length - 1)) p.1, p.2) := rfl

/-- A value that opens a bracket before a non-empty body is an array. -/
theorem parseValue_array {c : UInt8} {s : List UInt8} (hc : isSpace c = false) (h93 : c ≠ 93)
    (fuel : Nat) :
    parseValue (fuel + 1) (91 :: c :: s) = (parseElems fuel (c :: s)).map fun p => (.array p.1, p.2) := by
  show (match skipSpace (c :: s) with
      | 93 :: rest' => some (JsonTree.array [], rest')
      | _ => (parseElems fuel (c :: s)).map fun (p : List JsonTree × List UInt8) =>
        (JsonTree.array p.1, p.2)) = _
  rw [skipSpace_cons hc]
  split
  · rename_i heq; cases heq; contradiction
  · rfl

/-- A value that opens a brace before a non-empty body is an object. -/
theorem parseValue_object {c : UInt8} {s : List UInt8} (hc : isSpace c = false) (h125 : c ≠ 125)
    (fuel : Nat) :
    parseValue (fuel + 1) (123 :: c :: s) =
      (parseFields fuel (c :: s)).map fun p => (.object p.1, p.2) := by
  show (match skipSpace (c :: s) with
      | 125 :: rest' => some (JsonTree.object [], rest')
      | _ => (parseFields fuel (c :: s)).map fun (p : List (GoString × JsonTree) × List UInt8) =>
        (JsonTree.object p.1, p.2)) = _
  rw [skipSpace_cons hc]
  split
  · rename_i heq; cases heq; contradiction
  · rfl

/-- The text after an array element ends in a delimiter. -/
theorem delimited_elemsAfter (vs : List JsonValue) (rest : List UInt8) :
    Delimited (renderElemsAfter vs ++ 93 :: rest) := by
  cases vs <;> intro c hc <;> simp [renderElemsAfter] at hc <;> simp [hc]

/-- The text after an object member ends in a delimiter. -/
theorem delimited_fieldsAfter (fs : List (GoString × JsonValue)) (rest : List UInt8) :
    Delimited (renderFieldsAfter fs ++ 125 :: rest) := by
  rcases fs with _ | ⟨⟨k, v⟩, fs⟩ <;> intro c hc <;> simp [renderFieldsAfter] at hc <;> simp [hc]

/-! ### One step of fuel

Each construct parses from the parses of its parts with one unit of fuel less. -/

section Step

variable {f : Nat} {rest : List UInt8}

/-- A non-empty array parses back when its elements do. -/
theorem parseValue_render_array {w : JsonValue} {ws : List JsonValue} (hw : w.DecimalNumbers)
    (he : parseElems f (renderElems (w :: ws) ++ 93 :: rest) =
      some (parsedElems (w :: ws), rest)) :
    parseValue (f + 1) ((JsonValue.array (w :: ws)).render ++ rest) =
      some ((JsonValue.array (w :: ws)).parsed, rest) := by
  obtain ⟨c, cs, hcs, hsp, h93, -⟩ := render_cons hw
  have e1 : (JsonValue.array (w :: ws)).render ++ rest =
      91 :: (renderElems (w :: ws) ++ 93 :: rest) := by simp [JsonValue.render]
  have e2 : renderElems (w :: ws) ++ 93 :: rest =
      c :: (cs ++ renderElemsAfter ws ++ 93 :: rest) := by simp [renderElems, hcs]
  rw [e1, e2, parseValue_array hsp h93, ← e2, he]
  rfl

/-- A non-empty object parses back when its members do. -/
theorem parseValue_render_object {k : GoString} {w : JsonValue} {fs : List (GoString × JsonValue)}
    (hf : parseFields f (renderFields ((k, w) :: fs) ++ 125 :: rest) =
      some (parsedFields ((k, w) :: fs), rest)) :
    parseValue (f + 1) ((JsonValue.object ((k, w) :: fs)).render ++ rest) =
      some ((JsonValue.object ((k, w) :: fs)).parsed, rest) := by
  have e1 : (JsonValue.object ((k, w) :: fs)).render ++ rest =
      123 :: (renderFields ((k, w) :: fs) ++ 125 :: rest) := by simp [JsonValue.render]
  have e2 : renderFields ((k, w) :: fs) ++ 125 :: rest =
      34 :: (escapeString k ++ 34 :: 58 :: (w.render ++ renderFieldsAfter fs ++ 125 :: rest)) := by
    simp [renderFields, quote]
  rw [e1, e2, parseValue_object (show isSpace 34 = false from rfl) (by decide), ← e2, hf]
  rfl

/-- The elements of an array parse back one after another. -/
theorem parseElems_render_cons {v : JsonValue} {vs : List JsonValue}
    (hv : parseValue f (v.render ++ (renderElemsAfter vs ++ 93 :: rest)) =
      some (v.parsed, renderElemsAfter vs ++ 93 :: rest))
    (hvs : ∀ w ws, vs = w :: ws →
      parseElems f (renderElems (w :: ws) ++ 93 :: rest) = some (parsedElems (w :: ws), rest)) :
    parseElems (f + 1) (renderElems (v :: vs) ++ 93 :: rest) =
      some (parsedElems (v :: vs), rest) := by
  have e : renderElems (v :: vs) ++ 93 :: rest =
      v.render ++ (renderElemsAfter vs ++ 93 :: rest) := by
    simp [renderElems]
  show (parseValue f _).bind _ = _
  rw [e, hv, Option.some_bind]
  cases vs with
  | nil => rfl
  | cons w ws =>
    have e' : renderElemsAfter (w :: ws) ++ 93 :: rest =
        44 :: (renderElems (w :: ws) ++ 93 :: rest) := by
      simp [renderElemsAfter, renderElems]
    rw [e']
    show Option.map _ (parseElems f (renderElems (w :: ws) ++ 93 :: rest)) = _
    rw [hvs w ws rfl]
    rfl

/-- The members of an object parse back one after another. -/
theorem parseFields_render_cons {k : GoString} {v : JsonValue} {fs : List (GoString × JsonValue)}
    (hv : parseValue f (v.render ++ (renderFieldsAfter fs ++ 125 :: rest)) =
      some (v.parsed, renderFieldsAfter fs ++ 125 :: rest))
    (hfs : ∀ k' w fs', fs = (k', w) :: fs' →
      parseFields f (renderFields ((k', w) :: fs') ++ 125 :: rest) =
        some (parsedFields ((k', w) :: fs'), rest)) :
    parseFields (f + 1) (renderFields ((k, v) :: fs) ++ 125 :: rest) =
      some (parsedFields ((k, v) :: fs), rest) := by
  have e : renderFields ((k, v) :: fs) ++ 125 :: rest =
      34 :: (escapeString k ++ 34 :: 58 :: (v.render ++ (renderFieldsAfter fs ++ 125 :: rest))) := by
    simp [renderFields, quote]
  rw [e]
  show (scanString _).bind _ = _
  rw [scanString_escapeString]
  show (parseValue f _).bind _ = _
  rw [hv, Option.some_bind]
  rcases fs with _ | ⟨⟨k', w⟩, fs⟩
  · rfl
  · have e' : renderFieldsAfter ((k', w) :: fs) ++ 125 :: rest =
        44 :: (renderFields ((k', w) :: fs) ++ 125 :: rest) := by
      simp [renderFieldsAfter, renderFields]
    rw [e']
    show Option.map _ (parseFields f (renderFields ((k', w) :: fs) ++ 125 :: rest)) = _
    rw [hfs k' w fs rfl]
    rfl

end Step

/-- **The parser reads back what the marshaller renders**, at every fuel at least the value's
size: a value, a non-empty element list before `]`, a non-empty member list before `}`. -/
theorem parse_render (fuel : Nat) :
    (∀ (v : JsonValue) rest, v.DecimalNumbers → Delimited rest → v.size ≤ fuel →
      parseValue fuel (v.render ++ rest) = some (v.parsed, rest)) ∧
    (∀ v vs rest, ElemsDecimal (v :: vs) → sizeElems (v :: vs) ≤ fuel →
      parseElems fuel (renderElems (v :: vs) ++ 93 :: rest) = some (parsedElems (v :: vs), rest)) ∧
    (∀ k v fs rest, FieldsDecimal ((k, v) :: fs) → sizeFields ((k, v) :: fs) ≤ fuel →
      parseFields fuel (renderFields ((k, v) :: fs) ++ 125 :: rest) =
        some (parsedFields ((k, v) :: fs), rest)) := by
  induction fuel with
  | zero =>
    refine ⟨fun v _ _ _ h => absurd h (by have := size_pos v; omega), fun _ _ _ _ h => ?_,
      fun _ _ _ _ _ h => ?_⟩ <;> simp only [sizeElems, sizeFields] at h <;> omega
  | succ f ih =>
    obtain ⟨ihv, ihe, ihf⟩ := ih
    refine ⟨fun v rest hv hr hs => ?_, fun v vs rest hv hs => ?_, fun k v fs rest hv hs => ?_⟩
    · cases v with
      | null => rfl
      | bool b => cases b <;> rfl
      | number literal =>
        obtain ⟨n, rfl⟩ := hv
        obtain ⟨c, cs, hcs, hd⟩ := decimal_digit_cons n
        rw [JsonValue.render, hcs, List.cons_append, parseValue_digit hd, ← List.cons_append, ← hcs,
          scanNumber_decimal n hr]
        rfl
      | string s =>
        have e : (JsonValue.string s).render ++ rest = 34 :: (escapeString s ++ 34 :: rest) := by
          simp [JsonValue.render, quote]
        rw [e, parseValue_quote, scanString_escapeString, Option.map_some', take_quoted]
        rfl
      | array elems =>
        rcases elems with _ | ⟨w, ws⟩
        · rfl
        · exact parseValue_render_array hv.1
            (ihe w ws rest hv (by simp only [JsonValue.size] at hs; omega))
      | object fields =>
        rcases fields with _ | ⟨⟨k, w⟩, fs⟩
        · rfl
        · exact parseValue_render_object
            (ihf k w fs rest hv (by simp only [JsonValue.size] at hs; omega))
    · have hsz : v.size ≤ f ∧ (vs ≠ [] → sizeElems vs ≤ f) := by
        simp only [sizeElems] at hs; omega
      exact parseElems_render_cons (ihv v _ hv.1 (delimited_elemsAfter vs rest) hsz.1)
        fun w ws h => by subst h; exact ihe w ws rest hv.2 (hsz.2 (List.cons_ne_nil w ws))
    · have hsz : v.size ≤ f ∧ (fs ≠ [] → sizeFields fs ≤ f) := by
        simp only [sizeFields] at hs; omega
      exact parseFields_render_cons (ihv v _ hv.1 (delimited_fieldsAfter fs rest) hsz.1)
        fun k' w fs' h => by subst h; exact ihf k' w fs' rest hv.2 (hsz.2 (List.cons_ne_nil _ _))

mutual

/-- A value's size is at most the length of its text, so that much fuel is enough. -/
theorem size_le_length : ∀ v : JsonValue, v.DecimalNumbers → v.size ≤ v.render.length
  | .null, _ => by decide
  | .bool b, _ => by cases b <;> decide
  | .number _, ⟨n, h⟩ => by
    obtain ⟨c, cs, hcs, -⟩ := decimal_digit_cons n
    simp [JsonValue.size, JsonValue.render, h, hcs]
  | .string s, _ => by simp [JsonValue.size, JsonValue.render, quote]
  | .array [], _ => by decide
  | .array (v :: vs), h => by
    have := size_le_length v h.1
    have := sizeElems_le_length vs h.2
    simp only [JsonValue.size, sizeElems, JsonValue.render, renderElems, List.length_append,
      List.length_singleton]
    omega
  | .object [], _ => by decide
  | .object ((k, v) :: fs), h => by
    have := size_le_length v h.1
    have := sizeFields_le_length fs h.2
    simp only [JsonValue.size, sizeFields, JsonValue.render, renderFields, quote,
      List.length_append, List.length_singleton]
    omega

/-- The elements' size is at most the length of their text. -/
theorem sizeElems_le_length : ∀ vs : List JsonValue, ElemsDecimal vs →
    sizeElems vs ≤ (renderElemsAfter vs).length
  | [], _ => by simp [sizeElems, renderElemsAfter]
  | v :: vs, h => by
    have := size_le_length v h.1
    have := sizeElems_le_length vs h.2
    simp only [sizeElems, renderElemsAfter, List.length_append, List.length_singleton]
    omega

/-- The members' size is at most the length of their text. -/
theorem sizeFields_le_length : ∀ fs : List (GoString × JsonValue), FieldsDecimal fs →
    sizeFields fs ≤ (renderFieldsAfter fs).length
  | [], _ => by simp [sizeFields, renderFieldsAfter]
  | (k, v) :: fs, h => by
    have := size_le_length v h.1
    have := sizeFields_le_length fs h.2
    simp only [sizeFields, renderFieldsAfter, quote, List.length_append, List.length_singleton]
    omega

end

/-- **`json.Unmarshal`'s parse of `json.Marshal`'s text.** A value whose numbers are unsigned
decimals is read back whole, each string with its escaped text as the literal body and its bytes
sanitized. -/
theorem parseJson_render (v : JsonValue) (hv : v.DecimalNumbers) :
    parseJson v.render = some v.parsed := by
  have h := (parse_render (v.render.length + 1)).1 v [] hv (fun _ h => by cases h)
    (by have := size_le_length v hv; omega)
  rw [List.append_nil] at h
  rw [parseJson, h]
  rfl


end Ots

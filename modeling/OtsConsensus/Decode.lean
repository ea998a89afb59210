import OtsConsensus.JsonParse
import OtsConsensus.Encoding

/-!
# Decoding states and snapshots

`DecodeOTSState` and `DecodeSnapshot` are `json.Unmarshal` into an `OTSState` or a `Snapshot`.
After the scanner has checked the whole input (`parseJson`), the decoder walks the value into the
record, member by member in the order of the input:

* a member is matched to a field by its `json` name, exactly or else up to case
  (`fieldByName`); an unknown member is skipped; a later member overrides an earlier one;
* `null` leaves a number, a bool, a string, an array or a struct as it is, and sets a pointer to
  `nil`;
* a `uint64` or a `uint8` takes a number literal that `strconv.ParseUint` accepts and that fits;
* `common.Hash` and `common.Address` decode themselves: their `UnmarshalJSON` wants a string whose
  text is `0x` and exactly the array's width in hex digits (`bindFixedHex`);
* a `[32]byte` takes an array of numbers: extra elements are skipped, missing bytes are zero;
* a pointer to a struct takes an object, decoded into the record it points to or a fresh zero one.

Every other combination is an error. `Unmarshal` reports it and both decoders then return `nil`,
so the model stops at the first error.

The main result is `decodeSnapshot_encode`: a snapshot's encoding decodes to the snapshot, its BTC
txid sanitized as every Go string is by a JSON round trip. Sanitizing leaves valid UTF-8 as it is
(`utf8Sanitize_of_validUTF8`), so a state or snapshot whose txid is valid UTF-8 decodes to
itself.
-/

namespace Ots

/-! ## Scalars -/

/-- The value of a string of decimal digits. -/
def digitsValue (lit : List UInt8) : Nat := lit.foldl (fun acc c => acc * 10 + (c.toNat - 48)) 0

/-- `strconv.ParseUint(lit, 10, 64)`: at least one decimal digit, nothing else, below `2 ^ 64`. -/
def parseUint (lit : List UInt8) : Option Nat :=
  if lit ≠ [] ∧ lit.all isDigit ∧ digitsValue lit < 2 ^ 64 then some (digitsValue lit) else none

/-- `literalStore` into an unsigned integer field of `bits` bits: a number that `ParseUint`
accepts and that does not overflow the field; `null` keeps the field. -/
def bindUint (bits : Nat) : JsonTree → Nat → Except Error Nat
  | .null, cur => .ok cur
  | .number lit, _ =>
    match parseUint lit with
    | some n => if n < 2 ^ bits then .ok n else .error .json
    | none => .error .json
  | _, _ => .error .json

/-- A `uint64` field. -/
def bindUint64 (v : JsonTree) (cur : UInt64) : Except Error UInt64 :=
  (bindUint 64 v cur.toNat).map UInt64.ofNat

/-- A `bool` field. -/
def bindBool : JsonTree → Bool → Except Error Bool
  | .null, cur => .ok cur
  | .bool b, _ => .ok b
  | _, _ => .error .json

/-- A `string` field: the unquoted bytes. -/
def bindString : JsonTree → GoString → Except Error GoString
  | .null, cur => .ok cur
  | .string _ s, _ => .ok s
  | _, _ => .error .json

/-! ## Byte arrays -/

/-- `hexutil.checkText(input, true)`: the digits after a required `0x` or `0X`, an even number of
them; the empty text passes with no digits. -/
def checkText : List UInt8 → Option (List UInt8)
  | [] => some []
  | 48 :: x :: digits => if (x = 120 ∨ x = 88) ∧ digits.length % 2 = 0 then some digits else none
  | _ => none

/-- `hex.Decode` of an even number of digits: two digits a byte. -/
def hexDecode : List UInt8 → Option (List UInt8)
  | [] => some []
  | [_] => none
  | a :: b :: rest => do
    let x ← hexNibble a
    let y ← hexNibble b
    let bs ← hexDecode rest
    pure (UInt8.ofNat (x * 16 + y) :: bs)

/-- `hexutil.UnmarshalFixedText`: exactly `n` bytes of hex digits after `0x`. -/
def unmarshalFixedText (n : Nat) (input : List UInt8) : Option (ByteVec n) :=
  (checkText input).bind hexDecode |>.bind fun bs => if h : bs.length = n then some ⟨bs, h⟩ else none

/-- `UnmarshalJSON` of `common.Hash` and `common.Address` (`hexutil.UnmarshalFixedJSON`): a string
literal, whose text between the quotes `unmarshalFixedText` reads. It is called for `null` too,
which is not a string. -/
def bindFixedHex (n : Nat) : JsonTree → ByteVec n → Except Error (ByteVec n)
  | .string raw _, _ =>
    match unmarshalFixedText n raw with
    | some b => .ok b
    | none => .error .json
  | _, _ => .error .json

/-- `d.array` into a byte array: element `i` into byte `i`, elements past the end skipped, bytes
past the last element set to zero. -/
def bindByteElems : List JsonTree → List UInt8 → Except Error (List UInt8)
  | [], cur => .ok (cur.map fun _ => 0)
  | _ :: _, [] => .ok []
  | e :: es, c :: cs => do
    let b ← bindUint 8 e c.toNat
    let bs ← bindByteElems es cs
    pure (UInt8.ofNat b :: bs)

/-- Decoding array elements into a byte array keeps its length. -/
theorem length_bindByteElems {es : List JsonTree} {cur bs : List UInt8}
    (h : bindByteElems es cur = .ok bs) : bs.length = cur.length := by
  induction es generalizing cur bs with
  | nil => cases h; simp
  | cons e es ih =>
    rcases cur with _ | ⟨c, cs⟩
    · cases h; rfl
    · simp only [bindByteElems, bind, Except.bind] at h
      split at h
      · cases h
      · split at h
        · cases h
        · cases h; simp [ih ‹_›]

/-- A `[n]byte` field. -/
def bindByteArray (n : Nat) : JsonTree → ByteVec n → Except Error (ByteVec n)
  | .null, cur => .ok cur
  | .array es, cur =>
    match h : bindByteElems es cur.bytes with
    | .ok bs => .ok ⟨bs, (length_bindByteElems h).trans cur.length_bytes⟩
    | .error e => .error e
  | _, _ => .error .json

/-! ## Structs -/

/-- A struct field as the decoder sees it: its `json` name, and how a value decodes into the
record. -/
abbrev FieldDecoder (σ : Type) := GoString × (JsonTree → σ → Except Error σ)

/-- `foldName` as the decoder compares keys with field names that are ASCII: ASCII letters
upper-cased, and the four non-ASCII letters whose simple fold is an ASCII letter (`İ`, `ı`, `ſ`
and the Kelvin sign) replaced by it. Every other byte is kept; it is not ASCII, and neither is
what Go folds it to. -/
def foldName : List UInt8 → List UInt8
  | 0xC4 :: 0xB0 :: rest => 73 :: foldName rest
  | 0xC4 :: 0xB1 :: rest => 73 :: foldName rest
  | 0xC5 :: 0xBF :: rest => 83 :: foldName rest
  | 0xE2 :: 0x84 :: 0xAA :: rest => 75 :: foldName rest
  | c :: rest => (if 97 ≤ c.toNat ∧ c.toNat ≤ 122 then c - 32 else c) :: foldName rest
  | [] => []

/-- The field a member's key selects: the field of exactly that name, else the first whose name
folds to the key's fold. -/
def fieldByName {σ : Type} (fields : List (FieldDecoder σ)) (key : GoString) :
    Option (JsonTree → σ → Except Error σ) :=
  match fields.find? (fun f => f.1 == key) with
  | some f => some f.2
  | none => (fields.find? (fun f => foldName f.1 == foldName key)).map (·.2)

/-- `d.object` into a struct: each member into its field, in order; unknown members skipped. -/
def bindMembers {σ : Type} (fields : List (FieldDecoder σ)) :
    List (GoString × JsonTree) → σ → Except Error σ
  | [], cur => .ok cur
  | (key, v) :: ms, cur =>
    match fieldByName fields key with
    | some bind => (bind v cur).bind (bindMembers fields ms)
    | none => bindMembers fields ms cur

/-- A struct: an object's members into its fields; `null` leaves it. -/
def bindStruct {σ : Type} (fields : List (FieldDecoder σ)) : JsonTree → σ → Except Error σ
  | .object ms, cur => bindMembers fields ms cur
  | .null, cur => .ok cur
  | _, _ => .error .json

/-- A pointer to a struct: `null` sets it to `nil`; anything else decodes into the record it
points to, or a fresh zero record. -/
def bindPtr {σ : Type} (fields : List (FieldDecoder σ)) (zero : σ) :
    JsonTree → Option σ → Except Error (Option σ)
  | .null, _ => .ok none
  | v, cur => (bindStruct fields v (cur.getD zero)).map some

/-- The fields of `BatchState` with their `json` names. -/
def batchStateFields : List (FieldDecoder BatchState) :=
  [(ascii "startBlock", fun v b => (bindUint64 v b.startBlock).map fun x => { b with startBlock := x }),
   (ascii "endBlock", fun v b => (bindUint64 v b.endBlock).map fun x => { b with endBlock := x }),
   (ascii "rootHash", fun v b => (bindFixedHex 32 v b.rootHash).map fun x => { b with rootHash := x }),
   (ascii "status", fun v b =>
      (bindUint 8 v b.status.val.toNat).map fun x => { b with status := ⟨UInt8.ofNat x⟩ }),
   (ascii "triggerBlock", fun v b =>
      (bindUint64 v b.triggerBlock).map fun x => { b with triggerBlock := x }),
   (ascii "triggerNode", fun v b =>
      (bindFixedHex 20 v b.triggerNode).map fun x => { b with triggerNode := x }),
   (ascii "otsDigest", fun v b =>
      (bindByteArray 32 v b.otsDigest).map fun x => { b with otsDigest := x }),
   (ascii "submittedAt", fun v b =>
      (bindUint64 v b.submittedAt).map fun x => { b with submittedAt := x }),
   (ascii "submittedBy", fun v b =>
      (bindFixedHex 20 v b.submittedBy).map fun x => { b with submittedBy := x }),
   (ascii "btcBlockHeight", fun v b =>
      (bindUint64 v b.btcBlockHeight).map fun x => { b with btcBlockHeight := x }),
   (ascii "btcTxId", fun v b => (bindString v b.btcTxID).map fun x => { b with btcTxID := x }),
   (ascii "btcTimestamp", fun v b =>
      (bindUint64 v b.btcTimestamp).map fun x => { b with btcTimestamp := x }),
   (ascii "confirmedAt", fun v b =>
      (bindUint64 v b.confirmedAt).map fun x => { b with confirmedAt := x }),
   (ascii "confirmedBy", fun v b =>
      (bindFixedHex 20 v b.confirmedBy).map fun x => { b with confirmedBy := x }),
   (ascii "anchoredAt", fun v b =>
      (bindUint64 v b.anchoredAt).map fun x => { b with anchoredAt := x }),
   (ascii "anchoredBy", fun v b =>
      (bindFixedHex 20 v b.anchoredBy).map fun x => { b with anchoredBy := x })]

/-- The zero `OTSState`. -/
def OTSState.zero : OTSState := { enabled := false, lastAnchoredBlock := 0, currentBatch := none }

/-- The fields of `OTSState` with their `json` names. -/
def otsStateFields : List (FieldDecoder OTSState) :=
  [(ascii "enabled", fun v s => (bindBool v s.enabled).map fun x => { s with enabled := x }),
   (ascii "lastAnchoredBlock", fun v s =>
      (bindUint64 v s.lastAnchoredBlock).map fun x => { s with lastAnchoredBlock := x }),
   (ascii "currentBatch", fun v s =>
      (bindPtr batchStateFields {} v s.currentBatch).map fun x => { s with currentBatch := x })]

/-- The zero `Snapshot`. -/
def Snapshot.zero : Snapshot := { number := 0, hash := ByteVec.zero 32, state := none }

/-- The fields of `Snapshot` with their `json` names. -/
def snapshotFields : List (FieldDecoder Snapshot) :=
  [(ascii "number", fun v s => (bindUint64 v s.number).map fun x => { s with number := x }),
   (ascii "hash", fun v s => (bindFixedHex 32 v s.hash).map fun x => { s with hash := x }),
   (ascii "state", fun v s =>
      (bindPtr otsStateFields OTSState.zero v s.state).map fun x => { s with state := x })]

/-- `DecodeOTSState(data)`. -/
def decodeOTSState (data : List UInt8) : Except Error OTSState :=
  match parseJson data with
  | some v => bindStruct otsStateFields v OTSState.zero
  | none => .error .json

/-- `DecodeSnapshot(data)`. -/
def decodeSnapshot (data : List UInt8) : Except Error Snapshot :=
  match parseJson data with
  | some v => bindStruct snapshotFields v Snapshot.zero
  | none => .error .json

/-! ## What the encodings decode to

One lemma per field type: the text the marshaller writes for a value decodes back to it. -/

section Scalars

/-- Reading decimal digits back gives the number they spell. -/
theorem foldr_digits (L : List Nat) (h : ∀ d ∈ L, d < 10) :
    L.foldr (fun d acc => acc * 10 + ((UInt8.ofNat (48 + d)).toNat - 48)) 0 = Nat.ofDigits 10 L := by
  induction L with
  | nil => rfl
  | cons d L ih =>
    have hd := h d (List.mem_cons_self d L)
    rw [List.foldr_cons, ih fun x hx => h x (List.mem_cons_of_mem d hx), Nat.ofDigits_cons,
      toNat_uint8_ofNat, Nat.mod_eq_of_lt (by omega)]
    omega

/-- The digits `decimal` writes read back as the number. -/
theorem digitsValue_decimal (n : Nat) : digitsValue (decimal n) = n := by
  unfold decimal digitsValue
  split_ifs with h
  · subst h; rfl
  · rw [List.foldl_map, List.foldl_reverse,
      foldr_digits _ fun d hd => Nat.digits_lt_base (by norm_num) hd, Nat.ofDigits_digits]

/-- `strconv.ParseUint` accepts the decimal text of a `uint64`. -/
theorem parseUint_decimal {n : Nat} (h : n < 2 ^ 64) : parseUint (decimal n) = some n := by
  obtain ⟨c, cs, hcs, -⟩ := decimal_digit_cons n
  rw [parseUint, digitsValue_decimal, if_pos ⟨by simp [hcs], List.all_eq_true.mpr (isDigit_decimal n), h⟩]

/-- An unsigned field of `bits` bits reads back a number that fits. -/
theorem bindUint_uintJson (bits : Nat) {n : Nat} (hb : bits ≤ 64) (h : n < 2 ^ bits) (cur : Nat) :
    bindUint bits (uintJson n).parsed cur = .ok n := by
  have h64 : n < 2 ^ 64 := lt_of_lt_of_le h (Nat.pow_le_pow_right (by norm_num) hb)
  simp only [uintJson, JsonValue.parsed, bindUint, parseUint_decimal h64, if_pos h]

/-- A `uint64` field reads back its own number. -/
theorem bindUint64_uintJson (v cur : UInt64) : bindUint64 (uintJson v.toNat).parsed cur = .ok v := by
  rw [bindUint64, bindUint_uintJson 64 le_rfl (u64_toNat_lt v)]
  exact congrArg Except.ok (u64_ofNat_toNat v)

end Scalars

section ByteArrays

/-- The text of a byte array, written as the bytes of a string: ASCII that needs no escape. -/
def PlainText (s : List UInt8) : Prop :=
  ∀ c ∈ s, 32 ≤ c.toNat ∧ c.toNat < 128 ∧ c ≠ 34 ∧ c ≠ 92 ∧ c ≠ 60 ∧ c ≠ 62 ∧ c ≠ 38

/-- Plain text is written as it is. -/
theorem escapeString_plain {s : List UInt8} (h : PlainText s) : escapeString s = s := by
  induction s with
  | nil => exact escapeString.eq_1
  | cons c s ih =>
    obtain ⟨h32, h128, h34, h92, h60, h62, h38⟩ := h c (List.mem_cons_self c s)
    have hlt : c < 128 := h128
    have low : ∀ k : UInt8, k.toNat < 32 → c ≠ k := fun k hk e => by rw [e] at h32; omega
    rw [escapeString.eq_2, if_pos hlt, ih fun x hx => h x (List.mem_cons_of_mem c hx), escapeAscii,
      if_neg (by tauto), if_neg (low 8 (by decide)), if_neg (low 12 (by decide)),
      if_neg (low 10 (by decide)), if_neg (low 13 (by decide)), if_neg (low 9 (by decide)),
      if_neg (fun e => e.elim (fun e => absurd (show c.toNat < 32 from e) (by omega)) (by tauto))]
    rfl

/-- A hexadecimal digit is plain text. -/
theorem plainText_hexDigit {n : Nat} (h : n < 16) : PlainText [hexDigit n] := by
  have hv : (hexDigit n).toNat = if n < 10 then 48 + n else 87 + n := by
    unfold hexDigit; split_ifs <;> simp only [toNat_uint8_ofNat] <;> omega
  have ne : ∀ k : UInt8, k.toNat < 48 ∨ (57 < k.toNat ∧ k.toNat < 97) → hexDigit n ≠ k :=
    fun k hk e => by rw [e] at hv; split_ifs at hv <;> omega
  intro c hc
  rw [List.mem_singleton.mp hc]
  exact ⟨by split_ifs at hv <;> omega, by split_ifs at hv <;> omega, ne 34 (by decide),
    ne 92 (by decide), ne 60 (by decide), ne 62 (by decide), ne 38 (by decide)⟩

/-- Plain text followed by plain text is plain text. -/
theorem PlainText.append {s t : List UInt8} (hs : PlainText s) (ht : PlainText t) :
    PlainText (s ++ t) :=
  fun c hc => (List.mem_append.mp hc).elim (hs c) (ht c)

/-- The `0x`-prefixed hex text of bytes is plain text. -/
theorem plainText_hexJson (b : List UInt8) : PlainText (ascii "0x" ++ hexEncode b) := by
  refine PlainText.append (by unfold PlainText; decide) fun c hc => ?_
  obtain ⟨x, -, hx⟩ := List.mem_flatMap.mp hc
  have := u8_toNat_lt x
  rcases List.mem_pair.mp hx with rfl | rfl
  · exact plainText_hexDigit (by omega) _ (List.mem_singleton_self _)
  · exact plainText_hexDigit (by omega) _ (List.mem_singleton_self _)

/-- Decoding hex text gives back the bytes it encodes. -/
theorem hexDecode_hexEncode (b : List UInt8) : hexDecode (hexEncode b) = some b := by
  induction b with
  | nil => rfl
  | cons x b ih =>
    have hx := u8_toNat_lt x
    rw [hexEncode, List.flatMap_cons, ← hexEncode, List.cons_append, List.cons_append,
      List.nil_append, hexDecode, hexNibble_hexDigit (by omega), hexNibble_hexDigit (by omega), ih]
    exact congrArg (some ∘ (· :: b)) (UInt8.toNat.inj (by rw [toNat_uint8_ofNat]; omega))

/-- Hex text has two digits per byte. -/
theorem length_hexEncode (b : List UInt8) : (hexEncode b).length = 2 * b.length := by
  induction b with
  | nil => rfl
  | cons x b ih => simp only [hexEncode, List.flatMap_cons] at ih ⊢; simp [ih]; omega

/-- `UnmarshalFixedText` reads back an array from its `0x` hex text. -/
theorem unmarshalFixedText_hex {n : Nat} (b : ByteVec n) :
    unmarshalFixedText n (ascii "0x" ++ hexEncode b.bytes) = some b := by
  have hlen : (hexEncode b.bytes).length % 2 = 0 := by rw [length_hexEncode]; omega
  simp only [unmarshalFixedText, show ascii "0x" = [48, 120] from rfl, List.cons_append,
    List.nil_append, checkText, hlen, true_or, and_self, if_true, Option.some_bind,
    hexDecode_hexEncode, b.length_bytes, dif_pos]

/-- **A hash or an address decodes from its `MarshalText`.** -/
theorem bindFixedHex_hexJson {n : Nat} (b cur : ByteVec n) :
    bindFixedHex n (hexJson b.bytes).parsed cur = .ok b := by
  simp only [hexJson, JsonValue.parsed, escapeString_plain (plainText_hexJson b.bytes), bindFixedHex,
    unmarshalFixedText_hex]

/-- The parsed elements of a mapped list are the mapped parsed values. -/
theorem parsedElems_map {α : Type} (f : α → JsonValue) (l : List α) :
    parsedElems (l.map f) = l.map fun x => (f x).parsed := by
  induction l with
  | nil => rfl
  | cons x l ih => simp [parsedElems, ih]

/-- Byte elements written as numbers read back as the bytes. -/
theorem bindByteElems_uintJson (bs : List UInt8) {cur : List UInt8} (h : cur.length = bs.length) :
    bindByteElems (bs.map fun x => (uintJson x.toNat).parsed) cur = .ok bs := by
  induction bs generalizing cur with
  | nil => rw [List.length_nil, List.length_eq_zero] at h; subst h; rfl
  | cons x bs ih =>
    obtain ⟨c, cs, rfl⟩ := List.exists_cons_of_length_eq_add_one (h.trans (List.length_cons x bs))
    simp only [List.map_cons, bindByteElems, bindUint_uintJson 8 (by norm_num) (u8_toNat_lt x),
      ih (Nat.succ.inj h)]
    exact congrArg (Except.ok ∘ (· :: bs)) (u8_ofNat_eq (Nat.mod_eq_of_lt (u8_toNat_lt x)))

/-- **A `[32]byte` decodes from its array of numbers.** -/
theorem bindByteArray_byteArrayJson (b cur : ByteVec 32) :
    bindByteArray 32 (byteArrayJson b).parsed cur = .ok b := by
  have h := bindByteElems_uintJson b.bytes (cur.length_bytes.trans b.length_bytes.symm)
  show bindByteArray 32 (.array (parsedElems (b.bytes.map fun x => uintJson x.toNat))) cur = _
  rw [parsedElems_map, bindByteArray]
  split
  · rename_i bs hbs; rw [h] at hbs; cases hbs; rfl
  · rename_i e he; rw [h] at he; cases he

end ByteArrays

/-! ### Structs -/

section Structs

variable {σ : Type} (fields : List (FieldDecoder σ))

/-- A member that binds its field successfully moves the walk to the next member. -/
theorem bindMembers_cons_eq {key : GoString} {bind : JsonTree → σ → Except Error σ} {v : JsonTree}
    {ms : List (GoString × JsonTree)} {cur cur' : σ}
    (h : fieldByName fields key = some bind) (hb : bind v cur = .ok cur') :
    bindMembers fields ((key, v) :: ms) cur = bindMembers fields ms cur' := by
  simp only [bindMembers, h, hb]; rfl

/-- A member whose key is ASCII selects the field its key names. -/
theorem fieldByName_sanitize (key : GoString) {bind : JsonTree → σ → Except Error σ}
    (hk : ∀ c ∈ key, c < 128) (h : fieldByName fields key = some bind) :
    fieldByName fields (utf8Sanitize key) = some bind := by
  rw [utf8Sanitize_ascii hk, h]

end Structs

/-- Mapping over a successful result maps its value. -/
theorem map_ok {α β : Type} {f : α → β} {e : Except Error α} {a : α} (h : e = .ok a) :
    e.map f = .ok (f a) := by rw [h]; rfl

/-- The parse tree of an object is the object of the parsed members. -/
theorem parsed_object (fs : List (GoString × JsonValue)) :
    (JsonValue.object fs).parsed = .object (parsedFields fs) := rfl

/-- A member's parsed key is sanitized and its value parsed. -/
theorem parsedFields_cons (k : GoString) (v : JsonValue) (fs : List (GoString × JsonValue)) :
    parsedFields ((k, v) :: fs) = (utf8Sanitize k, v.parsed) :: parsedFields fs := rfl

/-- Parsing the members of two lists parses each. -/
theorem parsedFields_append (fs fs' : List (GoString × JsonValue)) :
    parsedFields (fs ++ fs') = parsedFields fs ++ parsedFields fs' := by
  induction fs with
  | nil => rfl
  | cons f fs ih => obtain ⟨k, v⟩ := f; simp only [List.cons_append, parsedFields_cons, ih]

/-- No members parse to no members. -/
theorem parsedFields_nil : parsedFields [] = [] := rfl

section Omitted

variable {σ : Type} (fields : List (FieldDecoder σ))

/-- A `uint64` member left out when zero: its decoder sets the value in both cases, the field
being zero before. -/
theorem bindMembers_omitZero {key : String} {n : UInt64} {bind : JsonTree → σ → Except Error σ}
    {ms : List (GoString × JsonTree)} {cur cur' : σ} (hk : ∀ c ∈ ascii key, c < 128)
    (h : fieldByName fields (ascii key) = some bind)
    (hb : bind (uintJson n.toNat).parsed cur = .ok cur') (hz : n = 0 → cur' = cur) :
    bindMembers fields (parsedFields (omitZero key n) ++ ms) cur = bindMembers fields ms cur' := by
  unfold omitZero
  split_ifs with hn
  · rw [hz hn]; rfl
  · exact bindMembers_cons_eq fields (fieldByName_sanitize fields _ hk h) hb

/-- A string member left out when empty. -/
theorem bindMembers_omitEmpty {key : String} {s : GoString} {bind : JsonTree → σ → Except Error σ}
    {ms : List (GoString × JsonTree)} {cur cur' : σ} (hk : ∀ c ∈ ascii key, c < 128)
    (h : fieldByName fields (ascii key) = some bind)
    (hb : bind (JsonValue.string s).parsed cur = .ok cur') (hz : s = [] → cur' = cur) :
    bindMembers fields (parsedFields (if s = [] then [] else [(ascii key, .string s)]) ++ ms) cur =
      bindMembers fields ms cur' := by
  split_ifs with hn
  · rw [hz hn]; rfl
  · exact bindMembers_cons_eq fields (fieldByName_sanitize fields _ hk h) hb

end Omitted

/-- A byte made from its own value is itself. -/
theorem u8_ofNat_toNat (a : UInt8) : UInt8.ofNat a.toNat = a :=
  u8_ofNat_eq (Nat.mod_eq_of_lt (u8_toNat_lt a))

/-- What a JSON round trip makes of a batch: its BTC txid sanitized. -/
def BatchState.throughJson (b : BatchState) : BatchState :=
  { b with btcTxID := utf8Sanitize b.btcTxID }

/-- A batch's object decodes into the batch, its BTC txid sanitized. -/
theorem bindStruct_batchState (b : BatchState) :
    bindStruct batchStateFields b.toJson.parsed {} = .ok b.throughJson := by
  simp only [BatchState.toJson, parsed_object, parsedFields_append, parsedFields_cons,
    parsedFields_nil, List.append_assoc, List.cons_append, List.nil_append, bindStruct]
  have field := fieldByName_sanitize batchStateFields
  refine Eq.trans (bindMembers_cons_eq _ (field (ascii "startBlock") (by decide) rfl)
    (map_ok (bindUint64_uintJson _ _))) ?_
  dsimp only
  refine Eq.trans (bindMembers_cons_eq _ (field (ascii "endBlock") (by decide) rfl)
    (map_ok (bindUint64_uintJson _ _))) ?_
  dsimp only
  refine Eq.trans (bindMembers_cons_eq _ (field (ascii "rootHash") (by decide) rfl)
    (map_ok (bindFixedHex_hexJson _ _))) ?_
  dsimp only
  refine Eq.trans (bindMembers_cons_eq _ (field (ascii "status") (by decide) rfl)
    (map_ok (bindUint_uintJson 8 (by norm_num) (u8_toNat_lt _) _))) ?_
  dsimp only
  refine Eq.trans (bindMembers_cons_eq _ (field (ascii "triggerBlock") (by decide) rfl)
    (map_ok (bindUint64_uintJson _ _))) ?_
  dsimp only
  refine Eq.trans (bindMembers_cons_eq _ (field (ascii "triggerNode") (by decide) rfl)
    (map_ok (bindFixedHex_hexJson _ _))) ?_
  dsimp only
  refine Eq.trans (bindMembers_cons_eq _ (field (ascii "otsDigest") (by decide) rfl)
    (map_ok (bindByteArray_byteArrayJson _ _))) ?_
  dsimp only
  refine Eq.trans (bindMembers_omitZero _ (by decide)
    (show fieldByName batchStateFields (ascii "submittedAt") = _ from rfl)
    (map_ok (bindUint64_uintJson _ _)) fun h => by rw [h]) ?_
  dsimp only
  refine Eq.trans (bindMembers_cons_eq _ (field (ascii "submittedBy") (by decide) rfl)
    (map_ok (bindFixedHex_hexJson _ _))) ?_
  dsimp only
  refine Eq.trans (bindMembers_omitZero _ (by decide)
    (show fieldByName batchStateFields (ascii "btcBlockHeight") = _ from rfl)
    (map_ok (bindUint64_uintJson _ _)) fun h => by rw [h]) ?_
  dsimp only
  refine Eq.trans (bindMembers_omitEmpty _ (by decide)
    (show fieldByName batchStateFields (ascii "btcTxId") = _ from rfl)
    (map_ok rfl) fun h => by rw [h, utf8Sanitize.eq_1]) ?_
  dsimp only
  refine Eq.trans (bindMembers_omitZero _ (by decide)
    (show fieldByName batchStateFields (ascii "btcTimestamp") = _ from rfl)
    (map_ok (bindUint64_uintJson _ _)) fun h => by rw [h]) ?_
  dsimp only
  refine Eq.trans (bindMembers_omitZero _ (by decide)
    (show fieldByName batchStateFields (ascii "confirmedAt") = _ from rfl)
    (map_ok (bindUint64_uintJson _ _)) fun h => by rw [h]) ?_
  dsimp only
  refine Eq.trans (bindMembers_cons_eq _ (field (ascii "confirmedBy") (by decide) rfl)
    (map_ok (bindFixedHex_hexJson _ _))) ?_
  dsimp only
  refine Eq.trans (bindMembers_omitZero _ (by decide)
    (show fieldByName batchStateFields (ascii "anchoredAt") = _ from rfl)
    (map_ok (bindUint64_uintJson _ _)) fun h => by rw [h]) ?_
  dsimp only
  refine Eq.trans (bindMembers_cons_eq _ (field (ascii "anchoredBy") (by decide) rfl)
    (map_ok (bindFixedHex_hexJson _ _))) ?_
  dsimp only
  rw [bindMembers, u8_ofNat_toNat]
  rfl

/-- What a JSON round trip makes of a state: the BTC txid of its batch sanitized. -/
def OTSState.throughJson (s : OTSState) : OTSState :=
  { s with currentBatch := s.currentBatch.map BatchState.throughJson }

/-- What a JSON round trip makes of a snapshot. -/
def Snapshot.throughJson (s : Snapshot) : Snapshot :=
  { s with state := s.state.map OTSState.throughJson }

/-- A batch pointer's object decodes into the sanitized batch. -/
theorem bindPtr_batchState (b : BatchState) :
    bindPtr batchStateFields {} b.toJson.parsed none = .ok (some b.throughJson) :=
  map_ok (bindStruct_batchState b)

/-- A state's object decodes into the state, its BTC txid sanitized. -/
theorem bindStruct_otsState (s : OTSState) :
    bindStruct otsStateFields s.toJson.parsed OTSState.zero = .ok s.throughJson := by
  have field := fieldByName_sanitize otsStateFields
  obtain ⟨en, last, batch⟩ := s
  simp only [OTSState.toJson, parsed_object, parsedFields_append, parsedFields_cons,
    parsedFields_nil, List.cons_append, List.nil_append, bindStruct]
  refine Eq.trans (bindMembers_cons_eq _ (field (ascii "enabled") (by decide) rfl) (map_ok rfl)) ?_
  dsimp only
  refine Eq.trans (bindMembers_cons_eq _ (field (ascii "lastAnchoredBlock") (by decide) rfl)
    (map_ok (bindUint64_uintJson _ _))) ?_
  dsimp only
  rcases batch with _ | b
  · rfl
  · refine Eq.trans (bindMembers_cons_eq _ (field (ascii "currentBatch") (by decide) rfl)
      (map_ok (bindPtr_batchState b))) ?_
    rfl

/-- A state pointer's object decodes into the sanitized state. -/
theorem bindPtr_otsState (s : OTSState) :
    bindPtr otsStateFields OTSState.zero s.toJson.parsed none = .ok (some s.throughJson) :=
  map_ok (bindStruct_otsState s)

/-- A snapshot's object decodes into the snapshot, its BTC txid sanitized. -/
theorem bindStruct_snapshot (snap : Snapshot) :
    bindStruct snapshotFields snap.toJson.parsed Snapshot.zero = .ok snap.throughJson := by
  have field := fieldByName_sanitize snapshotFields
  obtain ⟨number, hash, state⟩ := snap
  simp only [Snapshot.toJson, parsed_object, parsedFields_cons, parsedFields_nil, bindStruct]
  refine Eq.trans (bindMembers_cons_eq _ (field (ascii "number") (by decide) rfl)
    (map_ok (bindUint64_uintJson _ _))) ?_
  dsimp only
  refine Eq.trans (bindMembers_cons_eq _ (field (ascii "hash") (by decide) rfl)
    (map_ok (bindFixedHex_hexJson _ _))) ?_
  dsimp only
  rcases state with _ | st
  · exact Eq.trans (bindMembers_cons_eq _ (field (ascii "state") (by decide) rfl) (map_ok rfl)) rfl
  · exact Eq.trans (bindMembers_cons_eq _ (field (ascii "state") (by decide) rfl)
      (map_ok (bindPtr_otsState st))) rfl

/-! ## The encodings have decimal numbers -/

/-- The members of a list have decimal numbers when the first and the rest do. -/
theorem fieldsDecimal_cons (k : GoString) (v : JsonValue) (fs : List (GoString × JsonValue)) :
    FieldsDecimal ((k, v) :: fs) = (v.DecimalNumbers ∧ FieldsDecimal fs) := rfl

/-- Two lists of members have decimal numbers when each does. -/
theorem fieldsDecimal_append {fs fs' : List (GoString × JsonValue)} :
    FieldsDecimal (fs ++ fs') ↔ FieldsDecimal fs ∧ FieldsDecimal fs' := by
  induction fs with
  | nil => exact ⟨fun h => ⟨trivial, h⟩, fun h => h.2⟩
  | cons f fs ih =>
    obtain ⟨k, v⟩ := f
    rw [List.cons_append, fieldsDecimal_cons, fieldsDecimal_cons, ih, and_assoc]

/-- An omitted or written `uint64` member has a decimal number. -/
theorem fieldsDecimal_omitZero (key : String) (n : UInt64) : FieldsDecimal (omitZero key n) := by
  unfold omitZero
  split_ifs
  · trivial
  · exact ⟨⟨_, rfl⟩, trivial⟩

/-- A number the encoder writes is decimal. -/
theorem decimalNumbers_uintJson (n : Nat) : (uintJson n).DecimalNumbers := ⟨n, rfl⟩

/-- Hex text has no numbers. -/
theorem decimalNumbers_hexJson (b : List UInt8) : (hexJson b).DecimalNumbers := trivial

/-- A byte array is written with decimal numbers. -/
theorem decimalNumbers_byteArrayJson (b : ByteVec 32) : (byteArrayJson b).DecimalNumbers := by
  show ElemsDecimal (b.bytes.map fun x => uintJson x.toNat)
  induction b.bytes with
  | nil => trivial
  | cons x bs ih => exact ⟨⟨_, rfl⟩, ih⟩

/-- An object has decimal numbers when its members do. -/
theorem decimalNumbers_object (fs : List (GoString × JsonValue)) :
    (JsonValue.object fs).DecimalNumbers = FieldsDecimal fs := rfl

/-- A batch is written with decimal numbers only. -/
theorem BatchState.decimalNumbers_toJson (b : BatchState) : b.toJson.DecimalNumbers := by
  have htx : FieldsDecimal (if b.btcTxID = [] then [] else [(ascii "btcTxId", .string b.btcTxID)]) := by
    split_ifs
    · trivial
    · exact ⟨trivial, trivial⟩
  simp only [BatchState.toJson, decimalNumbers_object, fieldsDecimal_append, fieldsDecimal_cons,
    decimalNumbers_uintJson, decimalNumbers_byteArrayJson, decimalNumbers_hexJson,
    fieldsDecimal_omitZero, htx, and_self]
  trivial

/-- A state is written with decimal numbers only. -/
theorem OTSState.decimalNumbers_toJson (s : OTSState) : s.toJson.DecimalNumbers := by
  obtain ⟨en, last, _ | b⟩ := s <;>
  simp only [OTSState.toJson, decimalNumbers_object, fieldsDecimal_append, fieldsDecimal_cons,
    decimalNumbers_uintJson, BatchState.decimalNumbers_toJson, and_self] <;> trivial

/-- A snapshot is written with decimal numbers only. -/
theorem Snapshot.decimalNumbers_toJson (snap : Snapshot) : snap.toJson.DecimalNumbers := by
  obtain ⟨number, hash, _ | st⟩ := snap <;>
  simp only [Snapshot.toJson, decimalNumbers_object, fieldsDecimal_cons, decimalNumbers_uintJson,
    decimalNumbers_hexJson, OTSState.decimalNumbers_toJson, and_self] <;> trivial

/-- **`DecodeOTSState` reads back `Encode`**, the BTC txid sanitized. -/
theorem decodeOTSState_encode (s : OTSState) : decodeOTSState s.encode = .ok s.throughJson := by
  rw [decodeOTSState, OTSState.encode, parseJson_render _ s.decimalNumbers_toJson]
  exact bindStruct_otsState s

/-- **`DecodeSnapshot` reads back `Encode`**, the BTC txid sanitized. -/
theorem decodeSnapshot_encode (snap : Snapshot) :
    decodeSnapshot snap.encode = .ok snap.throughJson := by
  rw [decodeSnapshot, Snapshot.encode, parseJson_render _ snap.decimalNumbers_toJson]
  exact bindStruct_snapshot snap

/-- A state whose BTC txid is ASCII, as every txid the engine writes is, comes through JSON
unchanged. -/
theorem OTSState.throughJson_of_ascii {s : OTSState}
    (h : ∀ b, s.currentBatch = some b → ∀ c ∈ b.btcTxID, c < 128) : s.throughJson = s := by
  obtain ⟨en, last, _ | b⟩ := s
  · rfl
  · simp only [OTSState.throughJson, Option.map_some', BatchState.throughJson,
      utf8Sanitize_ascii (h b rfl)]


/-- The BTC txid of the state's batch, if it has one, is valid UTF-8. -/
def OTSState.txidValid (s : OTSState) : Bool := s.currentBatch.all fun b => validUTF8 b.btcTxID

/-- A state whose BTC txid is valid UTF-8 comes through JSON unchanged. -/
theorem OTSState.throughJson_of_txidValid {s : OTSState} (h : s.txidValid = true) :
    s.throughJson = s := by
  obtain ⟨en, last, _ | b⟩ := s
  · rfl
  · simp only [OTSState.throughJson, Option.map_some', BatchState.throughJson,
      utf8Sanitize_of_validUTF8 h]

/-- **States and snapshots whose BTC txid is valid UTF-8 decode back from their encodings**, so
`Encode` is injective on such states. Go's JSON encoder writes every byte that is not part of
valid UTF-8 text as U+FFFD, and any state decodes back with its txid so sanitized. -/
theorem encode_decode_sanitized :
    (∀ s : OTSState, s.txidValid = true → decodeOTSState s.encode = .ok s) ∧
    (∀ snap : Snapshot, (∀ s ∈ snap.state, s.txidValid = true) →
      decodeSnapshot snap.encode = .ok snap) ∧
    (∀ s s' : OTSState, s.txidValid = true → s'.txidValid = true → s.encode = s'.encode →
      s = s') ∧
    ∀ s : OTSState, decodeOTSState s.encode = .ok s.throughJson := by
  have hstate : ∀ s : OTSState, s.txidValid = true → decodeOTSState s.encode = .ok s :=
    fun s h => (decodeOTSState_encode s).trans (congrArg _ (OTSState.throughJson_of_txidValid h))
  refine ⟨hstate, fun snap h => ?_, fun s s' h h' he => ?_, decodeOTSState_encode⟩
  · rw [decodeSnapshot_encode]
    obtain ⟨number, hash, _ | st⟩ := snap
    · rfl
    · simp only [Snapshot.throughJson, Option.map_some',
        OTSState.throughJson_of_txidValid (h st rfl)]
  · exact Except.ok.inj ((hstate s h).symm.trans (he ▸ hstate s' h'))

/-- A state whose BTC txid is `é`, two bytes of UTF-8, decodes back from its encoding. -/
theorem utf8_txid_round_trip :
    let s : OTSState := ⟨true, 0, some { btcTxID := [0xC3, 0xA9] }⟩
    s.txidValid = true ∧ decodeOTSState s.encode = .ok s := by
  intro s
  have h : s.txidValid = true := by
    simp only [s, OTSState.txidValid, Option.all]
    rw [validUTF8, if_neg (by decide), show decodeMultibyte 0xC3 [0xA9] = some (233, 1) by decide]
    exact validUTF8.eq_1
  exact ⟨h, encode_decode_sanitized.1 s h⟩

/-- A byte that starts no UTF-8 sequence is written as the escape of `U+FFFD`. -/
theorem escapeString_invalid {b : UInt8} (hb : ¬b < 0x80) (h : decodeMultibyte b [] = none) :
    escapeString [b] = unicodeEscape 0xFFFD := by
  rw [escapeString, if_neg hb, h, escapeString, List.append_nil]

/-- Two states whose BTC txids are the single bytes `0xff` and `0xfe` differ and have one
encoding, and the first does not come back from it. -/
theorem encode_merges_invalid_txids :
    let s1 : OTSState := ⟨true, 0, some { btcTxID := [255] }⟩
    let s2 : OTSState := ⟨true, 0, some { btcTxID := [254] }⟩
    s1 ≠ s2 ∧ s1.encode = s2.encode ∧ decodeOTSState s1.encode ≠ .ok s1 := by
  intro s1 s2
  have h1 : escapeString [255] = unicodeEscape 0xFFFD := escapeString_invalid (by decide) (by decide)
  have h2 : escapeString [254] = unicodeEscape 0xFFFD := escapeString_invalid (by decide) (by decide)
  have hs : utf8Sanitize [255] = [0xEF, 0xBF, 0xBD] := by
    rw [utf8Sanitize, if_neg (by decide), show decodeMultibyte 255 [] = none by decide, utf8Sanitize,
      List.append_nil]
  refine ⟨by decide, ?_, ?_⟩
  · simp only [s1, s2, OTSState.encode, OTSState.toJson, BatchState.toJson, List.cons_append,
      List.singleton_append, JsonValue.render, renderFields, renderFieldsAfter, List.append_assoc,
      omitZero, if_pos rfl, List.nil_append, List.cons_ne_nil, if_false, quote, h1, h2]
  · rw [decodeOTSState_encode s1]
    intro h
    have := congrArg (fun s : OTSState => s.currentBatch.map BatchState.btcTxID) (Except.ok.inj h)
    simp only [s1, OTSState.throughJson, BatchState.throughJson, Option.map_some', hs,
      Option.some.injEq] at this
    exact absurd this (by decide)

end Ots

import Mathlib.Data.List.Basic
import Mathlib.Tactic.Ring
import Mathlib.Tactic.Positivity
import Mathlib.Tactic.Linarith
import Mathlib.Tactic.NormNum

/-!
# Bytes, fixed-width arrays and the integer encodings

Go's byte arrays `common.Hash`, `common.Address` and `[32]byte` are lists of bytes of a fixed
length, carried as a field so that a value of the wrong width cannot be built. Go strings are
byte strings and are modelled as `List UInt8` as well.

The module's `uint64` values are Lean's `UInt64`; the lemmas at the end of this file move their
arithmetic to `Nat`, where `omega` closes it.

The `math/big` and `common` helpers the system-transaction codec goes through are modelled by
what they compute:

* `beValue` is `new(big.Int).SetBytes(b)`, the big-endian value of a byte string;
* `beBytes w v` is the `w`-byte big-endian image of `v` (the low `w` bytes);
* `uint64Bytes` is `big.Int.Bytes()` of a value below `2^64`: big-endian without leading zeros;
* `rightAlign` is `copy` of a short byte string into the tail of a zeroed slot;
* `bytesToHash` is `common.BytesToHash`, which keeps the last 32 bytes, right-aligned;
* `hexEncode` is `hex.EncodeToString` (`common.Bytes2Hex`), lowercase.

The key fact is `rightAlign_uint64Bytes`: the codec's right-aligned minimal bytes are exactly the
32-byte big-endian image, and `beValue` reads it back (`beValue_beBytes`).
-/

namespace Ots

/-- A Go byte array `[n]byte`: exactly `n` bytes. -/
structure ByteVec (n : Nat) where
  bytes : List UInt8
  length_bytes : bytes.length = n
deriving DecidableEq

/-- `common.Hash`, a 32-byte array. -/
abbrev Hash := ByteVec 32

/-- `common.Address`, a 20-byte array. -/
abbrev Address := ByteVec 20

/-- A Go string: a sequence of bytes, not necessarily valid UTF-8. -/
abbrev GoString := List UInt8

/-- The zero value of `[n]byte`. -/
def ByteVec.zero (n : Nat) : ByteVec n := ⟨List.replicate n 0, List.length_replicate n 0⟩

/-- The zero array is the default of `[n]byte`. -/
instance (n : Nat) : Inhabited (ByteVec n) := ⟨ByteVec.zero n⟩

/-- Two arrays with the same bytes are equal. -/
theorem ByteVec.ext_bytes {n : Nat} {a b : ByteVec n} (h : a.bytes = b.bytes) : a = b := by
  cases a; cases b; cases h; rfl

/-! ## Big-endian values -/

/-- `new(big.Int).SetBytes(b)`: the unsigned big-endian value of `b`. -/
def beValue (b : List UInt8) : Nat := b.foldl (fun acc x => acc * 256 + x.toNat) 0

/-- The `w`-byte big-endian image of `v`, most significant byte first; only `v % 256 ^ w` is
kept. -/
def beBytes : Nat → Nat → List UInt8
  | 0, _ => []
  | w + 1, v => UInt8.ofNat (v / 256 ^ w) :: beBytes w v

/-- `big.Int.Bytes()` of a value below `2 ^ 64` (what `SetUint64` and `NewInt` produce in the
codec): its big-endian bytes with the leading zero bytes dropped. -/
def uint64Bytes (v : Nat) : List UInt8 := (beBytes 8 v).dropWhile (· == 0)

/-- `copy(slot[width-len(b):], b)` into a zeroed slot of `width` bytes. -/
def rightAlign (width : Nat) (b : List UInt8) : List UInt8 :=
  List.replicate (width - b.length) 0 ++ b

/-- `common.BytesToHash(b)`: the last 32 bytes of `b`, right-aligned in a zero hash. -/
def bytesToHash (b : List UInt8) : Hash :=
  ⟨rightAlign 32 (b.drop (b.length - 32)), by simp [rightAlign]; omega⟩

/-- `common.BytesToHash(b).Big().Uint64()`: the big-endian value of a word, low 64 bits. -/
def wordUint64 (b : List UInt8) : UInt64 := UInt64.ofNat (beValue (bytesToHash b).bytes)

/-- The lowercase hexadecimal digit of a nibble, as an ASCII byte. -/
def hexDigit (n : Nat) : UInt8 := if n < 10 then UInt8.ofNat (48 + n) else UInt8.ofNat (87 + n)

/-- The value of an ASCII hexadecimal digit, either case, `none` for any other byte: the digit
test of `encoding/hex` and of `encoding/json`'s `unhex`. -/
def hexValue (c : UInt8) : Option Nat :=
  if 48 ≤ c.toNat ∧ c.toNat ≤ 57 then some (c.toNat - 48)
  else if 97 ≤ c.toNat ∧ c.toNat ≤ 102 then some (c.toNat - 87)
  else if 65 ≤ c.toNat ∧ c.toNat ≤ 70 then some (c.toNat - 55)
  else none

/-- `hex.EncodeToString`, also `common.Bytes2Hex`: two lowercase digits per byte. -/
def hexEncode (b : List UInt8) : List UInt8 :=
  b.flatMap fun x => [hexDigit (x.toNat / 16), hexDigit (x.toNat % 16)]

/-- The bytes of an ASCII string literal. -/
def ascii (s : String) : List UInt8 := s.toList.map fun c => UInt8.ofNat c.toNat

/-- A byte made from a number keeps it modulo 256. -/
theorem toNat_uint8_ofNat (n : Nat) : (UInt8.ofNat n).toNat = n % 256 := rfl

/-- A byte is below 256, in the spelling `omega` reads. -/
theorem u8_toNat_lt (a : UInt8) : a.toNat < 256 := a.toNat_lt_size

/-- A digit `hexDigit` writes reads back as its nibble. -/
theorem hexValue_hexDigit {n : Nat} (h : n < 16) : hexValue (hexDigit n) = some n := by
  unfold hexDigit hexValue
  split_ifs <;> simp only [toNat_uint8_ofNat, Option.some.injEq] at * <;> omega

/-- The big-endian fold from an accumulator shifts the accumulator past the bytes. -/
theorem foldl_beValue (b : List UInt8) (acc : Nat) :
    b.foldl (fun acc x => acc * 256 + x.toNat) acc = acc * 256 ^ b.length + beValue b := by
  induction b generalizing acc with
  | nil => simp [beValue]
  | cons x b ih =>
    have hcons : beValue (x :: b) = (0 * 256 + x.toNat) * 256 ^ b.length + beValue b := ih _
    rw [List.foldl_cons, ih, hcons, List.length_cons, Nat.pow_succ]
    ring

/-- No bytes have the value zero. -/
@[simp] theorem beValue_nil : beValue [] = 0 := rfl

/-- A leading byte weighs `256 ^ n` over the `n` bytes after it. -/
theorem beValue_cons (x : UInt8) (b : List UInt8) :
    beValue (x :: b) = x.toNat * 256 ^ b.length + beValue b := by
  show b.foldl _ (0 * 256 + x.toNat) = _
  rw [foldl_beValue]
  ring

/-- Zero bytes have the value zero. -/
@[simp] theorem beValue_replicate_zero (n : Nat) : beValue (List.replicate n 0) = 0 := by
  induction n with
  | zero => rfl
  | succ n ih => simp [List.replicate_succ, beValue_cons, ih]

/-- The `w`-byte image has `w` bytes. -/
@[simp] theorem length_beBytes (w v : Nat) : (beBytes w v).length = w := by
  induction w <;> simp [beBytes, *]

/-- Reading the `w`-byte image back gives the value modulo `256 ^ w`. -/
theorem beValue_beBytes (w v : Nat) : beValue (beBytes w v) = v % 256 ^ w := by
  induction w with
  | zero => simp [beBytes, Nat.mod_one]
  | succ w ih =>
    rw [beBytes, beValue_cons, ih, length_beBytes, toNat_uint8_ofNat, Nat.pow_succ, Nat.mod_mul, Nat.add_comm,
      Nat.mul_comm]

/-- A wider image of a small value is the narrow one after zero bytes. -/
theorem beBytes_add (k w v : Nat) (hv : v < 256 ^ w) :
    beBytes (k + w) v = List.replicate k 0 ++ beBytes w v := by
  induction k with
  | zero => simp
  | succ k ih =>
    have hzero : v / 256 ^ (k + w) = 0 :=
      Nat.div_eq_of_lt (lt_of_lt_of_le hv (Nat.pow_le_pow_right (by norm_num) (by omega)))
    rw [Nat.add_right_comm, beBytes, ih, hzero, List.replicate_succ]
    rfl

/-- The 32-byte slot of a `uint64`: 24 zero bytes, then its 8 big-endian bytes. -/
theorem beBytes_thirtyTwo (v : Nat) (hv : v < 2 ^ 64) :
    beBytes 32 v = List.replicate 24 0 ++ beBytes 8 v :=
  beBytes_add 24 8 v (by norm_num at hv ⊢; omega)

/-- **The codec's uint64 slot.** Copying the minimal big-endian bytes of a value below `2 ^ 64`
into the tail of a zeroed 32-byte slot writes its 32-byte big-endian image. -/
theorem rightAlign_uint64Bytes (v : Nat) (hv : v < 2 ^ 64) :
    rightAlign 32 (uint64Bytes v) = beBytes 32 v := by
  have hsplit := List.takeWhile_append_dropWhile (· == (0 : UInt8)) (beBytes 8 v)
  have hzeros : (beBytes 8 v).takeWhile (· == 0) =
      List.replicate ((beBytes 8 v).takeWhile (· == 0)).length 0 :=
    List.eq_replicate_iff.mpr ⟨rfl, fun x hx => by simpa using List.mem_takeWhile_imp hx⟩
  have hlen := congrArg List.length hsplit
  rw [List.length_append, length_beBytes] at hlen
  rw [beBytes_thirtyTwo v hv, rightAlign, uint64Bytes]
  conv_rhs => rw [← hsplit, hzeros, ← List.append_assoc, List.append_replicate_replicate]
  congr 2
  omega

/-- The minimal bytes of a `uint64` are at most eight. -/
theorem length_uint64Bytes (v : Nat) : (uint64Bytes v).length ≤ 8 := by
  have hlen := congrArg List.length (List.takeWhile_append_dropWhile (· == (0 : UInt8)) (beBytes 8 v))
  rw [List.length_append, length_beBytes] at hlen
  rw [uint64Bytes]
  omega

/-- `common.BytesToHash` of exactly 32 bytes is those bytes. -/
theorem bytesToHash_bytes (h : Hash) : bytesToHash h.bytes = h := by
  apply ByteVec.ext_bytes
  simp [bytesToHash, rightAlign, h.length_bytes]

/-! ## `uint64` arithmetic

Go's `uint64` wraps modulo `2 ^ 64`; these lemmas restate comparisons and the two operations the
module uses (`+ 1`, `- 1`) on `toNat`, so that `omega` can close the goals. -/

/-- `uint64` order is the order of the values. -/
theorem u64_le_iff {a b : UInt64} : a ≤ b ↔ a.toNat ≤ b.toNat := Iff.rfl

/-- Strict `uint64` order is the strict order of the values. -/
theorem u64_lt_iff {a b : UInt64} : a < b ↔ a.toNat < b.toNat := Iff.rfl

/-- Two `uint64`s are equal when their values are. -/
theorem u64_eq_iff {a b : UInt64} : a = b ↔ a.toNat = b.toNat :=
  ⟨congrArg UInt64.toNat, UInt64.toNat.inj⟩

/-- `uint64` addition wraps modulo `2 ^ 64`. -/
theorem u64_toNat_add (a b : UInt64) : (a + b).toNat = (a.toNat + b.toNat) % 2 ^ 64 := rfl

/-- `uint64` subtraction wraps modulo `2 ^ 64`. -/
theorem u64_toNat_sub (a b : UInt64) : (a - b).toNat = (2 ^ 64 - b.toNat + a.toNat) % 2 ^ 64 :=
  BitVec.toNat_sub _ _

/-- The value of `uint64` one. -/
@[simp] theorem u64_toNat_one : (1 : UInt64).toNat = 1 := rfl

/-- A `uint64` is below `2 ^ 64`, in the spelling `omega` reads. -/
theorem u64_toNat_lt (a : UInt64) : a.toNat < 2 ^ 64 := a.toNat_lt_size

/-- A `uint64` made from its own value is itself. -/
theorem u64_ofNat_toNat (a : UInt64) : UInt64.ofNat a.toNat = a :=
  u64_eq_iff.mpr (UInt64.toNat_ofNat_of_lt (u64_toNat_lt a))

/-- Adding one below the top does not wrap. -/
theorem u64_toNat_add_one {a : UInt64} (h : a.toNat + 1 < 2 ^ 64) : (a + 1).toNat = a.toNat + 1 := by
  rw [u64_toNat_add, u64_toNat_one, Nat.mod_eq_of_lt h]

/-- Taking one from a positive `uint64` does not wrap. -/
theorem u64_toNat_sub_one {a : UInt64} (h : 1 ≤ a.toNat) : (a - 1).toNat = a.toNat - 1 := by
  have := u64_toNat_lt a
  rw [u64_toNat_sub, u64_toNat_one]
  omega

end Ots

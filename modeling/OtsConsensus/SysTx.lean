import OtsConsensus.Chain
import OtsConsensus.State
import OtsConsensus.Calendar

/-!
# System transactions: builders, decoders and validators

The package `systx`: `Builder` (`builder.go` and `ots_tx.go`), `Validator`, and the
package-level decoders, selector tests and validators.

Calldata is a 4-byte selector followed by 32-byte words; `calldataWord data i` is the slice
`data[4 + 32 i : 4 + 32 (i + 1)]` every decoder reads after its length check. Two encoders write
a `uint64` into a word: `SetUint64` copies the value's bytes into the tail of the word
(`uint64Word`); `otsConfirmed` goes through `int64` and `common.BigToHash` instead, and
`big.Int.Bytes` is the magnitude, so the word holds `|int64(v)|` (`int64Word`).

Families of near-identical functions share one definition: the two anchor encoders
(`anchorCalldata`), the two anchor decoders (`decodeAnchorWords`), the two txid conversions
(`txIDToHash`), the three selector tests (`hasSelector`) and the two package validators of OTS
calls (`validateOTSCall`). Every builder of `ots_tx.go` is called with a non-`nil` parameter
pointer in this repository, so their `nil` checks are not modelled; `BuildSystemTx` and
`ValidateCandidate` of `builder.go` take the candidate as an `Option`.
-/

namespace Ots

/-! ## Words -/

/-- `new(big.Int).SetUint64(v)` copied into the tail of a zeroed 32-byte word. -/
def uint64Word (v : UInt64) : List UInt8 := rightAlign 32 (uint64Bytes v.toNat)

/-- `common.BigToHash(big.NewInt(int64(v)))`: the bytes of `|int64(v)|`, right-aligned. -/
def int64Word (v : UInt64) : List UInt8 := (bytesToHash (uint64Bytes (toInt64 v).natAbs)).bytes

/-- `new(big.Int).SetBytes(b).Uint64()`: the big-endian value, low 64 bits. -/
def bigUint64 (b : List UInt8) : UInt64 := UInt64.ofNat (beValue b)

/-- `copy(dst[:], src)` into a zeroed `[32]byte`. -/
def copyBytes32 (src : List UInt8) : ByteVec 32 :=
  ⟨src.take 32 ++ List.replicate (32 - (src.take 32).length) 0, by simp⟩

/-- The word `i` of calldata: `data[4 + 32 i : 4 + 32 (i + 1)]`. -/
def calldataWord (data : List UInt8) (i : Nat) : List UInt8 := (data.drop (4 + 32 * i)).take 32

/-! ## Bitcoin txids -/

/-- `hex.DecodeString` as `common.Hex2Bytes` uses it, its error dropped: the bytes of the digit
pairs before the first invalid digit. -/
def hexDecodePrefix : List UInt8 → List UInt8
  | a :: b :: rest =>
    match hexValue a, hexValue b with
    | some x, some y => UInt8.ofNat (16 * x + y) :: hexDecodePrefix rest
    | _, _ => []
  | _ => []

/-- `common.FromHex(s)`: drop a `0x` or `0X` prefix, put a `0` before an odd number of digits,
decode. -/
def fromHex (s : GoString) : List UInt8 :=
  let s := match s with
    | 48 :: 120 :: rest | 48 :: 88 :: rest => rest
    | _ => s
  hexDecodePrefix (if s.length % 2 = 1 then 48 :: s else s)

/-- `common.HexToHash(s)`. -/
def hexToHash (s : GoString) : Hash := bytesToHash (fromHex s)

/-- The body of `btcTxIDToBytes32` and `btcTxIDToBytes32Local`: the zero hash for `""`, else
`common.HexToHash` of the txid without a `0x` prefix. -/
def txIDToHash (txid : GoString) : Hash :=
  if txid = [] then ByteVec.zero 32
  else hexToHash (if 2 ≤ txid.length ∧ txid.take 2 = ascii "0x" then txid.drop 2 else txid)

/-- `btcTxIDToBytes32(txid)` of `builder.go`. -/
def btcTxIDToBytes32 (txid : GoString) : Hash := txIDToHash txid

/-- `btcTxIDToBytes32Local(txid)` of `ots_tx.go`. -/
def btcTxIDToBytes32Local (txid : GoString) : Hash := txIDToHash txid

/-! ## Builders -/

/-- `anchorSig` of `builder.go`: the selector of `anchor(uint64,uint64,bytes32,bytes32,uint64)`. -/
def anchorSig : List UInt8 := [0xa0, 0x51, 0x4e, 0xfe]

/-- `systx.Builder`. -/
structure Builder where
  contractAddress : Address

/-- `OTSSubmittedParams`. -/
structure OTSSubmittedParams where
  rootHash : Hash
  otsDigest : ByteVec 32
deriving DecidableEq

/-- `OTSConfirmedParams`. -/
structure OTSConfirmedParams where
  rootHash : Hash
  btcBlockHeight : UInt64
  btcTxID : ByteVec 32
  btcTimestamp : UInt64
deriving DecidableEq

/-- `systx.CandidateBatch`, the anchor's input. -/
structure CandidateBatch where
  rootHash : Hash
  startBlock : UInt64
  endBlock : UInt64
  eventRUIDs : List Hash
  btcBlockHeight : UInt64
  btcTxID : GoString
  btcTimestamp : UInt64

/-- The calldata both anchor encoders write: a selector and five words. -/
def anchorCalldata (selector : List UInt8) (startBlock endBlock : UInt64) (rootHash btcTxHash : Hash)
    (btcTimestamp : UInt64) : List UInt8 :=
  selector ++ uint64Word startBlock ++ uint64Word endBlock ++ rootHash.bytes ++ btcTxHash.bytes ++
    uint64Word btcTimestamp

/-- A system transaction of the builder: to the contract, value and gas price zero. -/
def Builder.systemTx (b : Builder) (nonce gasLimit : UInt64) (data : List UInt8) : Transaction :=
  newTransaction nonce b.contractAddress 0 gasLimit 0 data

namespace Builder

variable (b : Builder)

/-- `encodeCalldata(candidate)` of `builder.go`, on the candidate's fields. -/
def encodeCalldata (startBlock endBlock : UInt64) (rootHash : Hash) (btcTxID : GoString)
    (btcTimestamp : UInt64) : List UInt8 :=
  anchorCalldata anchorSig startBlock endBlock rootHash (btcTxIDToBytes32 btcTxID) btcTimestamp

/-- `BuildOTSSubmittedTx(params, coinbase, nonce, gasLimit)`. -/
def buildOTSSubmittedTx (params : OTSSubmittedParams) (_coinbase : Address)
    (nonce gasLimit : UInt64) : Transaction :=
  b.systemTx nonce gasLimit (otsSubmittedSelector ++ params.rootHash.bytes ++ params.otsDigest.bytes)

/-- `BuildOTSConfirmedTx(params, coinbase, nonce, gasLimit)`. -/
def buildOTSConfirmedTx (params : OTSConfirmedParams) (_coinbase : Address)
    (nonce gasLimit : UInt64) : Transaction :=
  b.systemTx nonce gasLimit
    (otsConfirmedSelector ++ params.rootHash.bytes ++ int64Word params.btcBlockHeight ++
      params.btcTxID.bytes ++ int64Word params.btcTimestamp)

/-- `BuildAnchorTx(candidate, coinbase, nonce, gasLimit)`. -/
def buildAnchorTx (candidate : CandidateBatch) (_coinbase : Address) (nonce gasLimit : UInt64) :
    Transaction :=
  b.systemTx nonce gasLimit
    (anchorCalldata anchorSelector candidate.startBlock candidate.endBlock candidate.rootHash
      (btcTxIDToBytes32Local candidate.btcTxID) candidate.btcTimestamp)

/-- `BuildSystemTx(candidate, coinbase, nonce, gasLimit)` of `builder.go`: `ErrInvalidCandidate`
for a `nil` candidate or batch metadata (`none`), else the `anchor` call of `encodeCalldata`. -/
def buildSystemTx (candidate : Option CandidateBatch) (_coinbase : Address) (nonce gasLimit : UInt64) :
    Except Error Transaction :=
  match candidate with
  | none => .error .invalidCandidate
  | some c => .ok (b.systemTx nonce gasLimit
      (encodeCalldata c.startBlock c.endBlock c.rootHash c.btcTxID c.btcTimestamp))

/-- `ValidateCandidate(candidate, computedRoot)`: `ErrInvalidCandidate` for a `nil` candidate or
batch metadata, `ErrRootMismatch` for another root. -/
def validateCandidate (candidate : Option CandidateBatch) (computedRoot : Hash) : Option Error :=
  match candidate with
  | none => some .invalidCandidate
  | some c => if c.rootHash ≠ computedRoot then some .rootMismatch else none

end Builder

/-! ## Decoders -/

/-- `matchSelector(a, b)`. -/
def matchSelector (a b : List UInt8) : Bool :=
  if a.length < 4 || b.length < 4 then false else a.take 4 == b.take 4

/-- `DecodeOTSSubmittedTx(tx)`. -/
def decodeOTSSubmittedTx (tx : Transaction) : Except Error OTSSubmittedParams :=
  let data := tx.data
  if data.length < 68 then .error .invalidOTSTx
  else if !matchSelector (data.take 4) otsSubmittedSelector then .error .invalidOTSTx
  else .ok { rootHash := copyBytes32 (calldataWord data 0), otsDigest := copyBytes32 (calldataWord data 1) }

/-- `DecodeOTSConfirmedTx(tx)`. -/
def decodeOTSConfirmedTx (tx : Transaction) : Except Error OTSConfirmedParams :=
  let data := tx.data
  if data.length < 132 then .error .invalidOTSTx
  else if !matchSelector (data.take 4) otsConfirmedSelector then .error .invalidOTSTx
  else .ok { rootHash := copyBytes32 (calldataWord data 0),
             btcBlockHeight := wordUint64 (calldataWord data 1),
             btcTxID := copyBytes32 (calldataWord data 2),
             btcTimestamp := wordUint64 (calldataWord data 3) }

/-- The five words both anchor decoders read after checking for at least 164 bytes; neither
checks the selector. -/
def decodeAnchorWords (data : List UInt8) : Option (UInt64 × UInt64 × Hash × Hash × UInt64) :=
  if data.length < 4 + 32 * 5 then none
  else some (bigUint64 (calldataWord data 0), bigUint64 (calldataWord data 1),
    copyBytes32 (calldataWord data 2), copyBytes32 (calldataWord data 3),
    bigUint64 (calldataWord data 4))

/-- `DecodedAnchorCalldata`; `btcBlockHeight` is never written by the decoder. -/
structure DecodedAnchorCalldata where
  startBlock : UInt64
  endBlock : UInt64
  rootHash : Hash
  btcTxHash : Hash
  btcBlockHeight : UInt64
  btcTimestamp : UInt64
deriving DecidableEq

/-- `DecodeCalldata(data)` of `ots_tx.go`. -/
def decodeCalldata (data : List UInt8) : Except Error DecodedAnchorCalldata :=
  match decodeAnchorWords data with
  | none => .error .invalidOTSTx
  | some (s, e, r, t, ts) =>
    .ok { startBlock := s, endBlock := e, rootHash := r, btcTxHash := t, btcBlockHeight := 0,
          btcTimestamp := ts }

/-- `DecodedCalldata` of the validator. -/
structure DecodedCalldata where
  startBlock : UInt64
  endBlock : UInt64
  batchRoot : Hash
  btcTxHash : Hash
  btcTimestamp : UInt64
deriving DecidableEq

/-- `systx.Validator`. -/
structure Validator where
  contractAddress : Address

/-- `Validator.DecodeCalldata(data)`. -/
def Validator.decodeCalldata (_v : Validator) (data : List UInt8) : Except Error DecodedCalldata :=
  match decodeAnchorWords data with
  | none => .error .invalidCalldata
  | some (s, e, r, t, ts) =>
    .ok { startBlock := s, endBlock := e, batchRoot := r, btcTxHash := t, btcTimestamp := ts }

/-! ## Selector tests and validators -/

/-- The test shared by `IsOTSSubmittedTx`, `IsOTSConfirmedTx` and `IsAnchorTx`. -/
def hasSelector (selector : List UInt8) (tx : Transaction) : Bool :=
  if tx.data.length < 4 then false else matchSelector (tx.data.take 4) selector

/-- `IsOTSSubmittedTx(tx)`. -/
def isOTSSubmittedTx (tx : Transaction) : Bool := hasSelector otsSubmittedSelector tx

/-- `IsOTSConfirmedTx(tx)`. -/
def isOTSConfirmedTx (tx : Transaction) : Bool := hasSelector otsConfirmedSelector tx

/-- `IsAnchorTx(tx)`. -/
def isAnchorTx (tx : Transaction) : Bool := hasSelector anchorSelector tx

/-- `IsOTSSystemTx(tx)`. -/
def isOTSSystemTx (tx : Transaction) : Bool := isOTSSubmittedTx tx || isOTSConfirmedTx tx || isAnchorTx tx

/-- `Validator.ValidateSystemTx(tx, coinbase)`: `nil` is `none`. -/
def Validator.validateSystemTx (v : Validator) (tx : Transaction) (_coinbase : Address) :
    Option Error :=
  if tx.gasPrice ≠ 0 then some .notSystemTx
  else if tx.toAddress ≠ some v.contractAddress then some .invalidRecipient
  else if tx.data.length < 4 then some .invalidCalldata
  else if tx.data.take 4 ≠ anchorSig then some .invalidCalldata
  else none

/-- The package-level `ValidateSystemTx(tx, contractAddr)`. Its errors are made by `errors.New`
where they are returned, not the sentinels `ErrNotSystemTx` and `ErrInvalidRecipient` that
`Validator.ValidateSystemTx` returns. -/
def validateSystemTx (tx : Transaction) (contractAddr : Address) : Option Error :=
  if tx.gasPrice ≠ 0 then some (.fresh (ascii "not a system transaction (gasPrice != 0)"))
  else if tx.toAddress ≠ some contractAddr then some (.fresh (ascii "invalid recipient address"))
  else none

/-- The body shared by `ValidateOTSSubmittedTx` and `ValidateOTSConfirmedTx`: the system checks,
the call's selector, its fixed length. -/
def validateOTSCall (isCall : Transaction → Bool) (minLength : Nat) (tx : Transaction)
    (contractAddr : Address) : Option Error :=
  match validateSystemTx tx contractAddr with
  | some err => some err
  | none =>
    if !isCall tx then some .invalidOTSTx
    else if tx.data.length < minLength then some .invalidOTSTx
    else none

/-- `ValidateOTSSubmittedTx(tx, contractAddr)`. -/
def validateOTSSubmittedTx (tx : Transaction) (contractAddr : Address) : Option Error :=
  validateOTSCall isOTSSubmittedTx 68 tx contractAddr

/-- `ValidateOTSConfirmedTx(tx, contractAddr)`. -/
def validateOTSConfirmedTx (tx : Transaction) (contractAddr : Address) : Option Error :=
  validateOTSCall isOTSConfirmedTx 132 tx contractAddr

/-! ## Words read back -/

/-- Word 0 after a selector is the first 32 bytes. -/
theorem calldataWord_zero {sel w : List UInt8} (rest : List UInt8) (hsel : sel.length = 4)
    (hw : w.length = 32) : calldataWord (sel ++ (w ++ rest)) 0 = w := by
  rw [calldataWord, Nat.mul_zero, Nat.add_zero, List.drop_left' hsel, List.take_left' hw]

/-- Word `i + 1` after a selector is word `i` after the first word. -/
theorem calldataWord_succ {sel w : List UInt8} (rest : List UInt8) (i : Nat) (hsel : sel.length = 4)
    (hw : w.length = 32) : calldataWord (sel ++ (w ++ rest)) (i + 1) = calldataWord (sel ++ rest) i := by
  have h1 : 4 + 32 * (i + 1) = (sel ++ w).length + 32 * i := by simp [hsel, hw]; omega
  have h2 : 4 + 32 * i = sel.length + 32 * i := by rw [hsel]
  rw [calldataWord, calldataWord, h1, ← List.append_assoc, List.drop_append, h2, List.drop_append]

/-- A `uint64` word has 32 bytes. -/
@[simp] theorem length_uint64Word (v : UInt64) : (uint64Word v).length = 32 := by
  have := length_uint64Bytes v.toNat
  simp only [uint64Word, rightAlign, List.length_append, List.length_replicate]
  omega

/-- A `uint64` word is the 32-byte big-endian image of the value. -/
theorem uint64Word_eq (v : UInt64) : uint64Word v = beBytes 32 v.toNat :=
  rightAlign_uint64Bytes _ (u64_toNat_lt v)

/-- `|int64(v)|`: `v` below `2 ^ 63`, `2 ^ 64 - v` from there on. -/
theorem natAbs_toInt64 (v : UInt64) :
    (toInt64 v).natAbs = if v.toNat < 2 ^ 63 then v.toNat else 2 ^ 64 - v.toNat := by
  have := u64_toNat_lt v
  unfold toInt64
  split <;> omega

/-- **The `otsConfirmed` word of a `uint64`** is the 32-byte big-endian image of `|int64(v)|`. -/
theorem int64Word_eq (v : UInt64) : int64Word v = beBytes 32 (toInt64 v).natAbs := by
  have hlt : (toInt64 v).natAbs < 2 ^ 64 := by rw [natAbs_toInt64]; have := u64_toNat_lt v; split <;> omega
  have hshort := length_uint64Bytes (toInt64 v).natAbs
  show rightAlign 32 ((uint64Bytes _).drop ((uint64Bytes _).length - 32)) = _
  rw [Nat.sub_eq_zero_of_le (by omega), List.drop_zero, rightAlign_uint64Bytes _ hlt]

/-- An `int64` word has 32 bytes. -/
@[simp] theorem length_int64Word (v : UInt64) : (int64Word v).length = 32 := by
  rw [int64Word_eq, length_beBytes]

/-- Reading a 32-byte image as `uint64` gives a value below `2 ^ 64` back. -/
theorem bigUint64_beBytes (v : Nat) (hv : v < 2 ^ 64) : bigUint64 (beBytes 32 v) = UInt64.ofNat v := by
  rw [bigUint64, beValue_beBytes, Nat.mod_eq_of_lt (by omega)]

/-- Reading a 32-byte image through a hash gives a value below `2 ^ 64` back. -/
theorem wordUint64_beBytes (v : Nat) (hv : v < 2 ^ 64) : wordUint64 (beBytes 32 v) = UInt64.ofNat v := by
  rw [wordUint64, bytesToHash_bytes ⟨beBytes 32 v, length_beBytes 32 v⟩]
  exact bigUint64_beBytes v hv

/-- The only word after a selector is the word. -/
theorem calldataWord_last {sel w : List UInt8} (hsel : sel.length = 4) (hw : w.length = 32) :
    calldataWord (sel ++ w) 0 = w := by
  simpa using calldataWord_zero [] hsel hw

/-- Copying an array's bytes gives the array. -/
theorem copyBytes32_bytes (h : ByteVec 32) : copyBytes32 h.bytes = h := by
  apply ByteVec.ext_bytes
  simp [copyBytes32, h.length_bytes]

/-- A `uint64` word reads back as the value. -/
theorem bigUint64_uint64Word (v : UInt64) : bigUint64 (uint64Word v) = v := by
  rw [uint64Word_eq, bigUint64_beBytes _ (u64_toNat_lt v), u64_ofNat_toNat]

/-- An `int64` word reads back as the absolute value of the signed reading. -/
theorem wordUint64_int64Word (v : UInt64) :
    wordUint64 (int64Word v) = UInt64.ofNat (toInt64 v).natAbs := by
  have hlt : (toInt64 v).natAbs < 2 ^ 64 := by
    rw [natAbs_toInt64]; have := u64_toNat_lt v; split <;> omega
  rw [int64Word_eq, wordUint64_beBytes _ hlt]

/-! ## Decoding what was built -/

/-- **`otsSubmitted` round trip.** Decoding the built transaction gives back its parameters. -/
theorem decodeOTSSubmittedTx_build (b : Builder) (p : OTSSubmittedParams) (coinbase : Address)
    (nonce gasLimit : UInt64) :
    decodeOTSSubmittedTx (b.buildOTSSubmittedTx p coinbase nonce gasLimit) = .ok p := by
  have hsel : otsSubmittedSelector.length = 4 := rfl
  simp only [decodeOTSSubmittedTx, Builder.buildOTSSubmittedTx, Builder.systemTx, newTransaction,
    List.append_assoc, List.length_append, hsel, ByteVec.length_bytes, List.take_left' hsel,
    calldataWord_zero _ hsel (ByteVec.length_bytes _),
    calldataWord_succ _ 0 hsel (ByteVec.length_bytes _),
    calldataWord_last hsel (ByteVec.length_bytes _), copyBytes32_bytes]
  rfl

/-- **`otsConfirmed` decodes `|int64(v)|`.** Decoding the built transaction gives back its root and
txid, and for each `uint64` the magnitude of its `int64` conversion: the value itself below
`2 ^ 63`, `2 ^ 64 - v` from there on. -/
theorem decodeOTSConfirmedTx_build (b : Builder) (p : OTSConfirmedParams) (coinbase : Address)
    (nonce gasLimit : UInt64) :
    decodeOTSConfirmedTx (b.buildOTSConfirmedTx p coinbase nonce gasLimit) =
      .ok { p with btcBlockHeight := UInt64.ofNat (toInt64 p.btcBlockHeight).natAbs,
                   btcTimestamp := UInt64.ofNat (toInt64 p.btcTimestamp).natAbs } := by
  have hsel : otsConfirmedSelector.length = 4 := rfl
  simp only [decodeOTSConfirmedTx, Builder.buildOTSConfirmedTx, Builder.systemTx, newTransaction,
    List.append_assoc, List.length_append, hsel, ByteVec.length_bytes, length_int64Word,
    List.take_left' hsel, calldataWord_zero _ hsel (ByteVec.length_bytes _),
    calldataWord_succ _ _ hsel (ByteVec.length_bytes _),
    calldataWord_succ _ _ hsel (length_int64Word _), calldataWord_zero _ hsel (length_int64Word _),
    calldataWord_zero _ hsel (ByteVec.length_bytes _), calldataWord_last hsel (length_int64Word _),
    copyBytes32_bytes, wordUint64_int64Word]
  rfl

/-- Both anchor decoders read back the five words of `anchorCalldata`, whatever its 4-byte
selector. -/
theorem decodeAnchorWords_anchorCalldata {sel : List UInt8} (hsel : sel.length = 4)
    (startBlock endBlock : UInt64) (rootHash btcTxHash : Hash) (btcTimestamp : UInt64) :
    decodeAnchorWords (anchorCalldata sel startBlock endBlock rootHash btcTxHash btcTimestamp) =
      some (startBlock, endBlock, rootHash, btcTxHash, btcTimestamp) := by
  simp only [decodeAnchorWords, anchorCalldata, List.append_assoc, List.length_append, hsel,
    ByteVec.length_bytes, length_uint64Word, calldataWord_zero _ hsel (length_uint64Word _),
    calldataWord_succ _ _ hsel (length_uint64Word _),
    calldataWord_succ _ _ hsel (ByteVec.length_bytes _),
    calldataWord_zero _ hsel (ByteVec.length_bytes _), calldataWord_last hsel (length_uint64Word _),
    copyBytes32_bytes, bigUint64_uint64Word]
  rfl

/-- **The `otsSubmitted` and `otsConfirmed` codec.** `otsSubmitted` decodes back to its
parameters; the `otsConfirmed` words of the BTC height and timestamp hold the 32-byte images of
`|int64(v)|`, and decoding returns those magnitudes in place of the two `uint64`s. -/
theorem otsCalldata_codec (b : Builder) (coinbase : Address) (nonce gasLimit : UInt64) :
    (∀ p : OTSSubmittedParams,
      decodeOTSSubmittedTx (b.buildOTSSubmittedTx p coinbase nonce gasLimit) = .ok p) ∧
    ∀ p : OTSConfirmedParams,
      calldataWord (b.buildOTSConfirmedTx p coinbase nonce gasLimit).data 1 =
          beBytes 32 (toInt64 p.btcBlockHeight).natAbs ∧
        calldataWord (b.buildOTSConfirmedTx p coinbase nonce gasLimit).data 3 =
          beBytes 32 (toInt64 p.btcTimestamp).natAbs ∧
        decodeOTSConfirmedTx (b.buildOTSConfirmedTx p coinbase nonce gasLimit) =
          .ok { p with btcBlockHeight := UInt64.ofNat (toInt64 p.btcBlockHeight).natAbs,
                       btcTimestamp := UInt64.ofNat (toInt64 p.btcTimestamp).natAbs } := by
  have hsel : otsConfirmedSelector.length = 4 := rfl
  refine ⟨fun p => decodeOTSSubmittedTx_build b p coinbase nonce gasLimit, fun p => ⟨?_, ?_,
    decodeOTSConfirmedTx_build b p coinbase nonce gasLimit⟩⟩ <;>
  simp only [Builder.buildOTSConfirmedTx, Builder.systemTx, newTransaction, List.append_assoc,
    calldataWord_succ _ _ hsel (ByteVec.length_bytes _),
    calldataWord_succ _ _ hsel (length_int64Word _), calldataWord_zero _ hsel (length_int64Word _),
    calldataWord_zero _ hsel (ByteVec.length_bytes _), calldataWord_last hsel (length_int64Word _)] <;>
  exact int64Word_eq _

/-- A BTC height of `2 ^ 63 + 1` is written as `2 ^ 63 - 1` and decodes to it. -/
theorem confirmed_height_past_int64 :
    calldataWord ((⟨ByteVec.zero 20⟩ : Builder).buildOTSConfirmedTx
        ⟨ByteVec.zero 32, 9223372036854775809, ByteVec.zero 32, 0⟩ (ByteVec.zero 20) 0 0).data 1 =
      beBytes 32 9223372036854775807 ∧
    decodeOTSConfirmedTx ((⟨ByteVec.zero 20⟩ : Builder).buildOTSConfirmedTx
        ⟨ByteVec.zero 32, 9223372036854775809, ByteVec.zero 32, 0⟩ (ByteVec.zero 20) 0 0) =
      .ok ⟨ByteVec.zero 32, 9223372036854775807, ByteVec.zero 32, 0⟩ := by
  obtain ⟨-, hconf⟩ := otsCalldata_codec ⟨ByteVec.zero 20⟩ (ByteVec.zero 20) 0 0
  obtain ⟨hword, -, hdec⟩ := hconf ⟨ByteVec.zero 32, 9223372036854775809, ByteVec.zero 32, 0⟩
  exact ⟨hword.trans (by decide), hdec.trans (congrArg _ (by decide))⟩

/-- **`otsConfirmed` round trip below `2 ^ 63`.** When the BTC height and timestamp are at most
`2 ^ 63`, decoding the built transaction gives back its parameters. -/
theorem decodeOTSConfirmedTx_build_of_le (b : Builder) (p : OTSConfirmedParams)
    (coinbase : Address) (nonce gasLimit : UInt64) (hh : p.btcBlockHeight.toNat ≤ 2 ^ 63)
    (ht : p.btcTimestamp.toNat ≤ 2 ^ 63) :
    decodeOTSConfirmedTx (b.buildOTSConfirmedTx p coinbase nonce gasLimit) = .ok p := by
  have habs : ∀ v : UInt64, v.toNat ≤ 2 ^ 63 → UInt64.ofNat (toInt64 v).natAbs = v := by
    intro v hv
    have hlt := u64_toNat_lt v
    have habs : (toInt64 v).natAbs = v.toNat := by rw [natAbs_toInt64]; split <;> omega
    rw [habs, u64_ofNat_toNat]
  rw [decodeOTSConfirmedTx_build, habs _ hh, habs _ ht]

/-- A height and a timestamp of `2 ^ 63`, the largest that round-trip, come back. -/
theorem confirmed_round_trip_at_bound :
    (9223372036854775808 : UInt64).toNat ≤ 2 ^ 63 ∧
      decodeOTSConfirmedTx ((⟨ByteVec.zero 20⟩ : Builder).buildOTSConfirmedTx
          ⟨ByteVec.zero 32, 9223372036854775808, ByteVec.zero 32, 9223372036854775808⟩
          (ByteVec.zero 20) 0 0) =
        .ok ⟨ByteVec.zero 32, 9223372036854775808, ByteVec.zero 32, 9223372036854775808⟩ :=
  ⟨by decide, decodeOTSConfirmedTx_build_of_le _ _ _ _ _ (by decide) (by decide)⟩

end Ots

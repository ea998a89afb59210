import OtsConsensus.State
import OtsConsensus.Json

/-!
# Snapshots and the JSON encodings of states and snapshots

`Snapshot` of `snapshot.go`, and `OTSState.Encode` / `Snapshot.Encode`, which are
`json.Marshal` of the records with their `json` tags.

What the marshaller writes for each field type: a `uint64` or `uint8` in decimal; a `bool` as
`true` or `false`; `common.Hash` and `common.Address` through their `MarshalText`, a string
`"0x…"` of lowercase hex; a `[32]byte` as an array of 32 numbers; a Go string quoted; a pointer as
the value it points to, or `null`. A field tagged `omitempty` is left out when it is `0`, `""` or
a `nil` pointer; a byte array has length 20 or 32 and is never left out.
-/

namespace Ots

/-- `Snapshot`: the OTS state at a block; `state` is the `*OTSState` pointer, `none` for `nil`. -/
structure Snapshot where
  number : UInt64
  hash : Hash
  state : Option OTSState
deriving DecidableEq

/-- `NewSnapshot(number, hash, state)`. It stores a copy of the state; values are never shared in
the model, so the copy is the state itself. -/
def Snapshot.new (number : UInt64) (hash : Hash) (state : OTSState) : Snapshot :=
  { number := number, hash := hash, state := some state }

/-- `Snapshot.Copy()`; `none` when the state pointer is `nil`, which Go dereferences. -/
def Snapshot.copy (s : Snapshot) : Option Snapshot := s.state.map fun _ => s

/-- A `uint64` or `uint8` field. -/
def uintJson (n : Nat) : JsonValue := .number (decimal n)

/-- A `common.Hash` or `common.Address` field: `MarshalText`, `"0x"` and lowercase hex. -/
def hexJson (b : List UInt8) : JsonValue := .string (ascii "0x" ++ hexEncode b)

/-- A `[32]byte` field: an array of numbers. -/
def byteArrayJson (b : ByteVec 32) : JsonValue := .array (b.bytes.map fun x => uintJson x.toNat)

/-- A `uint64` field tagged `omitempty`. -/
def omitZero (key : String) (n : UInt64) : List (GoString × JsonValue) :=
  if n = 0 then [] else [(ascii key, uintJson n.toNat)]

/-- The members `json.Marshal` writes for a `BatchState`. -/
def BatchState.toJson (b : BatchState) : JsonValue :=
  .object <|
    [(ascii "startBlock", uintJson b.startBlock.toNat),
     (ascii "endBlock", uintJson b.endBlock.toNat),
     (ascii "rootHash", hexJson b.rootHash.bytes),
     (ascii "status", uintJson b.status.val.toNat),
     (ascii "triggerBlock", uintJson b.triggerBlock.toNat),
     (ascii "triggerNode", hexJson b.triggerNode.bytes),
     (ascii "otsDigest", byteArrayJson b.otsDigest)] ++
    omitZero "submittedAt" b.submittedAt ++
    [(ascii "submittedBy", hexJson b.submittedBy.bytes)] ++
    omitZero "btcBlockHeight" b.btcBlockHeight ++
    (if b.btcTxID = [] then [] else [(ascii "btcTxId", .string b.btcTxID)]) ++
    omitZero "btcTimestamp" b.btcTimestamp ++
    omitZero "confirmedAt" b.confirmedAt ++
    [(ascii "confirmedBy", hexJson b.confirmedBy.bytes)] ++
    omitZero "anchoredAt" b.anchoredAt ++
    [(ascii "anchoredBy", hexJson b.anchoredBy.bytes)]

/-- The members `json.Marshal` writes for an `OTSState`. -/
def OTSState.toJson (s : OTSState) : JsonValue :=
  .object <|
    [(ascii "enabled", .bool s.enabled),
     (ascii "lastAnchoredBlock", uintJson s.lastAnchoredBlock.toNat)] ++
    match s.currentBatch with
    | some b => [(ascii "currentBatch", b.toJson)]
    | none => []

/-- The members `json.Marshal` writes for a `Snapshot`. -/
def Snapshot.toJson (s : Snapshot) : JsonValue :=
  .object
    [(ascii "number", uintJson s.number.toNat),
     (ascii "hash", hexJson s.hash.bytes),
     (ascii "state", match s.state with
       | some st => st.toJson
       | none => .null)]

/-- `OTSState.Encode()`. -/
def OTSState.encode (s : OTSState) : List UInt8 := s.toJson.render

/-- `Snapshot.Encode()`. -/
def Snapshot.encode (s : Snapshot) : List UInt8 := s.toJson.render

end Ots

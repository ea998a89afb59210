import OtsConsensus.Bytes

/-!
# The OTS consensus state

`consensus/state.go`: the batch status with its transition relation `CanTransitionTo`, the
`BatchState` and `OTSState` records, and the four methods that change a state, `Trigger`,
`MarkSubmitted`, `MarkConfirmed` and `MarkAnchored`.

A Go method on `*OTSState` returning `error` is a function returning the receiver after the call
together with the error (`none` for `nil`). The engine continues with that receiver whether or not
the call failed, as the Go code does, so "a failed call changes nothing" is a theorem here
(`trigger_of_error`, `markWith_of_error`) rather than a consequence of the encoding.

The three `Mark*` methods are one guard, `OTSState.markWith`: the current batch must exist with
the expected status, and that status must be allowed to move to the target. Each method is
`markWith` applied to its own status pair, error and write. Their inversion lemmas
(`trigger_of_ok`, `markWith_of_ok`) say everything a successful call can do; the lifecycle
theorems are derived from them alone.
-/

namespace Ots

/-- The `error` values the modelled functions return. Go compares sentinel errors by identity,
so each sentinel is one constructor; `fresh text` is an `errors.New(text)` made where it is
returned, equal to no sentinel; `json` stands for any error of `encoding/json` and `client` for
any error of the OTS client. -/
inductive Error where
  | invalidState | invalidTransition | alreadyTriggered
  | notTriggered | notSubmitted | notConfirmed
  | snapshotNotFound
  | invalidOTSTx | invalidCandidate | rootMismatch | notSystemTx | invalidRecipient
  | invalidCalldata
  | fresh (text : GoString)
  | json
  | client (code : Nat)
deriving DecidableEq, Repr

/-- `BatchStatus`, a `uint8`. The five named statuses are the constants below; any other value
is "unknown", and a decoded snapshot can carry one. -/
structure BatchStatus where
  val : UInt8
deriving DecidableEq, Repr

namespace BatchStatus

/-- `BatchStatusNone`: no active batch. -/
def none : BatchStatus := ⟨0⟩
/-- `BatchStatusTriggered`: waiting for the OTS submission. -/
def triggered : BatchStatus := ⟨1⟩
/-- `BatchStatusSubmitted`: waiting for the Bitcoin confirmation. -/
def submitted : BatchStatus := ⟨2⟩
/-- `BatchStatusConfirmed`: waiting for the on-chain anchor. -/
def confirmed : BatchStatus := ⟨3⟩
/-- `BatchStatusAnchored`: anchored on-chain. -/
def anchored : BatchStatus := ⟨4⟩

/-- `CanTransitionTo`: `None → Triggered → Submitted → Confirmed → Anchored | None`,
`Anchored → None`, and nothing from an unknown status. -/
def canTransitionTo (s target : BatchStatus) : Bool :=
  if s = BatchStatus.none then target == triggered
  else if s = triggered then target == submitted
  else if s = submitted then target == confirmed
  else if s = confirmed then target == anchored || target == BatchStatus.none
  else if s = anchored then target == BatchStatus.none
  else false

end BatchStatus

/-- `BatchState`: a batch's block range and root, its status, and what each step recorded.
The defaults are Go's zero values. -/
structure BatchState where
  startBlock : UInt64 := 0
  endBlock : UInt64 := 0
  rootHash : Hash := ByteVec.zero 32
  status : BatchStatus := BatchStatus.none
  triggerBlock : UInt64 := 0
  triggerNode : Address := ByteVec.zero 20
  otsDigest : ByteVec 32 := ByteVec.zero 32
  submittedAt : UInt64 := 0
  submittedBy : Address := ByteVec.zero 20
  btcBlockHeight : UInt64 := 0
  btcTxID : GoString := []
  btcTimestamp : UInt64 := 0
  confirmedAt : UInt64 := 0
  confirmedBy : Address := ByteVec.zero 20
  anchoredAt : UInt64 := 0
  anchoredBy : Address := ByteVec.zero 20
deriving DecidableEq

/-- The fields fixed when a batch is triggered: its range, root, trigger block and trigger node. -/
def BatchState.key (b : BatchState) : UInt64 × UInt64 × Hash × UInt64 × Address :=
  (b.startBlock, b.endBlock, b.rootHash, b.triggerBlock, b.triggerNode)

/-- `OTSState`; `currentBatch` is the `*BatchState` pointer, `none` for `nil`. -/
structure OTSState where
  enabled : Bool
  lastAnchoredBlock : UInt64
  currentBatch : Option BatchState
deriving DecidableEq

namespace OTSState

/-- `NewOTSState(enabled)`. -/
def new (enabled : Bool) : OTSState :=
  { enabled := enabled, lastAnchoredBlock := 0, currentBatch := none }

/-- `HasActiveBatch`: a batch exists and its status is not `None`. -/
def hasActiveBatch (s : OTSState) : Bool :=
  match s.currentBatch with
  | some b => b.status != BatchStatus.none
  | none => false

/-- `CanTrigger`. -/
def canTrigger (s : OTSState) : Bool := s.enabled && !s.hasActiveBatch

/-- `Trigger(startBlock, endBlock, triggerBlock, triggerNode, rootHash)`. -/
def trigger (s : OTSState) (startBlock endBlock triggerBlock : UInt64) (triggerNode : Address)
    (rootHash : Hash) : OTSState × Option Error :=
  if s.canTrigger then
    ({ s with
        currentBatch := some
          { startBlock := startBlock, endBlock := endBlock, rootHash := rootHash,
            status := BatchStatus.triggered, triggerBlock := triggerBlock,
            triggerNode := triggerNode } }, none)
  else (s, some .alreadyTriggered)

/-- The guard of the three `Mark*` methods: the current batch must exist with status
`expected` (else `err`), and `expected` must be allowed to move to `target` (else
`ErrInvalidTransition`); then `update` writes the receiver. -/
def markWith (s : OTSState) (expected target : BatchStatus) (err : Error)
    (update : BatchState → OTSState) : OTSState × Option Error :=
  match s.currentBatch with
  | some b =>
    if b.status = expected then
      if expected.canTransitionTo target then (update b, none) else (s, some .invalidTransition)
    else (s, some err)
  | none => (s, some err)

/-- `MarkSubmitted(digest, blockNumber, submitter)`. -/
def markSubmitted (s : OTSState) (digest : ByteVec 32) (blockNumber : UInt64)
    (submitter : Address) : OTSState × Option Error :=
  s.markWith BatchStatus.triggered BatchStatus.submitted .notTriggered fun b =>
    { s with
      currentBatch := some
        { b with otsDigest := digest, submittedAt := blockNumber, submittedBy := submitter,
                 status := BatchStatus.submitted } }

/-- `MarkConfirmed(btcBlockHeight, btcTxID, btcTimestamp, blockNumber, confirmer)`. -/
def markConfirmed (s : OTSState) (btcBlockHeight : UInt64) (btcTxID : GoString)
    (btcTimestamp blockNumber : UInt64) (confirmer : Address) : OTSState × Option Error :=
  s.markWith BatchStatus.submitted BatchStatus.confirmed .notSubmitted fun b =>
    { s with
      currentBatch := some
        { b with btcBlockHeight := btcBlockHeight, btcTxID := btcTxID,
                 btcTimestamp := btcTimestamp, confirmedAt := blockNumber,
                 confirmedBy := confirmer, status := BatchStatus.confirmed } }

/-- `MarkAnchored(blockNumber, anchorer)`. The Go method also writes `AnchoredAt`, `AnchoredBy`
and the status `Anchored` into the batch just before clearing the pointer; the batch is not
shared, so those writes are never observed. -/
def markAnchored (s : OTSState) (_blockNumber : UInt64) (_anchorer : Address) :
    OTSState × Option Error :=
  s.markWith BatchStatus.confirmed BatchStatus.anchored .notConfirmed fun b =>
    { s with lastAnchoredBlock := b.endBlock, currentBatch := none }

/-- The status a state is in: that of its batch, `None` when there is none. -/
def statusOf (s : OTSState) : BatchStatus :=
  match s.currentBatch with
  | some b => b.status
  | none => BatchStatus.none

/-! ## What a call can do -/

/-- A failed `Trigger` leaves the state as it was. -/
theorem trigger_of_error {s s' : OTSState} {e : Error} {a b c : UInt64} {n : Address} {r : Hash}
    (h : s.trigger a b c n r = (s', some e)) : s' = s := by
  unfold trigger at h
  split at h <;> simp_all

/-- A successful `Trigger` found no active batch and installs a fresh `Triggered` batch. -/
theorem trigger_of_ok {s s' : OTSState} {a b c : UInt64} {n : Address} {r : Hash}
    (h : s.trigger a b c n r = (s', none)) :
    s.canTrigger = true ∧
      s' = { s with
        currentBatch := some
          { startBlock := a, endBlock := b, rootHash := r, status := BatchStatus.triggered,
            triggerBlock := c, triggerNode := n } } := by
  unfold trigger at h
  split at h
  · simp_all
  · simp at h

/-- A failed `Mark*` leaves the state as it was. -/
theorem markWith_of_error {s s' : OTSState} {exp tgt : BatchStatus} {err e : Error}
    {u : BatchState → OTSState} (h : s.markWith exp tgt err u = (s', some e)) : s' = s := by
  unfold markWith at h
  split at h
  · split at h
    · split at h <;> simp_all
    · simp_all
  · simp_all

/-- A successful `Mark*` call found a batch with the expected status, which may move to the
target, and applied its write. -/
theorem markWith_of_ok {s s' : OTSState} {exp tgt : BatchStatus} {err : Error}
    {u : BatchState → OTSState} (h : s.markWith exp tgt err u = (s', none)) :
    ∃ b, s.currentBatch = some b ∧ b.status = exp ∧ exp.canTransitionTo tgt = true ∧ s' = u b := by
  unfold markWith at h
  split at h
  · rename_i b hb
    split at h
    · split at h
      · exact ⟨b, hb, ‹_›, ‹_›, by simp_all⟩
      · simp at h
    · simp at h
  · simp at h

/-- A `Mark*` call whose guard holds succeeds with its write. -/
theorem markWith_of_status {s : OTSState} {b : BatchState} {exp tgt : BatchStatus} {err : Error}
    {u : BatchState → OTSState} (hb : s.currentBatch = some b) (hs : b.status = exp)
    (ht : exp.canTransitionTo tgt = true) : s.markWith exp tgt err u = (u b, none) := by
  simp [markWith, hb, hs, ht]

/-- A state has no active batch exactly when its status is `None`. -/
theorem hasActiveBatch_eq_false {s : OTSState} :
    s.hasActiveBatch = false ↔ s.statusOf = BatchStatus.none := by
  unfold hasActiveBatch statusOf
  split <;> simp

end OTSState

end Ots

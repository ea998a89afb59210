import OtsConsensus.StoreRun
import OtsConsensus.SysTx
import OtsConsensus.EngineRun

/-!
# The consensus manager

`OTSConsensusManager` of `consensus/state.go`: its configuration, the chain accessors, the
optional OTS client, and the calls the host chain makes on it. `GetSystemTransactions` proposes
the system transaction the parent batch's status calls for; `ValidateOTSSystemTx` checks a
transaction against the parent state.

Each call returns the snapshot manager after it, since a read may cache a snapshot, and `none`
where the Go code panics: a `nil` snapshot state or client result dereferenced, a chain accessor
called before `SetChainAccessors`, or a block loop that does not stop.

The three validators share one body, `validateBatchCall`, applied to each call's status, decoder
and comparison. `OTSCall` names the three calls with what each requires of its calldata and of the
parent batch; `Proposals` proves what validation accepts and that proposals pass it.
-/

namespace Ots

/-- `BTCConfirmationResult`. -/
structure BTCConfirmationResult where
  confirmed : Bool
  btcBlockHeight : UInt64
  btcTxID : GoString
  btcTimestamp : UInt64

/-- `OTSClientInterface`, each call's result as a function of its argument. `Stamp` returns the
proof and the digest; `CheckConfirmation` may return a `nil` result without an error
(`.ok none`). -/
structure OTSClient where
  stamp : Hash → Except Error (List UInt8 × ByteVec 32)
  checkConfirmation : ByteVec 32 → Except Error (Option BTCConfirmationResult)

/-- `OTSConsensusManager`. The accessors, the engine and the client are `none` until
`SetChainAccessors` and `SetOTSClient` set them. -/
structure OTSConsensusManager where
  snapshots : SnapshotManager
  engine : Option TransitionEngine
  enabled : Bool
  contractAddress : Address
  systemTxGasLimit : UInt64
  getReceipts : Option (Hash → UInt64 → List Receipt)
  getHeaderByNumber : Option (UInt64 → Option Header)
  otsClient : Option OTSClient

/-- The three OTS system calls. -/
inductive OTSCall where
  | submitted | confirmed | anchor
deriving DecidableEq

namespace OTSCall

/-- The call's selector. -/
def selector : OTSCall → List UInt8
  | .submitted => otsSubmittedSelector
  | .confirmed => otsConfirmedSelector
  | .anchor => anchorSelector

/-- The selector test of the call: `IsOTSSubmittedTx`, `IsOTSConfirmedTx`, `IsAnchorTx`. -/
def isCall : OTSCall → Transaction → Bool
  | .submitted => isOTSSubmittedTx
  | .confirmed => isOTSConfirmedTx
  | .anchor => isAnchorTx

/-- The status the parent batch must have for the call. -/
def expected : OTSCall → BatchStatus
  | .submitted => BatchStatus.triggered
  | .confirmed => BatchStatus.submitted
  | .anchor => BatchStatus.confirmed

/-- The calldata length the call's decoder requires. -/
def minLength : OTSCall → Nat
  | .submitted => 68
  | .confirmed => 132
  | .anchor => 164

/-- The call's calldata agrees with the batch: the root in word 0 (word 2 for `anchor`), and for
`anchor` the block range in words 0 and 1. -/
def AgreesWith : OTSCall → List UInt8 → BatchState → Prop
  | .submitted, data, b | .confirmed, data, b => copyBytes32 (calldataWord data 0) = b.rootHash
  | .anchor, data, b =>
    copyBytes32 (calldataWord data 2) = b.rootHash ∧
      bigUint64 (calldataWord data 0) = b.startBlock ∧ bigUint64 (calldataWord data 1) = b.endBlock

/-- Every selector has four bytes. -/
theorem length_selector (c : OTSCall) : c.selector.length = 4 := by cases c <;> rfl

/-- **Exactly one selector test holds** on calldata that starts with a call's selector: that
call's. -/
theorem isCall_of_selector {call : OTSCall} {tx : Transaction} (h : tx.data.take 4 = call.selector)
    (c : OTSCall) : c.isCall tx = (c == call) := by
  have hlen : 4 ≤ tx.data.length := by
    have := congrArg List.length h
    rw [List.length_take, length_selector] at this
    omega
  have hc : c.isCall tx = hasSelector c.selector tx := by cases c <;> rfl
  rw [hc, hasSelector, if_neg (by omega), h]
  cases c <;> cases call <;> decide

/-- Whether calldata agrees with a batch can be computed. -/
instance : ∀ (call : OTSCall) (data : List UInt8) (b : BatchState),
    Decidable (call.AgreesWith data b)
  | .submitted, _, _ | .confirmed, _, _ => inferInstanceAs (Decidable (_ = _))
  | .anchor, _, _ => inferInstanceAs (Decidable (_ ∧ _ ∧ _))

end OTSCall

/-- The RUIDs of a block's `CopyrightClaimed` logs, in order: topic 1 of every registry log with at
least two topics and the event's signature as topic 0, in every receipt whatever its status. -/
def claimedRUIDs (receipts : List Receipt) : List Hash :=
  (receipts.flatMap (·.logs)).filterMap fun log =>
    if log.address = copyrightRegistryAddr then
      match log.topics with
      | t0 :: t1 :: _ => if t0 = copyrightClaimedEventSig then some t1 else none
      | _ => none
    else none

/-- The RUIDs the loop of `collectRUIDsForBatch` adds at one block. -/
def blockRUIDs (getHeaderByNumber : UInt64 → Option Header)
    (getReceipts : Hash → UInt64 → List Receipt) (blockNum : UInt64) : List Hash :=
  match getHeaderByNumber blockNum with
  | none => []
  | some header => claimedRUIDs (getReceipts header.hash blockNum)

namespace OTSConsensusManager

/-- `NewOTSConsensusManager(db, config)`. -/
def new (db : List UInt8 → Option (List UInt8)) (enabled : Bool) (contractAddress : Address)
    (systemTxGasLimit : UInt64) : OTSConsensusManager :=
  { snapshots := SnapshotManager.new db enabled, engine := none, enabled := enabled,
    contractAddress := contractAddress, systemTxGasLimit := systemTxGasLimit,
    getReceipts := none, getHeaderByNumber := none, otsClient := none }

variable (m : OTSConsensusManager)

/-- `txBuilder`, set to `systx.NewBuilder(contractAddress)` at construction. -/
def txBuilder : Builder := ⟨m.contractAddress⟩

/-- `SetChainAccessors(getReceipts, getHeader, getHeaderByNumber)`: the accessors, and an engine on
them; `keccak256` is the hash of the engine's Merkle roots. -/
def setChainAccessors (keccak256 : List UInt8 → Hash) (getReceipts : Hash → UInt64 → List Receipt)
    (getHeader : Hash → UInt64 → Option Header) (getHeaderByNumber : UInt64 → Option Header) :
    OTSConsensusManager :=
  { m with getReceipts := some getReceipts, getHeaderByNumber := some getHeaderByNumber,
           engine := some ⟨getReceipts, getHeader, keccak256⟩ }

/-- `SetOTSClient(client)`. -/
def setOTSClient (client : OTSClient) : OTSConsensusManager := { m with otsClient := some client }

/-- `ProcessBlock(header, parentHash)`: the engine's block on the parent snapshot, or on the
genesis snapshot at block 1 when the parent has none; `.ok none` when disabled or before
`SetChainAccessors`. -/
def processBlock (header : Header) (parentHash : Hash) :
    Option (SnapshotManager × Except Error (Option Snapshot)) :=
  match m.engine with
  | some te =>
    if m.enabled then
      (m.snapshots.getSnapshot parentHash).bind fun
        | (sm, .ok parent) =>
          (te.processBlock header parent sm).map fun r => (r.2, .ok (some r.1))
        | (sm, .error e) =>
          if header.number = 1 then
            (te.processBlock header (sm.getGenesisSnapshot parentHash) sm).map fun r =>
              (r.2, .ok (some r.1))
          else some (sm, .error e)
    else some (m.snapshots, .ok none)
  | none => some (m.snapshots, .ok none)

/-! ## Proposals -/

/-- `collectRUIDsForBatch(startBlock, endBlock)`: the claimed RUIDs of the blocks
`startBlock, …, endBlock` in order; a block without a header is skipped. -/
def collectRUIDsForBatch (startBlock endBlock : UInt64) : Option (List Hash) :=
  let body : UInt64 → List Hash → Option (Except Empty (List Hash)) := fun blockNum ruids =>
    m.getHeaderByNumber.bind fun getHeaderByNumber =>
      match getHeaderByNumber blockNum with
      | none => some (.ok ruids)
      | some header => m.getReceipts.map fun getReceipts =>
        .ok (ruids ++ claimedRUIDs (getReceipts header.hash blockNum))
  match forUpTo body endBlock loopFuel startBlock [] with
  | some (.ok ruids) => some ruids
  | _ => none

/-- `tryBuildOTSSubmittedTx(state, coinbase, nonce)`: stamp the batch's root, and build the
`otsSubmitted` call with the digest. -/
def tryBuildOTSSubmittedTx (client : OTSClient) (state : OTSState) (coinbase : Address)
    (nonce : UInt64) : Except Error (Option Transaction) :=
  match state.currentBatch with
  | some b =>
    if b.status ≠ BatchStatus.triggered then .ok none else
    match client.stamp b.rootHash with
    | .error e => .error e
    | .ok (_, digest) =>
      .ok (some (m.txBuilder.buildOTSSubmittedTx ⟨b.rootHash, digest⟩ coinbase nonce
        m.systemTxGasLimit))
  | none => .ok none

/-- `tryBuildOTSConfirmedTx(state, coinbase, nonce)`: on a confirmed result, the `otsConfirmed`
call with its height, its txid's bytes copied into 32, and its timestamp; `none` where the client
returns a `nil` result without an error. -/
def tryBuildOTSConfirmedTx (client : OTSClient) (state : OTSState) (coinbase : Address)
    (nonce : UInt64) : Option (Except Error (Option Transaction)) :=
  match state.currentBatch with
  | some b =>
    if b.status ≠ BatchStatus.submitted then some (.ok none) else
    match client.checkConfirmation b.otsDigest with
    | .error e => some (.error e)
    | .ok none => none
    | .ok (some result) =>
      if !result.confirmed then some (.ok none) else
      some (.ok (some (m.txBuilder.buildOTSConfirmedTx
        ⟨b.rootHash, result.btcBlockHeight, copyBytes32 result.btcTxID, result.btcTimestamp⟩
        coinbase nonce m.systemTxGasLimit)))
  | none => some (.ok none)

/-- What `tryBuildOTSConfirmedTx` builds: the `otsConfirmed` call of a submitted batch, from a
confirmed result of the client. -/
theorem tryBuildOTSConfirmedTx_eq_some {client : OTSClient} {state : OTSState}
    {coinbase : Address} {nonce : UInt64} {b : BatchState} {tx : Transaction}
    (hb : state.currentBatch = some b)
    (h : m.tryBuildOTSConfirmedTx client state coinbase nonce = some (.ok (some tx))) :
    b.status = BatchStatus.submitted ∧ ∃ result, client.checkConfirmation b.otsDigest =
      .ok (some result) ∧ result.confirmed = true ∧
      tx = m.txBuilder.buildOTSConfirmedTx
        ⟨b.rootHash, result.btcBlockHeight, copyBytes32 result.btcTxID, result.btcTimestamp⟩
        coinbase nonce m.systemTxGasLimit := by
  unfold tryBuildOTSConfirmedTx at h
  rw [hb] at h
  dsimp only at h
  split_ifs at h with hs
  · cases h
  split at h
  · cases h
  · cases h
  · rename_i result hc
    split_ifs at h with hconf
    · cases h
    · cases h
      exact ⟨not_not.mp hs, result, hc, by simpa using hconf, rfl⟩

/-- `buildAnchorTx(state, coinbase, nonce)`: the batch's `anchor` call, with the RUIDs collected
over its range. -/
def buildAnchorTx (state : OTSState) (coinbase : Address) (nonce : UInt64) :
    Option (Except Error (Option Transaction)) :=
  match state.currentBatch with
  | some b =>
    if b.status ≠ BatchStatus.confirmed then some (.ok none) else
    (m.collectRUIDsForBatch b.startBlock b.endBlock).map fun ruids =>
      .ok (some (m.txBuilder.buildAnchorTx
        ⟨b.rootHash, b.startBlock, b.endBlock, ruids, b.btcBlockHeight, b.btcTxID,
          b.btcTimestamp⟩ coinbase nonce m.systemTxGasLimit))
  | none => some (.ok none)

/-- `GetSystemTransactions(header, parentHash, coinbase, getNonce)`: the transaction the parent
batch's status calls for, where it can be built; a builder's error gives no transaction. -/
def getSystemTransactions (_header : Header) (parentHash : Hash) (coinbase : Address)
    (getNonce : Address → UInt64) : Option (SnapshotManager × List Transaction) :=
  if !m.enabled then some (m.snapshots, []) else
  (m.snapshots.getSnapshot parentHash).bind fun
    | (sm, .error _) => some (sm, [])
    | (sm, .ok snap) =>
      match snap.state with
      | none => some (sm, [])
      | some state =>
        match state.currentBatch with
        | none => some (sm, [])
        | some b =>
          let nonce := getNonce coinbase
          let built : Option (Except Error (Option Transaction)) :=
            if b.status = BatchStatus.triggered then
              match m.otsClient with
              | some client => some (m.tryBuildOTSSubmittedTx client state coinbase nonce)
              | none => some (.ok none)
            else if b.status = BatchStatus.submitted then
              match m.otsClient with
              | some client => m.tryBuildOTSConfirmedTx client state coinbase nonce
              | none => some (.ok none)
            else if b.status = BatchStatus.confirmed then m.buildAnchorTx state coinbase nonce
            else some (.ok none)
          built.map fun r => (sm, match r with
            | .ok (some tx) => [tx]
            | _ => [])

/-! ## Validation -/

/-- The body the three validators share: the current batch must have the `expected` status
(else `ErrInvalidTransition`), the decoder's error is returned, and a decoded call that does not
`agree` with the batch is `ErrInvalidState`. -/
def validateBatchCall {α : Type} (expected : BatchStatus) (decoded : Except Error α)
    (agrees : α → BatchState → Bool) (state : OTSState) : Option Error :=
  match state.currentBatch with
  | some b =>
    if b.status ≠ expected then some .invalidTransition else
    match decoded with
    | .error e => some e
    | .ok p => if agrees p b then none else some .invalidState
  | none => some .invalidTransition

/-- `validateOTSSubmittedTx(tx, state)`. -/
def validateOTSSubmittedTx (_m : OTSConsensusManager) (tx : Transaction) (state : OTSState) :
    Option Error :=
  validateBatchCall BatchStatus.triggered (decodeOTSSubmittedTx tx)
    (fun p b => p.rootHash == b.rootHash) state

/-- `validateOTSConfirmedTx(tx, state)`. -/
def validateOTSConfirmedTx (_m : OTSConsensusManager) (tx : Transaction) (state : OTSState) :
    Option Error :=
  validateBatchCall BatchStatus.submitted (decodeOTSConfirmedTx tx)
    (fun p b => p.rootHash == b.rootHash) state

/-- `validateAnchorTx(tx, state)`: the root, then the block range; both mismatches are
`ErrInvalidState`. -/
def validateAnchorTx (_m : OTSConsensusManager) (tx : Transaction) (state : OTSState) :
    Option Error :=
  validateBatchCall BatchStatus.confirmed (decodeCalldata tx.data)
    (fun d b => d.rootHash == b.rootHash &&
      (d.startBlock == b.startBlock && d.endBlock == b.endBlock)) state

/-- The checks of `ValidateOTSSystemTx` on the parent's state: the validator of the first
selector test that holds; a transaction of no OTS call passes. -/
def validateCall (tx : Transaction) (state : OTSState) : Option Error :=
  if isOTSSubmittedTx tx then m.validateOTSSubmittedTx tx state
  else if isOTSConfirmedTx tx then m.validateOTSConfirmedTx tx state
  else if isAnchorTx tx then m.validateAnchorTx tx state
  else none

/-- `ValidateOTSSystemTx(tx, parentHash)`: `none` for `nil`. -/
def validateOTSSystemTx (tx : Transaction) (parentHash : Hash) :
    Option (SnapshotManager × Option Error) :=
  if !m.enabled then some (m.snapshots, none) else
  (m.snapshots.getSnapshot parentHash).map fun
    | (sm, .error e) => (sm, some e)
    | (sm, .ok snap) => (sm, match snap.state with
      | none => some .invalidState
      | some state => m.validateCall tx state)

/-! ## Queries -/

/-- `GetCurrentState(hash)`: the state of the snapshot under `hash`. -/
def getCurrentState (hash : Hash) : Option (SnapshotManager × Except Error (Option OTSState)) :=
  (m.snapshots.getSnapshot hash).map fun r => (r.1, r.2.map Snapshot.state)

/-- `RebuildFromChain(fromBlock, toBlock)`: from the nearest stored snapshot at a multiple of the
interval up to `fromBlock` (else genesis), replay to `toBlock` and force-store the result. The
fallback hash `fromHash` serves only where `FindNearestSnapshot` fails, which it never does. -/
def rebuildFromChain (fromBlock toBlock : UInt64) : Option (SnapshotManager × Option Error) :=
  match m.engine, m.getHeaderByNumber with
  | some te, some getHeaderByNumber =>
    let getHash := fun num => ((getHeaderByNumber num).map Header.hash).getD (ByteVec.zero 32)
    (m.snapshots.findNearestSnapshot fromBlock getHash).bind fun r =>
      (te.rebuildState r.2 toBlock getHeaderByNumber r.1).bind fun
        | (sm, .ok newSnap) => (sm.forceStore newSnap).map fun sm => (sm, none)
        | (sm, .error e) => some (sm, some e)
  | _, _ => some (m.snapshots, some .invalidState)

end OTSConsensusManager

end Ots

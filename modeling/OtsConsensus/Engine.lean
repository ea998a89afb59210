import OtsConsensus.Chain
import OtsConsensus.Calendar
import OtsConsensus.Merkle
import OtsConsensus.Store

/-!
# The transition engine

`TransitionEngine` of `transitions.go`: `ProcessBlock` copies the parent state, applies the four
rules of `applyTransitions` and stores the child snapshot; `RebuildState` replays a block range.

The rules run in sequence on one state, each re-reading the status the previous one left:

1. trigger a batch over `[lastAnchoredBlock + 1, number - 1]` when none is active and the block
   crosses midnight UTC (`ruleTrigger`);
2. mark a triggered batch submitted on the first registry `OTSSubmitted` log (`ruleSubmit`);
3. mark a submitted batch confirmed on the first registry `OTSConfirmed` log (`ruleConfirm`);
4. anchor a confirmed batch on a registry `Anchored` log carrying its root (`ruleAnchor`).

The three log scans are one function, `scanRegistryLogs`, applied to each rule's parser.
A function returns `none` where the Go code does not return: a block loop whose bound is
`2 ^ 64 - 1`, or a `nil` state pointer dereferenced.
-/

namespace Ots

/-- `TransitionEngine`: its chain accessors, and `crypto.Keccak256Hash`, which its Merkle roots
use. The snapshot manager it stores into is threaded through `processBlock` as state. -/
structure TransitionEngine where
  getReceipts : Hash → UInt64 → List Receipt
  getHeader : Hash → UInt64 → Option Header
  keccak256 : List UInt8 → Hash

/-- `TriggerHourUTC`. -/
def triggerHourUTC : Nat := 0

/-- `OTSSubmission`: a parsed `OTSSubmitted` event. -/
structure OTSSubmission where
  rootHash : Hash
  digest : ByteVec 32
deriving DecidableEq

/-- `BTCConfirmation`: a parsed `OTSConfirmed` event. -/
structure BTCConfirmation where
  rootHash : Hash
  btcBlockHeight : UInt64
  btcTxID : GoString
  btcTimestamp : UInt64
deriving DecidableEq

/-- `state.CurrentBatch != nil && state.CurrentBatch.Status == status`. -/
def OTSState.statusIs (s : OTSState) (status : BatchStatus) : Bool :=
  match s.currentBatch with
  | some b => b.status == status
  | none => false

/-- `parseOTSSubmittedLog(log)`: topic 0 the event's signature, topic 1 the root, and the digest
the first 32 bytes of the data. -/
def parseOTSSubmittedLog (log : Log) : Option OTSSubmission :=
  match log.topics with
  | t0 :: t1 :: _ =>
    if t0 = otsSubmittedSig then
      if h : 32 ≤ log.data.length then
        some { rootHash := t1, digest := ⟨log.data.take 32, by simp; omega⟩ }
      else none
    else none
  | _ => none

/-- `parseOTSConfirmedLog(log)`: topic 1 the root; the data's three words the BTC height, the
txid (as lowercase hex, `common.Bytes2Hex`) and the BTC timestamp. -/
def parseOTSConfirmedLog (log : Log) : Option BTCConfirmation :=
  match log.topics with
  | t0 :: t1 :: _ =>
    if t0 = otsConfirmedSig ∧ 96 ≤ log.data.length then
      some { rootHash := t1,
             btcBlockHeight := wordUint64 (log.data.take 32),
             btcTxID := hexEncode ((log.data.drop 32).take 32),
             btcTimestamp := wordUint64 ((log.data.drop 64).take 32) }
    else none
  | _ => none

/-- `isValidAnchorLog(log, batch)`: an `Anchored` event whose root topic is the batch's root. -/
def isValidAnchorLog (log : Log) (batch : BatchState) : Bool :=
  match log.topics with
  | t0 :: t1 :: _ => t0 == anchoredSig && t1 == batch.rootHash
  | _ => false

/-- The scan shared by `extractOTSSubmission`, `extractBTCConfirmation` and `hasValidAnchorTx`:
over the successful receipts in order, over their logs in order, the first log emitted by the
registry that `parse` accepts. -/
def scanRegistryLogs {α : Type} (parse : Log → Option α) (receipts : List Receipt) : Option α :=
  ((receipts.filter (·.status == receiptStatusSuccessful)).flatMap (·.logs)).findSome? fun log =>
    if log.address = copyrightRegistryAddr then parse log else none

/-- `extractOTSSubmission(header, receipts)`. -/
def extractOTSSubmission (receipts : List Receipt) : Option OTSSubmission :=
  scanRegistryLogs parseOTSSubmittedLog receipts

/-- `extractBTCConfirmation(header, receipts)`. -/
def extractBTCConfirmation (receipts : List Receipt) : Option BTCConfirmation :=
  scanRegistryLogs parseOTSConfirmedLog receipts

/-- `hasValidAnchorTx(header, receipts, batch)`. -/
def hasValidAnchorTx (receipts : List Receipt) (batch : BatchState) : Bool :=
  (scanRegistryLogs (fun log => if isValidAnchorLog log batch then some () else none)
    receipts).isSome

/-- `getRUIDsFromBlock(blockNum)`: a placeholder in the source, which returns `nil` for every
block. -/
def getRUIDsFromBlock (_blockNum : UInt64) : List Hash := []

namespace TransitionEngine

variable (te : TransitionEngine)

/-- `isTriggerBlock(header)`: the parent header's and this header's timestamps, read in UTC,
fall on different days (by year, or by day of the year), the current hour being at least
`TriggerHourUTC`; or on one day with the trigger hour between them. -/
def isTriggerBlock (header : Header) : Bool :=
  match te.getHeader header.parentHash (header.number - 1) with
  | none => false
  | some parent =>
    let cur := unixUTC (toInt64 header.time)
    let par := unixUTC (toInt64 parent.time)
    if par.year < cur.year || par.yearDay < cur.yearDay then triggerHourUTC ≤ cur.hour
    else par.hour < triggerHourUTC && triggerHourUTC ≤ cur.hour

/-- With the parent header found, `isTriggerBlock` compares the UTC years, then the UTC days of the
year, of the two timestamps: the trigger hour is midnight, so the hour tests always hold on a new
day and always fail on the same day. -/
theorem isTriggerBlock_eq {header parent : Header}
    (hp : te.getHeader header.parentHash (header.number - 1) = some parent) :
    te.isTriggerBlock header =
      (decide ((civilYearDay (toInt64 parent.time / 86400)).1 <
          (civilYearDay (toInt64 header.time / 86400)).1) ||
        decide ((civilYearDay (toInt64 parent.time / 86400)).2 <
          (civilYearDay (toInt64 header.time / 86400)).2)) := by
  have midnight : ∀ (b : Bool) (x y : Nat) (z : Bool),
      (if b = true then decide (triggerHourUTC ≤ x) else decide (y < triggerHourUTC) && z) = b := by
    intro b x y z; cases b <;> simp [triggerHourUTC]
  unfold isTriggerBlock
  rw [hp]
  exact midnight _ _ _ _

/-- **A block whose parent header is found triggers exactly on a later UTC day** than its
parent's, for timestamps that do not decrease and are below `2 ^ 40`: years, then days of the
year, compare as the day numbers do (`civilYearDay_lt`). -/
theorem isTriggerBlock_iff_later_day {header parent : Header}
    (hp : te.getHeader header.parentHash (header.number - 1) = some parent)
    (hle : parent.time ≤ header.time) (hlt : header.time.toNat < 2 ^ 40) :
    te.isTriggerBlock header = true ↔ parent.time.toNat / 86400 < header.time.toNat / 86400 := by
  have hle' := u64_le_iff.mp hle
  have hcur : toInt64 header.time = header.time.toNat := by unfold toInt64; rw [if_pos (by omega)]
  have hpar : toInt64 parent.time = parent.time.toNat := by unfold toInt64; rw [if_pos (by omega)]
  rw [te.isTriggerBlock_eq hp, hcur, hpar, Bool.or_eq_true, decide_eq_true_eq, decide_eq_true_eq]
  rcases Nat.lt_or_ge (parent.time.toNat / 86400) (header.time.toNat / 86400) with h | h
  · have hlex := Prod.lex_def.mp (civilYearDay_lt (show (parent.time.toNat : Int) / 86400 <
      (header.time.toNat : Int) / 86400 by omega))
    exact iff_of_true (hlex.imp_right And.right) h
  · have hday : (parent.time.toNat : Int) / 86400 = (header.time.toNat : Int) / 86400 := by omega
    rw [hday]
    exact iff_of_false (by omega) (by omega)

/-- The first block of a day triggers when its parent is the last block of the day before. -/
theorem trigger_at_midnight :
    let parent : Header := ⟨0, ByteVec.zero 32, ByteVec.zero 32, 86399, ByteVec.zero 20⟩
    let header : Header := ⟨1, ByteVec.zero 32, ByteVec.zero 32, 86400, ByteVec.zero 20⟩
    let te : TransitionEngine := ⟨fun _ _ => [], fun _ _ => some parent, fun _ => ByteVec.zero 32⟩
    te.getHeader header.parentHash (header.number - 1) = some parent ∧ parent.time ≤ header.time ∧
      header.time.toNat < 2 ^ 40 ∧
      (te.isTriggerBlock header = true ↔ parent.time.toNat / 86400 < header.time.toNat / 86400) := by
  intro parent header te
  exact ⟨rfl, by decide, by decide, te.isTriggerBlock_iff_later_day rfl (by decide) (by decide)⟩

/-- `calculateRootHash(startBlock, endBlock)`; `none` when its block loop does not stop. -/
def calculateRootHash (startBlock endBlock : UInt64) : Option Hash :=
  (forUpToPure (fun n ruids => ruids ++ getRUIDsFromBlock n) endBlock startBlock []).map
    fun ruids =>
      if ruids.length = 0 then ByteVec.zero 32 else buildMerkleRoot te.keccak256 (sortRUIDs ruids)

/-- `handleTrigger(state, header)`: a batch from the block after the last anchored one to the
block before this one, unless that range is empty. -/
def handleTrigger (state : OTSState) (header : Header) : Option OTSState :=
  let blockNumber := header.number
  let startBlock := state.lastAnchoredBlock + 1
  let endBlock := blockNumber - 1
  if endBlock < startBlock then some state
  else (te.calculateRootHash startBlock endBlock).map fun rootHash =>
    (state.trigger startBlock endBlock blockNumber header.coinbase rootHash).1

/-- Rule 1 of `applyTransitions`. -/
def ruleTrigger (state : OTSState) (header : Header) : Option OTSState :=
  if state.canTrigger && te.isTriggerBlock header then te.handleTrigger state header
  else some state

/-! ## What each rule can do

One inversion lemma per rule: the guard it tested, and the state it left. Every `Mark*` call a
rule makes is guarded by the status that call expects, so in the engine it always succeeds. -/

/-- **`calculateRootHash` gives the zero hash for every range its loop finishes**: the per-block
RUID source returns no RUIDs. -/
theorem calculateRootHash_eq_zero (startBlock endBlock : UInt64)
    (h : endBlock.toNat < 2 ^ 64 - 1) :
    te.calculateRootHash startBlock endBlock = some (ByteVec.zero 32) := by
  simp [calculateRootHash, forUpToPure_eq _ _ _ _ h, getRUIDsFromBlock]

/-- Rule 1 at a block after genesis returns: the state as it was, or, when a batch may be
triggered and the range `[lastAnchoredBlock + 1, number - 1]` is not empty, the state with a fresh
`Triggered` batch over that range with the zero root. -/
theorem ruleTrigger_spec (state : OTSState) (header : Header) (h : 1 ≤ header.number.toNat) :
    te.ruleTrigger state header = some state ∨
      (state.canTrigger = true ∧ ¬ header.number - 1 < state.lastAnchoredBlock + 1 ∧
        te.ruleTrigger state header = some { state with
          currentBatch := some
            { startBlock := state.lastAnchoredBlock + 1, endBlock := header.number - 1,
              rootHash := ByteVec.zero 32, status := BatchStatus.triggered,
              triggerBlock := header.number, triggerNode := header.coinbase } }) := by
  unfold ruleTrigger handleTrigger
  by_cases hc : (state.canTrigger && te.isTriggerBlock header) = true
  · have hcan : state.canTrigger = true := (Bool.and_eq_true _ _).mp hc |>.1
    rw [if_pos hc]
    by_cases hr : header.number - 1 < state.lastAnchoredBlock + 1
    · exact .inl (if_pos hr)
    · have hend : (header.number - 1).toNat < 2 ^ 64 - 1 := by
        have := u64_toNat_lt header.number
        rw [u64_toNat_sub_one h]; omega
      refine .inr ⟨hcan, hr, ?_⟩
      simp only [if_neg hr, calculateRootHash_eq_zero _ _ _ hend, Option.map_some',
        OTSState.trigger, if_pos hcan]
  · exact .inl (if_neg hc)

/-- Whatever rule 1 returns is the state as it was, or, when a batch could be triggered, the state
with a fresh `Triggered` batch. -/
theorem ruleTrigger_cases {state s1 : OTSState} {header : Header}
    (h : te.ruleTrigger state header = some s1) :
    s1 = state ∨ (state.canTrigger = true ∧
      ∃ b : BatchState, b.status = BatchStatus.triggered ∧ s1 = { state with currentBatch := some b }) := by
  unfold ruleTrigger handleTrigger at h
  split at h
  · rename_i hc
    have hcan : state.canTrigger = true := (Bool.and_eq_true _ _).mp hc |>.1
    dsimp only at h
    split at h
    · exact .inl (Option.some.inj h).symm
    · obtain ⟨_, -, rfl⟩ := Option.map_eq_some'.mp h
      simp only [OTSState.trigger, if_pos hcan]
      exact .inr ⟨hcan, _, rfl, rfl⟩
  · exact .inl (Option.some.inj h).symm

end TransitionEngine

/-- `statusIs` holds exactly for a batch with that status. -/
theorem statusIs_eq_true {s : OTSState} {status : BatchStatus} :
    s.statusIs status = true ↔ ∃ b, s.currentBatch = some b ∧ b.status = status := by
  unfold OTSState.statusIs
  split <;> simp_all

/-- Rule 2 of `applyTransitions`. -/
def ruleSubmit (state : OTSState) (header : Header) (receipts : List Receipt) : OTSState :=
  if state.statusIs BatchStatus.triggered then
    match extractOTSSubmission receipts with
    | some sub => (state.markSubmitted sub.digest header.number header.coinbase).1
    | none => state
  else state

/-- Rule 3 of `applyTransitions`. -/
def ruleConfirm (state : OTSState) (header : Header) (receipts : List Receipt) : OTSState :=
  if state.statusIs BatchStatus.submitted then
    match extractBTCConfirmation receipts with
    | some c =>
      (state.markConfirmed c.btcBlockHeight c.btcTxID c.btcTimestamp header.number
        header.coinbase).1
    | none => state
  else state

/-- Rule 4 of `applyTransitions`. -/
def ruleAnchor (state : OTSState) (header : Header) (receipts : List Receipt) : OTSState :=
  match state.currentBatch with
  | some b =>
    if b.status = BatchStatus.confirmed ∧ hasValidAnchorTx receipts b then
      (state.markAnchored header.number header.coinbase).1
    else state
  | none => state

/-- Rule 2 on a `Triggered` batch with an `OTSSubmitted` log marks it submitted with the log's
digest. -/
theorem ruleSubmit_of_extract {state : OTSState} {b : BatchState} {sub : OTSSubmission}
    (header : Header) {receipts : List Receipt} (hb : state.currentBatch = some b)
    (hs : b.status = BatchStatus.triggered) (hsub : extractOTSSubmission receipts = some sub) :
    ruleSubmit state header receipts = { state with
      currentBatch := some
        { b with otsDigest := sub.digest, submittedAt := header.number,
                 submittedBy := header.coinbase, status := BatchStatus.submitted } } := by
  simp only [ruleSubmit, statusIs_eq_true.mpr ⟨b, hb, hs⟩, if_true, hsub]
  rw [OTSState.markSubmitted, OTSState.markWith_of_status hb hs (by decide)]

/-- Rule 3 on a `Submitted` batch with an `OTSConfirmed` log marks it confirmed with the log's
values. -/
theorem ruleConfirm_of_extract {state : OTSState} {b : BatchState} {c : BTCConfirmation}
    (header : Header) {receipts : List Receipt} (hb : state.currentBatch = some b)
    (hs : b.status = BatchStatus.submitted) (hc : extractBTCConfirmation receipts = some c) :
    ruleConfirm state header receipts = { state with
      currentBatch := some
        { b with btcBlockHeight := c.btcBlockHeight, btcTxID := c.btcTxID,
                 btcTimestamp := c.btcTimestamp, confirmedAt := header.number,
                 confirmedBy := header.coinbase, status := BatchStatus.confirmed } } := by
  simp only [ruleConfirm, statusIs_eq_true.mpr ⟨b, hb, hs⟩, if_true, hc]
  rw [OTSState.markConfirmed, OTSState.markWith_of_status hb hs (by decide)]

/-- Rule 2 leaves the state, or finds a `Triggered` batch and an `OTSSubmitted` log and marks the
batch submitted with the log's digest. -/
theorem ruleSubmit_spec (state : OTSState) (header : Header) (receipts : List Receipt) :
    ruleSubmit state header receipts = state ∨
      ∃ b sub, state.currentBatch = some b ∧ b.status = BatchStatus.triggered ∧
        extractOTSSubmission receipts = some sub ∧
        ruleSubmit state header receipts = { state with
          currentBatch := some
            { b with otsDigest := sub.digest, submittedAt := header.number,
                     submittedBy := header.coinbase, status := BatchStatus.submitted } } := by
  unfold ruleSubmit
  split
  · obtain ⟨b, hb, hs⟩ := statusIs_eq_true.mp ‹_›
    split
    · exact .inr ⟨b, _, hb, hs, ‹_›, by
        rw [OTSState.markSubmitted, OTSState.markWith_of_status hb hs (by decide)]⟩
    · exact .inl rfl
  · exact .inl rfl

/-- Rule 3 leaves the state, or finds a `Submitted` batch and an `OTSConfirmed` log and marks the
batch confirmed with the log's values. -/
theorem ruleConfirm_spec (state : OTSState) (header : Header) (receipts : List Receipt) :
    ruleConfirm state header receipts = state ∨
      ∃ b c, state.currentBatch = some b ∧ b.status = BatchStatus.submitted ∧
        extractBTCConfirmation receipts = some c ∧
        ruleConfirm state header receipts = { state with
          currentBatch := some
            { b with btcBlockHeight := c.btcBlockHeight, btcTxID := c.btcTxID,
                     btcTimestamp := c.btcTimestamp, confirmedAt := header.number,
                     confirmedBy := header.coinbase, status := BatchStatus.confirmed } } := by
  unfold ruleConfirm
  split
  · obtain ⟨b, hb, hs⟩ := statusIs_eq_true.mp ‹_›
    split
    · exact .inr ⟨b, _, hb, hs, ‹_›, by
        rw [OTSState.markConfirmed, OTSState.markWith_of_status hb hs (by decide)]⟩
    · exact .inl rfl
  · exact .inl rfl

/-- Rule 4 leaves the state, or finds a `Confirmed` batch and an `Anchored` log for its root, and
then `MarkAnchored` succeeds: the batch's end block becomes the last anchored block and the batch
is dropped. -/
theorem ruleAnchor_spec (state : OTSState) (header : Header) (receipts : List Receipt) :
    ruleAnchor state header receipts = state ∨
      ∃ b, state.currentBatch = some b ∧ b.status = BatchStatus.confirmed ∧
        hasValidAnchorTx receipts b = true ∧
        state.markAnchored header.number header.coinbase =
          (ruleAnchor state header receipts, none) ∧
        ruleAnchor state header receipts =
          { state with lastAnchoredBlock := b.endBlock, currentBatch := none } := by
  unfold ruleAnchor
  split
  · rename_i b hb
    split
    · rename_i h
      exact .inr ⟨b, hb, h.1, h.2,
        by rw [OTSState.markAnchored, OTSState.markWith_of_status hb h.1 (by decide)],
        by rw [OTSState.markAnchored, OTSState.markWith_of_status hb h.1 (by decide)]⟩
    · exact .inl rfl
  · exact .inl rfl

namespace TransitionEngine

variable (te : TransitionEngine)

/-- `applyTransitions(state, header, receipts)`: the four rules in sequence. -/
def applyTransitions (state : OTSState) (header : Header) (receipts : List Receipt) :
    Option OTSState :=
  (te.ruleTrigger state header).map fun s =>
    ruleAnchor (ruleConfirm (ruleSubmit s header receipts) header receipts) header receipts

/-- The state `applyTransitions` hands to its rule 4: what rules 1 to 3 leave. -/
def beforeAnchor (state : OTSState) (header : Header) (receipts : List Receipt) :
    Option OTSState :=
  (te.ruleTrigger state header).map fun s => ruleConfirm (ruleSubmit s header receipts) header receipts

/-- `applyTransitions` is rule 4 on what rules 1 to 3 leave. -/
theorem applyTransitions_eq (state : OTSState) (header : Header) (receipts : List Receipt) :
    te.applyTransitions state header receipts =
      (te.beforeAnchor state header receipts).map fun s => ruleAnchor s header receipts := by
  unfold applyTransitions beforeAnchor
  cases te.ruleTrigger state header <;> rfl

/-- `ProcessBlock(header, parentSnap)`, with the snapshot manager it stores into. -/
def processBlock (header : Header) (parentSnap : Snapshot) (sm : SnapshotManager) :
    Option (Snapshot × SnapshotManager) :=
  match parentSnap.state with
  | none => none
  | some state =>
    if state.enabled then
      (te.applyTransitions state header (te.getReceipts header.hash header.number)).bind
        fun newState =>
          let newSnap := Snapshot.new header.number header.hash newState
          (sm.storeSnapshot newSnap).map fun sm' => (newSnap, sm')
    else some (Snapshot.new header.number header.hash state, sm)

/-- `RebuildState(fromSnap, targetNumber, getHeader)`: `ProcessBlock` for the blocks
`fromSnap.Number + 1, …, targetNumber`; a missing header is `ErrSnapshotNotFound`. The snapshots
stored before an error stay stored. -/
def rebuildState (fromSnap : Snapshot) (targetNumber : UInt64)
    (getHeader : UInt64 → Option Header) (sm : SnapshotManager) :
    Option (SnapshotManager × Except Error Snapshot) :=
  fromSnap.copy.bind fun current =>
    (forUpTo
      (fun blockNum acc =>
        match getHeader blockNum with
        | none => some (.error (.snapshotNotFound, acc.2))
        | some header => (te.processBlock header acc.1 acc.2).map .ok)
      targetNumber loopFuel (fromSnap.number + 1) (current, sm)).map fun
        | .ok (snap, sm) => (sm, .ok snap)
        | .error (e, sm) => (sm, .error e)

end TransitionEngine

end Ots

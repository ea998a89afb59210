import OtsConsensus.Manager

/-!
# Proposals and validation of system transactions

What `ValidateOTSSystemTx` accepts, and that it accepts what `GetSystemTransactions` proposes.

Validation is characterised exactly, one call at a time: on calldata starting with a call's
selector, exactly that call's selector test holds (`OTSCall.isCall_of_selector`), and its validator
accepts exactly when the calldata is long enough and the parent batch has the call's status and
agrees with the calldata (`validateCall_eq_none_iff`). Neither the gas price nor the recipient
enters. A proposal is built for the batch it was read from (`OTSCall.Fits`), so it meets that
characterisation; it is built whenever the client answers and the batch's range ends below the
largest block number, which every batch the engine triggers does.
-/

namespace Ots

/-- A 4-byte selector matches itself. -/
theorem matchSelector_self {s : List UInt8} (hs : s.length = 4) : matchSelector s s = true := by
  simp [matchSelector, hs]


namespace OTSConsensusManager

variable (m : OTSConsensusManager)

/-- A call is accepted exactly when the batch has the expected status and the calldata decodes to
values that agree with it. -/
theorem validateBatchCall_eq_none {α : Type} {expected : BatchStatus} {decoded : Except Error α}
    {agrees : α → BatchState → Bool} {state : OTSState} :
    validateBatchCall expected decoded agrees state = none ↔
      ∃ b p, state.currentBatch = some b ∧ b.status = expected ∧ decoded = .ok p ∧
        agrees p b = true := by
  unfold validateBatchCall
  split
  · rename_i b hb
    split_ifs with hs <;> cases decoded <;> simp_all
  · simp_all

/-- The checks on the parent state accept a call exactly when its calldata is long enough and the
parent batch has the call's status and agrees with the calldata. -/
theorem validateCall_eq_none_iff {tx : Transaction} {call : OTSCall}
    (h : tx.data.take 4 = call.selector) (state : OTSState) :
    m.validateCall tx state = none ↔ call.minLength ≤ tx.data.length ∧
      ∃ b, state.currentBatch = some b ∧ b.status = call.expected ∧
        call.AgreesWith tx.data b := by
  have hc := OTSCall.isCall_of_selector h
  have hm : matchSelector (tx.data.take 4) call.selector = true := by
    rw [h]; exact matchSelector_self call.length_selector
  unfold validateCall
  cases call with
  | submitted =>
    simp only [OTSCall.selector] at hm
    have h1 : isOTSSubmittedTx tx = true := hc .submitted
    rw [if_pos h1, validateOTSSubmittedTx, validateBatchCall_eq_none]
    by_cases hl : tx.data.length < 68
    · simp [decodeOTSSubmittedTx, hl, OTSCall.minLength]
    · simp [decodeOTSSubmittedTx, hl, hm, OTSCall.minLength, OTSCall.expected, OTSCall.AgreesWith]
      intros; omega
  | confirmed =>
    simp only [OTSCall.selector] at hm
    have h1 : isOTSSubmittedTx tx = false := hc .submitted
    have h2 : isOTSConfirmedTx tx = true := hc .confirmed
    rw [h1, h2, if_neg Bool.false_ne_true, if_pos rfl, validateOTSConfirmedTx,
      validateBatchCall_eq_none]
    by_cases hl : tx.data.length < 132
    · simp [decodeOTSConfirmedTx, hl, OTSCall.minLength]
    · simp [decodeOTSConfirmedTx, hl, hm, OTSCall.minLength, OTSCall.expected, OTSCall.AgreesWith]
      intros; omega
  | anchor =>
    have h1 : isOTSSubmittedTx tx = false := hc .submitted
    have h2 : isOTSConfirmedTx tx = false := hc .confirmed
    have h3 : isAnchorTx tx = true := hc .anchor
    rw [h1, h2, h3, if_neg Bool.false_ne_true, if_neg Bool.false_ne_true, if_pos rfl,
      validateAnchorTx, validateBatchCall_eq_none]
    by_cases hl : tx.data.length < 164
    · simp [decodeCalldata, decodeAnchorWords, hl, OTSCall.minLength]
    · simp [decodeCalldata, decodeAnchorWords, hl, OTSCall.minLength, OTSCall.expected,
        OTSCall.AgreesWith]
      intros; omega

end OTSConsensusManager

/-- `tx` is a well-formed `call` for the batch `b`: it starts with the call's selector, is long
enough, and agrees with the batch. -/
structure OTSCall.Fits (call : OTSCall) (b : BatchState) (tx : Transaction) : Prop where
  selector : tx.data.take 4 = call.selector
  length : call.minLength ≤ tx.data.length
  agrees : call.AgreesWith tx.data b

section Builders

variable (bd : Builder) (b : BatchState) (coinbase : Address) (nonce gasLimit : UInt64)

/-- The built `otsSubmitted` call of a batch's root fits the batch. -/
theorem fits_submitted (digest : ByteVec 32) :
    OTSCall.submitted.Fits b (bd.buildOTSSubmittedTx ⟨b.rootHash, digest⟩ coinbase nonce gasLimit) := by
  have hsel : otsSubmittedSelector.length = 4 := rfl
  refine ⟨?_, ?_, ?_⟩ <;>
    simp only [Builder.buildOTSSubmittedTx, Builder.systemTx, newTransaction, OTSCall.selector,
      OTSCall.minLength, OTSCall.AgreesWith, List.append_assoc, List.take_left' hsel,
      List.length_append, hsel, ByteVec.length_bytes,
      calldataWord_zero _ hsel (ByteVec.length_bytes _), copyBytes32_bytes]
  omega

/-- A built `otsConfirmed` call of the batch's root fits the batch. -/
theorem fits_confirmed (p : OTSConfirmedParams) (hp : p.rootHash = b.rootHash) :
    OTSCall.confirmed.Fits b (bd.buildOTSConfirmedTx p coinbase nonce gasLimit) := by
  have hsel : otsConfirmedSelector.length = 4 := rfl
  refine ⟨?_, ?_, ?_⟩ <;>
    simp only [Builder.buildOTSConfirmedTx, Builder.systemTx, newTransaction, OTSCall.selector,
      OTSCall.minLength, OTSCall.AgreesWith, List.append_assoc, List.take_left' hsel,
      List.length_append, hsel, ByteVec.length_bytes, length_int64Word,
      calldataWord_zero _ hsel (ByteVec.length_bytes _), copyBytes32_bytes, hp]
  omega

/-- A built `anchor` call over the batch's root and range fits the batch. -/
theorem fits_anchor (c : CandidateBatch) (hr : c.rootHash = b.rootHash)
    (hs : c.startBlock = b.startBlock) (he : c.endBlock = b.endBlock) :
    OTSCall.anchor.Fits b (bd.buildAnchorTx c coinbase nonce gasLimit) := by
  have hsel : anchorSelector.length = 4 := rfl
  have hd := decodeAnchorWords_anchorCalldata hsel c.startBlock c.endBlock c.rootHash
    (btcTxIDToBytes32Local c.btcTxID) c.btcTimestamp
  unfold decodeAnchorWords at hd
  split_ifs at hd with hl
  simp only [Option.some.injEq, Prod.mk.injEq] at hd
  refine ⟨?_, by simpa [OTSCall.minLength] using hl, ⟨?_, ?_, ?_⟩⟩
  · simp only [Builder.buildAnchorTx, Builder.systemTx, newTransaction, anchorCalldata,
      OTSCall.selector, List.append_assoc, List.take_left' hsel]
  · exact hd.2.2.1.trans hr
  · exact hd.1.trans hs
  · exact hd.2.1.trans he

end Builders

namespace OTSConsensusManager

variable (m : OTSConsensusManager) {client : OTSClient} {st : OTSState} {b : BatchState}
  {coinbase : Address} {nonce : UInt64} {tx : Transaction}

/-- A transaction `tryBuildOTSSubmittedTx` builds comes from a triggered batch and fits it. -/
theorem tryBuildOTSSubmittedTx_ok (hb : st.currentBatch = some b)
    (h : m.tryBuildOTSSubmittedTx client st coinbase nonce = .ok (some tx)) :
    b.status = BatchStatus.triggered ∧ OTSCall.submitted.Fits b tx := by
  unfold tryBuildOTSSubmittedTx at h
  rw [hb] at h
  dsimp only at h
  split_ifs at h with hs
  · cases h
  · split at h
    · cases h
    · cases h
      exact ⟨not_not.mp hs, fits_submitted _ _ _ _ _ _⟩

/-- A transaction `tryBuildOTSConfirmedTx` builds comes from a submitted batch and fits it. -/
theorem tryBuildOTSConfirmedTx_ok (hb : st.currentBatch = some b)
    (h : m.tryBuildOTSConfirmedTx client st coinbase nonce = some (.ok (some tx))) :
    b.status = BatchStatus.submitted ∧ OTSCall.confirmed.Fits b tx := by
  obtain ⟨hs, _, -, -, rfl⟩ := m.tryBuildOTSConfirmedTx_eq_some hb h
  exact ⟨hs, fits_confirmed _ _ _ _ _ _ rfl⟩

/-- A transaction `buildAnchorTx` builds comes from a confirmed batch and fits it. -/
theorem buildAnchorTx_ok (hb : st.currentBatch = some b)
    (h : m.buildAnchorTx st coinbase nonce = some (.ok (some tx))) :
    b.status = BatchStatus.confirmed ∧ OTSCall.anchor.Fits b tx := by
  unfold buildAnchorTx at h
  rw [hb] at h
  dsimp only at h
  split_ifs at h with hs
  · cases h
  · obtain ⟨_, -, h⟩ := Option.map_eq_some'.mp h
    cases h
    exact ⟨not_not.mp hs, fits_anchor _ _ _ _ _ _ rfl rfl rfl⟩

/-- **What `GetSystemTransactions` proposes**: with the parent snapshot read, at most one
transaction, of the call whose expected status is the parent batch's, well formed for that
batch. -/
theorem proposals_fit {header : Header} {parentHash : Hash} {getNonce : Address → UInt64}
    {sm0 : SnapshotManager} {snap : Snapshot} (hen : m.enabled = true)
    (hget : m.snapshots.getSnapshot parentHash = some (sm0, .ok snap)) {sm : SnapshotManager}
    {txs : List Transaction}
    (hs : m.getSystemTransactions header parentHash coinbase getNonce = some (sm, txs)) :
    sm = sm0 ∧ ∀ tx ∈ txs, ∃ (st : OTSState) (b : BatchState) (call : OTSCall),
      snap.state = some st ∧ st.currentBatch = some b ∧ b.status = call.expected ∧
        call.Fits b tx := by
  simp only [getSystemTransactions, hen, Bool.not_true, Bool.false_eq_true, if_false, hget,
    Option.some_bind] at hs
  cases hst : snap.state with
  | none => simp only [hst] at hs; cases hs; exact ⟨rfl, fun _ h => nomatch h⟩
  | some st =>
    cases hb : st.currentBatch with
    | none => simp only [hst, hb] at hs; cases hs; exact ⟨rfl, fun _ h => nomatch h⟩
    | some b =>
      simp only [hst, hb] at hs
      obtain ⟨r, hr, he⟩ := Option.map_eq_some'.mp hs
      cases he
      refine ⟨rfl, fun tx htx => ?_⟩
      have hrt : r = .ok (some tx) := by
        split at htx
        · exact (List.mem_singleton.mp htx) ▸ rfl
        · cases htx
      subst hrt
      split_ifs at hr
      · split at hr
        · obtain ⟨hs, hf⟩ := m.tryBuildOTSSubmittedTx_ok hb (Option.some.inj hr)
          exact ⟨st, b, .submitted, rfl, hb, hs, hf⟩
        · cases hr
      · split at hr
        · obtain ⟨hs, hf⟩ := m.tryBuildOTSConfirmedTx_ok hb hr
          exact ⟨st, b, .confirmed, rfl, hb, hs, hf⟩
        · cases hr
      · obtain ⟨hs, hf⟩ := m.buildAnchorTx_ok hb hr
        exact ⟨st, b, .anchor, rfl, hb, hs, hf⟩
      · cases hr

/-! ## Proposals return -/

/-- With the accessors set and a range ending below the largest block number,
`collectRUIDsForBatch` returns the RUIDs of the blocks of the range, in order. -/
theorem collectRUIDsForBatch_eq {getHeaderByNumber : UInt64 → Option Header}
    {getReceipts : Hash → UInt64 → List Receipt} (hh : m.getHeaderByNumber = some getHeaderByNumber)
    (hr : m.getReceipts = some getReceipts) (startBlock endBlock : UInt64)
    (hend : endBlock.toNat < 2 ^ 64 - 1) :
    m.collectRUIDsForBatch startBlock endBlock =
      some ((counterRange startBlock (endBlock.toNat + 1 - startBlock.toNat)).foldl
        (fun ruids n => ruids ++ blockRUIDs getHeaderByNumber getReceipts n) []) := by
  unfold collectRUIDsForBatch
  dsimp only
  rw [forUpTo_of_pure (fun n ruids => ruids ++ blockRUIDs getHeaderByNumber getReceipts n),
    forUpTo_pure_loopFuel _ _ _ _ hend]
  intro n a
  rw [hh, hr]
  cases hg : getHeaderByNumber n <;> simp [blockRUIDs, hg]

/-- `tryBuildOTSConfirmedTx` returns when the client never answers with a `nil` result. -/
theorem tryBuildOTSConfirmedTx_isSome (hc : ∀ d, client.checkConfirmation d ≠ .ok none) :
    (m.tryBuildOTSConfirmedTx client st coinbase nonce).isSome := by
  unfold tryBuildOTSConfirmedTx
  cases st.currentBatch with
  | none => rfl
  | some b =>
    dsimp only
    split_ifs
    · rfl
    · cases hcc : client.checkConfirmation b.otsDigest with
      | error e => rfl
      | ok r =>
        cases r with
        | none => exact absurd hcc (hc _)
        | some res => dsimp only; split_ifs <;> rfl

/-- `buildAnchorTx` returns when the accessors are set and the batch ends below the top block. -/
theorem buildAnchorTx_isSome (hacc : m.getHeaderByNumber.isSome ∧ m.getReceipts.isSome)
    (hend : ∀ b, st.currentBatch = some b → b.endBlock.toNat < 2 ^ 64 - 1) :
    (m.buildAnchorTx st coinbase nonce).isSome := by
  unfold buildAnchorTx
  cases hb : st.currentBatch with
  | none => rfl
  | some b =>
    dsimp only
    split_ifs
    · rfl
    · obtain ⟨g, hg⟩ := Option.isSome_iff_exists.mp hacc.1
      obtain ⟨r, hr⟩ := Option.isSome_iff_exists.mp hacc.2
      rw [m.collectRUIDsForBatch_eq hg hr _ _ (hend b hb)]
      rfl

/-- `GetSystemTransactions` returns when the accessors are set, the client never returns a `nil`
result without an error, and the parent batch ends below the largest block number. -/
theorem getSystemTransactions_isSome (hen : m.enabled = true)
    (hacc : m.getHeaderByNumber.isSome ∧ m.getReceipts.isSome)
    (hclient : ∀ client, m.otsClient = some client → ∀ d, client.checkConfirmation d ≠ .ok none)
    {parentHash : Hash} {sm0 : SnapshotManager} {snap : Snapshot}
    (hget : m.snapshots.getSnapshot parentHash = some (sm0, .ok snap)) (hst : snap.state = some st)
    (hend : ∀ b, st.currentBatch = some b → b.endBlock.toNat < 2 ^ 64 - 1) (header : Header)
    (coinbase : Address) (getNonce : Address → UInt64) :
    (m.getSystemTransactions header parentHash coinbase getNonce).isSome := by
  simp only [getSystemTransactions, hen, Bool.not_true, Bool.false_eq_true, if_false, hget,
    Option.some_bind, hst]
  cases hb : st.currentBatch with
  | none => rfl
  | some b =>
    dsimp only
    rw [Option.isSome_map']
    split_ifs
    · cases m.otsClient <;> rfl
    · cases hc : m.otsClient with
      | none => rfl
      | some c => exact m.tryBuildOTSConfirmedTx_isSome (hclient c hc)
    · exact m.buildAnchorTx_isSome hacc hend
    · rfl

/-! ## Validation of proposals -/

/-- With OTS on and the parent's snapshot read, `ValidateOTSSystemTx` is the call check on its
state. -/
theorem validateOTSSystemTx_of_read (hen : m.enabled = true) {parentHash : Hash}
    {sm : SnapshotManager} {snap : Snapshot}
    (hget : m.snapshots.getSnapshot parentHash = some (sm, .ok snap))
    (hst : snap.state = some st) (tx : Transaction) :
    m.validateOTSSystemTx tx parentHash = some (sm, m.validateCall tx st) := by
  simp [validateOTSSystemTx, hen, hget, hst]

/-- **What validation accepts.** With OTS enabled, a transaction whose calldata starts with an OTS
call's selector is accepted against a parent whose snapshot is read with a state exactly when its
calldata has the call's length and the parent batch has the call's status and agrees with the
calldata. Neither the gas price nor the recipient is read. -/
theorem validateOTSSystemTx_eq_none_iff {call : OTSCall} (hsel : tx.data.take 4 = call.selector)
    (hen : m.enabled = true) {parentHash : Hash} {sm : SnapshotManager} {snap : Snapshot}
    (hget : m.snapshots.getSnapshot parentHash = some (sm, .ok snap)) (hst : snap.state = some st) :
    m.validateOTSSystemTx tx parentHash = some (sm, none) ↔
      call.minLength ≤ tx.data.length ∧ ∃ b, st.currentBatch = some b ∧
        b.status = call.expected ∧ call.AgreesWith tx.data b := by
  rw [m.validateOTSSystemTx_of_read hen hget hst, Option.some.injEq, Prod.mk.injEq,
    m.validateCall_eq_none_iff hsel]
  exact ⟨And.right, fun h => ⟨rfl, h⟩⟩

/-- An `otsSubmitted` call with gas price 1, sent to the registry instead of the contract, is
accepted against a parent whose triggered batch has its root. -/
theorem accepts_paid_misdirected_submission :
    (⟨(SnapshotManager.new (fun _ => none) true).cacheAdd (ByteVec.zero 32)
        ⟨1, ByteVec.zero 32, some ⟨true, 0, some { status := BatchStatus.triggered }⟩⟩,
      none, true, ByteVec.zero 20, 0, none, none, none⟩ : OTSConsensusManager).validateOTSSystemTx
      (newTransaction 0 copyrightRegistryAddr 0 0 1
        (otsSubmittedSelector ++ (ByteVec.zero 32).bytes ++ (ByteVec.zero 32).bytes))
      (ByteVec.zero 32) =
    some ((SnapshotManager.new (fun _ => none) true).cacheAdd (ByteVec.zero 32)
        ⟨1, ByteVec.zero 32, some ⟨true, 0, some { status := BatchStatus.triggered }⟩⟩, none) :=
  (@validateOTSSystemTx_eq_none_iff _ _ _ .submitted (by rfl) (by rfl) _ _ _ (by rfl) (by rfl)).mpr
    ⟨by decide, _, rfl, rfl, by decide⟩

/-- **Honest proposals validate.** With OTS enabled, the chain accessors set and a client whose
`CheckConfirmation` never returns a `nil` result without an error, `GetSystemTransactions` on a
parent whose snapshot is read and was reached by the engine from genesis returns; each
transaction it proposes is recognised by exactly one selector test, that of the call whose
expected status is the parent batch's, and `ValidateOTSSystemTx` accepts it, on the manager
before the proposal and on the manager after it. -/
theorem proposals_validate (te : TransitionEngine) (genesisHash : Hash) (hen : m.enabled = true)
    (hacc : m.getHeaderByNumber.isSome ∧ m.getReceipts.isSome)
    (hclient : ∀ client, m.otsClient = some client → ∀ d, client.checkConfirmation d ≠ .ok none)
    (header : Header) (parentHash : Hash) (coinbase : Address) (getNonce : Address → UInt64)
    {sm0 : SnapshotManager} {snap : Snapshot}
    (hget : m.snapshots.getSnapshot parentHash = some (sm0, .ok snap))
    (hreach : EngineReachable te (m.snapshots.getGenesisSnapshot genesisHash) snap) :
    ∃ txs, m.getSystemTransactions header parentHash coinbase getNonce = some (sm0, txs) ∧
      ∀ tx ∈ txs, ∃ (st : OTSState) (b : BatchState) (call : OTSCall),
        snap.state = some st ∧ st.currentBatch = some b ∧ b.status = call.expected ∧
        (∀ c : OTSCall, c.isCall tx = (c == call)) ∧
        m.validateOTSSystemTx tx parentHash = some (sm0, none) ∧
        { m with snapshots := sm0 }.validateOTSSystemTx tx parentHash = some (sm0, none) := by
  obtain ⟨st, hst, hinv⟩ := hreach.chainInv ⟨_, rfl, OTSState.ChainInv.new _⟩
  have hend : ∀ b, st.currentBatch = some b → b.endBlock.toNat < 2 ^ 64 - 1 := fun b hb => by
    have := (hinv.batch_range b hb).2.2.1
    have := u64_toNat_lt b.triggerBlock
    omega
  obtain ⟨⟨sm, txs⟩, hs⟩ := Option.isSome_iff_exists.mp
    (m.getSystemTransactions_isSome hen hacc hclient hget hst hend header coinbase getNonce)
  obtain ⟨hsm, hfit⟩ := m.proposals_fit hen hget hs
  refine ⟨txs, hsm ▸ hs, fun tx htx => ?_⟩
  obtain ⟨st', b, call, hst', hb, hs, hf⟩ := hfit tx htx
  obtain rfl : st' = st := Option.some.inj (hst'.symm.trans hst)
  have hacc' : ∀ m' : OTSConsensusManager, m'.validateCall tx st' = none := fun m' =>
    (m'.validateCall_eq_none_iff hf.selector st').mpr ⟨hf.length, b, hb, hs, hf.agrees⟩
  refine ⟨st', b, call, hst, hb, hs, OTSCall.isCall_of_selector hf.selector, ?_, ?_⟩
  · rw [m.validateOTSSystemTx_of_read hen hget hst, hacc']
  · rw [validateOTSSystemTx_of_read { m with snapshots := sm0 } hen
      (SnapshotManager.getSnapshot_again hget) hst, hacc']

/-- On the chain whose block `n` has the hash `uint64Word n` and falls on day `n`, the engine
triggers a batch over block 1 at block 2. A manager holding that snapshot, with a client whose
`Stamp` succeeds, proposes on it one transaction, an `otsSubmitted` call, which it validates. -/
theorem proposals_at_trigger :
    let headerOf : UInt64 → Header := fun n =>
      ⟨n, ⟨uint64Word n, length_uint64Word n⟩, ByteVec.zero 32, 86400 * n, ByteVec.zero 20⟩
    let te : TransitionEngine :=
      ⟨fun _ _ => [], fun _ k => some (headerOf k), fun _ => ByteVec.zero 32⟩
    let snap2 := Snapshot.new 2 (headerOf 2).hash ⟨true, 0, some
      { startBlock := 1, endBlock := 1, rootHash := ByteVec.zero 32,
        status := BatchStatus.triggered, triggerBlock := 2, triggerNode := ByteVec.zero 20 }⟩
    let m : OTSConsensusManager :=
      ⟨(SnapshotManager.new (fun _ => none) true).cacheAdd (headerOf 2).hash snap2, some te, true,
        ByteVec.zero 20, 0, some te.getReceipts, some fun n => some (headerOf n),
        some ⟨fun _ => .ok ([], ByteVec.zero 32), fun _ => .error (.client 0)⟩⟩
    ∃ txs, m.getSystemTransactions (headerOf 3) (headerOf 2).hash (ByteVec.zero 20) (fun _ => 0) =
        some (m.snapshots, txs) ∧ txs.length = 1 ∧
      ∀ tx ∈ txs, isOTSSubmittedTx tx = true ∧
        m.validateOTSSystemTx tx (headerOf 2).hash = some (m.snapshots, none) := by
  intro headerOf te snap2 m
  let sm := SnapshotManager.new (fun _ => none) true
  have h1 : (te.processBlock (headerOf 1) (sm.getGenesisSnapshot (headerOf 0).hash) sm).map
      Prod.fst = some (Snapshot.new 1 (headerOf 1).hash (OTSState.new true)) := by decide
  have h2 : (te.processBlock (headerOf 2) (Snapshot.new 1 (headerOf 1).hash (OTSState.new true))
      sm).map Prod.fst = some snap2 := by decide
  obtain ⟨⟨_, _⟩, h1, rfl⟩ := Option.map_eq_some'.mp h1
  obtain ⟨⟨_, _⟩, h2, rfl⟩ := Option.map_eq_some'.mp h2
  obtain ⟨txs, hs, hall⟩ := proposals_validate m te (headerOf 0).hash rfl ⟨rfl, rfl⟩
    (fun _ hc _ e => by cases hc; cases e) (headerOf 3) (headerOf 2).hash (ByteVec.zero 20)
    (fun _ => 0) (by rfl) (.step (.step .start (by decide) h1) (by decide) h2)
  have hlen : (m.getSystemTransactions (headerOf 3) (headerOf 2).hash (ByteVec.zero 20)
      fun _ => 0).map (fun r => r.2.length) = some 1 := by decide
  rw [hs] at hlen
  refine ⟨txs, hs, Option.some.inj hlen, fun tx htx => ?_⟩
  obtain ⟨st, b, call, hst, hb, hstatus, hcall, hv, -⟩ := hall tx htx
  cases hst
  cases hb
  obtain rfl : call = .submitted := by cases call <;> first | rfl | exact absurd hstatus (by decide)
  exact ⟨hcall .submitted, hv⟩

end OTSConsensusManager

end Ots

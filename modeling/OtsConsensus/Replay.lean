import OtsConsensus.BlockRules
import OtsConsensus.Proposals

/-!
# Replaying the chain

What the engine's runs keep of every batch, and rebuilding a state from a checkpoint.

A property of batches that a fresh trigger establishes and that marking a batch submitted or
confirmed keeps (`KeptByRules`) holds of the batch of every snapshot the engine reaches from
genesis (`EngineReachable.allBatches`). Two such properties matter here. Every root is the zero
hash (`engine_roots_zero`): `calculateRootHash` asks the placeholder `getRUIDsFromBlock` for each
block's RUIDs, so a batch's root never depends on the chain's `CopyrightClaimed` logs, which
`collectRUIDsForBatch` does read. Every BTC txid is ASCII, being `common.Bytes2Hex` output, so
the JSON encoding of every reached state decodes back to it.

`TransitionEngine.replay` runs `ProcessBlock` over the chain from genesis. `RebuildState` from
the decoding of any replayed snapshot's encoding reaches the replayed snapshot of its target, for
every target below the largest block number; at the largest, its block loop wraps and never
stops. The same holds of the other block loops: below the largest block number the loops of
`RebuildState`, `calculateRootHash` and `collectRUIDsForBatch` run their body once at each block
number of their range, in order; to it, none returns.
-/

namespace Ots

/-- Every batch of the state has `P`. -/
def OTSState.AllBatches (P : BatchState → Prop) (s : OTSState) : Prop :=
  ∀ b, s.currentBatch = some b → P b

/-- What the rules need of a property of batches to keep it: a freshly triggered batch has it,
and marking a batch submitted, or confirmed on the log the rules read, keeps it. -/
structure KeptByRules (P : BatchState → Prop) : Prop where
  trigger : ∀ (s : OTSState) (header : Header),
    P { startBlock := s.lastAnchoredBlock + 1, endBlock := header.number - 1,
        rootHash := ByteVec.zero 32, status := BatchStatus.triggered,
        triggerBlock := header.number, triggerNode := header.coinbase }
  submit : ∀ (b : BatchState) (sub : OTSSubmission) (header : Header), P b →
    P { b with otsDigest := sub.digest, submittedAt := header.number,
               submittedBy := header.coinbase, status := BatchStatus.submitted }
  confirm : ∀ (b : BatchState) (c : BTCConfirmation) (header : Header) (receipts : List Receipt),
    extractBTCConfirmation receipts = some c → P b →
    P { b with btcBlockHeight := c.btcBlockHeight, btcTxID := c.btcTxID,
               btcTimestamp := c.btcTimestamp, confirmedAt := header.number,
               confirmedBy := header.coinbase, status := BatchStatus.confirmed }

/-- What one `ProcessBlock` does: with OTS on in the parent state, the next state is the rules'
and the snapshot is stored; with OTS off, the state is carried over and nothing is stored. -/
theorem TransitionEngine.processBlock_cases {te : TransitionEngine} {header : Header}
    {snap snap' : Snapshot} {sm sm' : SnapshotManager} {st : OTSState} (hst : snap.state = some st)
    (hp : te.processBlock header snap sm = some (snap', sm')) :
    ∃ st', snap' = Snapshot.new header.number header.hash st' ∧
      (st.enabled = true ∧
          te.applyTransitions st header (te.getReceipts header.hash header.number) = some st' ∧
          sm.storeSnapshot snap' = some sm' ∨
        st.enabled = false ∧ st' = st ∧ sm' = sm) := by
  unfold TransitionEngine.processBlock at hp
  rw [hst] at hp
  dsimp only at hp
  split_ifs at hp with he
  · obtain ⟨s', ha, hp⟩ := Option.bind_eq_some.mp hp
    obtain ⟨_, hs, hp⟩ := Option.map_eq_some'.mp hp
    cases hp
    exact ⟨s', rfl, .inl ⟨he, ha, hs⟩⟩
  · cases hp
    exact ⟨st, rfl, .inr ⟨Bool.eq_false_iff.mpr he, rfl, rfl⟩⟩

section Kept

variable {P : BatchState → Prop} {s : OTSState} {header : Header} {receipts : List Receipt}

/-- Rule 1 after genesis keeps a property the rules keep. -/
theorem OTSState.AllBatches.ruleTrigger (hP : KeptByRules P) (te : TransitionEngine)
    (h1 : 1 ≤ header.number.toNat) (h : s.AllBatches P) {s1 : OTSState}
    (hr : te.ruleTrigger s header = some s1) :
    s1.AllBatches P := by
  rcases te.ruleTrigger_spec s header h1 with he | ⟨-, -, he⟩ <;> rw [he] at hr <;> cases hr
  · exact h
  · intro b hb
    cases Option.some.inj hb
    exact hP.trigger s header

/-- Rule 2 keeps a property the rules keep. -/
theorem OTSState.AllBatches.ruleSubmit (hP : KeptByRules P) (h : s.AllBatches P) :
    (ruleSubmit s header receipts).AllBatches P := by
  rcases ruleSubmit_spec s header receipts with he | ⟨b, sub, hb, -, -, he⟩ <;> rw [he]
  · exact h
  · intro b' hb'
    cases Option.some.inj hb'
    exact hP.submit b sub header (h b hb)

/-- Rule 3 keeps a property the rules keep. -/
theorem OTSState.AllBatches.ruleConfirm (hP : KeptByRules P) (h : s.AllBatches P) :
    (ruleConfirm s header receipts).AllBatches P := by
  rcases ruleConfirm_spec s header receipts with he | ⟨b, c, hb, -, hc, he⟩ <;> rw [he]
  · exact h
  · intro b' hb'
    cases Option.some.inj hb'
    exact hP.confirm b c header receipts hc (h b hb)

/-- Rule 4 keeps every property of the batches. -/
theorem OTSState.AllBatches.ruleAnchor (h : s.AllBatches P) :
    (ruleAnchor s header receipts).AllBatches P := by
  rcases ruleAnchor_spec s header receipts with he | ⟨_, -, -, -, -, he⟩ <;> rw [he]
  · exact h
  · exact fun _ hb => nomatch hb

/-- One block of the four rules keeps a property the rules keep. -/
theorem OTSState.AllBatches.applyTransitions (hP : KeptByRules P) (te : TransitionEngine)
    (h1 : 1 ≤ header.number.toNat) (h : s.AllBatches P) {s' : OTSState}
    (ha : te.applyTransitions s header receipts = some s') :
    s'.AllBatches P := by
  obtain ⟨s1, hr, rfl⟩ := Option.map_eq_some'.mp ha
  exact (((h.ruleTrigger hP te h1 hr).ruleSubmit hP).ruleConfirm hP).ruleAnchor

/-- `ProcessBlock` keeps a property the rules keep. -/
theorem OTSState.AllBatches.processBlock (hP : KeptByRules P) (te : TransitionEngine)
    (h1 : 1 ≤ header.number.toNat) {snap snap' : Snapshot} {sm sm' : SnapshotManager}
    (hst : snap.state = some s)
    (h : s.AllBatches P) (hp : te.processBlock header snap sm = some (snap', sm')) :
    ∃ s', snap'.state = some s' ∧ s'.AllBatches P := by
  obtain ⟨s', rfl, ⟨-, ha, -⟩ | ⟨-, rfl, -⟩⟩ := TransitionEngine.processBlock_cases hst hp
  · exact ⟨s', rfl, h.applyTransitions hP te h1 ha⟩
  · exact ⟨_, rfl, h⟩

/-- **Every batch the engine reaches from genesis has a property the rules keep.** -/
theorem EngineReachable.allBatches (hP : KeptByRules P) {te : TransitionEngine}
    {sm0 : SnapshotManager} {genesisHash : Hash} {snap : Snapshot}
    (hr : EngineReachable te (sm0.getGenesisSnapshot genesisHash) snap) :
    ∃ st, snap.state = some st ∧ st.AllBatches P := by
  induction hr with
  | start => exact ⟨_, rfl, fun _ hb => nomatch hb⟩
  | step _ hk hp ih =>
    obtain ⟨st, hst, h⟩ := ih
    exact h.processBlock hP _ (by omega) hst hp

end Kept

/-- A step of `ProcessBlock` read through the snapshot it returns. -/
theorem EngineReachable.step_fst {te : TransitionEngine} {start snap snap' : Snapshot}
    (hr : EngineReachable te start snap) (header : Header) (sm : SnapshotManager)
    (hk : header.number.toNat = snap.number.toNat + 1)
    (hp : (te.processBlock header snap sm).map Prod.fst = some snap') :
    EngineReachable te start snap' := by
  obtain ⟨⟨_, _⟩, hp', rfl⟩ := Option.map_eq_some'.mp hp
  exact .step hr hk hp'

/-! ## Roots -/

/-- The zero root is kept by the rules: a trigger writes it and no other rule changes it. -/
theorem keptByRules_root : KeptByRules fun b => b.rootHash = ByteVec.zero 32 :=
  ⟨fun _ _ => rfl, fun _ _ _ h => h, fun _ _ _ _ _ h => h⟩

/-- **Every batch the engine triggers has the zero root**, on every chain, whatever its
`CopyrightClaimed` logs: `calculateRootHash` takes each block's RUIDs from
`getRUIDsFromBlock`, which returns none. -/
theorem engine_roots_zero (te : TransitionEngine) (sm0 : SnapshotManager) (genesisHash : Hash)
    (snap : Snapshot) (hr : EngineReachable te (sm0.getGenesisSnapshot genesisHash) snap) :
    ∀ st b, snap.state = some st → st.currentBatch = some b →
      b.rootHash = ByteVec.zero 32 := by
  obtain ⟨st, hst, h⟩ := hr.allBatches keptByRules_root
  intro st' b hst' hb
  rw [hst] at hst'
  cases hst'
  exact h b hb

/-- On a chain whose every block has a `CopyrightClaimed` log of one RUID, the batch triggered at
block 2 over block 1 has the zero root, while `collectRUIDsForBatch` gathers that RUID for it,
whose Merkle root is not zero. -/
theorem root_ignores_claims :
    let ruid : Hash := ⟨List.replicate 31 0 ++ [1], by simp⟩
    let receipts : List Receipt :=
      [⟨1, [⟨copyrightRegistryAddr, [copyrightClaimedEventSig, ruid], []⟩]⟩]
    let te : TransitionEngine :=
      ⟨fun _ _ => receipts, fun _ _ => some ⟨0, ByteVec.zero 32, ByteVec.zero 32, 0,
        ByteVec.zero 20⟩, fun _ => ruid⟩
    let header : UInt64 → Header :=
      fun n => ⟨n, ByteVec.zero 32, ByteVec.zero 32, 86400 * (n - 1), ByteVec.zero 20⟩
    let sm0 := SnapshotManager.new (fun _ => none) true
    let m := (OTSConsensusManager.new (fun _ => none) true (ByteVec.zero 20) 0).setChainAccessors
      te.keccak256 te.getReceipts te.getHeader fun n => some (header n)
    ∃ snap st b, EngineReachable te (sm0.getGenesisSnapshot (ByteVec.zero 32)) snap ∧
      snap.state = some st ∧ st.currentBatch = some b ∧ b.startBlock = 1 ∧ b.endBlock = 1 ∧
      b.rootHash = ByteVec.zero 32 ∧
      m.collectRUIDsForBatch b.startBlock b.endBlock = some [ruid] ∧
      buildMerkleRoot te.keccak256 (sortRUIDs [ruid]) ≠ ByteVec.zero 32 := by
  intro ruid receipts te header sm0 m
  let b : BatchState :=
    { startBlock := 1, endBlock := 1, status := BatchStatus.triggered, triggerBlock := 2 }
  let s2 := Snapshot.new 2 (ByteVec.zero 32) ⟨true, 0, some b⟩
  have r1 : EngineReachable te (sm0.getGenesisSnapshot (ByteVec.zero 32))
      (Snapshot.new 1 (ByteVec.zero 32) (OTSState.new true)) :=
    EngineReachable.start.step_fst (header 1) sm0 (by decide) (by decide)
  have r2 : EngineReachable te (sm0.getGenesisSnapshot (ByteVec.zero 32)) s2 :=
    r1.step_fst (header 2) sm0 (by decide) (by decide)
  refine ⟨s2, _, b, r2, rfl, rfl, rfl, rfl, engine_roots_zero te sm0 _ _ r2 _ _ rfl rfl, ?_, ?_⟩
  · rw [OTSConsensusManager.collectRUIDsForBatch_eq m rfl rfl _ _ (by decide)]
    rfl
  · rw [sortRUIDs, List.mergeSort_singleton, buildMerkleRoot, merkleLayers]
    decide

/-! ## BTC txids -/

/-- The BTC txid of an `OTSConfirmed` log is the hex of its second data word. -/
theorem parseOTSConfirmedLog_btcTxID {log : Log} {c : BTCConfirmation}
    (h : parseOTSConfirmedLog log = some c) :
    c.btcTxID = hexEncode ((log.data.drop 32).take 32) := by
  unfold parseOTSConfirmedLog at h
  split at h
  · split_ifs at h
    cases h
    rfl
  · cases h

/-- An ASCII BTC txid is kept by the rules: rule 3 writes the hex text of a word. -/
theorem keptByRules_ascii : KeptByRules fun b => ∀ c ∈ b.btcTxID, c < 128 where
  trigger _ _ _ h := absurd h (List.not_mem_nil _)
  submit _ _ _ h := h
  confirm _ c _ _ hc _ := by
    obtain ⟨-, log, -, -, -, hp, -⟩ := (scanRegistryLogs_eq_some _ _ _).mp hc
    rw [parseOTSConfirmedLog_btcTxID hp]
    exact fun x hx => (plainText_hexJson _ x (List.mem_append_right _ hx)).2.1

/-- **Every snapshot the engine reaches from genesis comes back from its JSON encoding**, as it
is: the only text it holds, a BTC txid, is hex. -/
theorem EngineReachable.decode_encode {te : TransitionEngine} {sm0 : SnapshotManager}
    {genesisHash : Hash} {snap : Snapshot}
    (hr : EngineReachable te (sm0.getGenesisSnapshot genesisHash) snap) :
    decodeSnapshot snap.encode = .ok snap := by
  obtain ⟨st, hst, h⟩ := hr.allBatches keptByRules_ascii
  rw [decodeSnapshot_encode, Snapshot.throughJson, hst, Option.map_some',
    OTSState.throughJson_of_ascii h, ← hst]

/-! ## Replay and rebuild -/

namespace TransitionEngine

variable (te : TransitionEngine)

/-- The snapshot `ProcessBlock` returns does not depend on the manager it stores into. -/
theorem processBlock_map_fst (header : Header) (snap : Snapshot) (sm sm' : SnapshotManager) :
    (te.processBlock header snap sm).map Prod.fst =
      (te.processBlock header snap sm').map Prod.fst := by
  obtain ⟨_, _, _ | state⟩ := snap
  · rfl
  · unfold processBlock
    dsimp only
    split_ifs
    · cases te.applyTransitions state header _ <;> rfl
    · rfl

/-- `ProcessBlock` of the blocks `1, …, k` of the chain `headerOf` from `start`: the snapshot of
block `k` in a replay from genesis. The snapshot does not depend on the manager
(`processBlock_map_fst`), so one manager serves every block. -/
def replay (headerOf : UInt64 → Header) (start : Snapshot) (sm : SnapshotManager) :
    Nat → Option Snapshot
  | 0 => some start
  | k + 1 => (replay headerOf start sm k).bind fun S =>
    (te.processBlock (headerOf (UInt64.ofNat (k + 1))) S sm).map Prod.fst

end TransitionEngine

section Replay

variable {te : TransitionEngine} {headerOf : UInt64 → Header} {sm0 : SnapshotManager}
  {genesisHash : Hash}

/-- **Every block below `2 ^ 64` of a chain numbered by its blocks replays**, to a snapshot the
engine reaches from genesis, numbered by its block. -/
theorem replay_reachable (hnum : ∀ n, (headerOf n).number = n) :
    ∀ k < 2 ^ 64, ∃ S,
      te.replay headerOf (sm0.getGenesisSnapshot genesisHash) sm0 k = some S ∧
      EngineReachable te (sm0.getGenesisSnapshot genesisHash) S ∧ S.number.toNat = k
  | 0, _ => ⟨_, rfl, .start, rfl⟩
  | k + 1, hk => by
    obtain ⟨S, hS, hr, hn⟩ := replay_reachable hnum k (by omega)
    obtain ⟨st, hst, hinv⟩ := hr.chainInv ⟨_, rfl, OTSState.ChainInv.new _⟩
    have hk' : (headerOf (UInt64.ofNat (k + 1))).number.toNat = k + 1 := by
      rw [hnum]; exact UInt64.toNat_ofNat_of_lt hk
    obtain ⟨st', sm', hp, -, -⟩ := processBlock_step _ te hst (hn ▸ hinv) hk' sm0
    exact ⟨_, by rw [TransitionEngine.replay, hS, Option.some_bind, hp]; rfl,
      .step hr (by rw [hk', hn]) hp, hk'⟩

/-- A replayed snapshot is the one `replay_reachable` names. -/
theorem replay_spec (hnum : ∀ n, (headerOf n).number = n) {k : Nat} {S : Snapshot}
    (hk : k < 2 ^ 64)
    (hS : te.replay headerOf (sm0.getGenesisSnapshot genesisHash) sm0 k = some S) :
    EngineReachable te (sm0.getGenesisSnapshot genesisHash) S ∧ S.number.toNat = k := by
  obtain ⟨S', hS', hr, hn⟩ := replay_reachable hnum k hk
  rw [hS] at hS'
  cases hS'
  exact ⟨hr, hn⟩

/-- A replayed snapshot has a state. -/
theorem replay_state (hnum : ∀ n, (headerOf n).number = n) {k : Nat} {S : Snapshot}
    (hk : k < 2 ^ 64)
    (hS : te.replay headerOf (sm0.getGenesisSnapshot genesisHash) sm0 k = some S) :
    S.state.isSome := by
  obtain ⟨st, hst, -⟩ :=
    (replay_spec hnum hk hS).1.chainInv ⟨_, rfl, OTSState.ChainInv.new _⟩
  rw [hst]
  rfl

/-- **`RebuildState` from a replayed snapshot reaches the replayed snapshot of its target**, for
every target below the largest block number, with any snapshot manager: the loop keeps its
snapshot the replayed one of the block before its counter. -/
theorem rebuildState_replay (hnum : ∀ n, (headerOf n).number = n) {m : Nat} {S : Snapshot}
    (hS : te.replay headerOf (sm0.getGenesisSnapshot genesisHash) sm0 m = some S) (t : UInt64)
    (hm : m ≤ t.toNat) (ht : t.toNat < 2 ^ 64 - 1) (sm : SnapshotManager) :
    ∃ St sm', te.replay headerOf (sm0.getGenesisSnapshot genesisHash) sm0 t.toNat = some St ∧
      te.rebuildState S t (fun n => some (headerOf n)) sm = some (sm', .ok St) := by
  have hn := (replay_spec hnum (by omega) hS).2
  let inv := fun (n : Nat) (acc : Snapshot × SnapshotManager) =>
    ∃ k, n = k + 1 ∧ te.replay headerOf (sm0.getGenesisSnapshot genesisHash) sm0 k = some acc.1
  have hbody : ∀ (n : UInt64) (acc : Snapshot × SnapshotManager), n.toNat ≤ t.toNat →
      inv n.toNat acc → ∃ acc', (te.processBlock (headerOf n) acc.1 acc.2).map Except.ok =
        some (.ok acc' : Except (Error × SnapshotManager) _) ∧ inv (n.toNat + 1) acc' := by
    rintro n acc hn ⟨k, hk, hrep⟩
    obtain ⟨S', hS', -, -⟩ := replay_reachable hnum (k + 1) (by omega)
    have hp : (te.processBlock (headerOf n) acc.1 acc.2).map Prod.fst = some S' := by
      rwa [TransitionEngine.replay, hrep, Option.some_bind, ← hk, u64_ofNat_toNat,
        te.processBlock_map_fst _ _ sm0 acc.2] at hS'
    obtain ⟨⟨_, sm'⟩, hp', rfl⟩ := Option.map_eq_some'.mp hp
    exact ⟨_, by rw [hp']; rfl, k + 1, by omega, hS'⟩
  obtain ⟨⟨St, sm'⟩, hloop, k, hk, hrep⟩ :=
    forUpTo_inv_loopFuel t inv ht hbody (S.number + 1) (S, sm)
      (by rw [u64_toNat_add_one (by omega)]; omega)
      ⟨m, by rw [u64_toNat_add_one (by omega), hn], hS⟩
  refine ⟨St, sm', (by omega : k = t.toNat) ▸ hrep, ?_⟩
  rw [TransitionEngine.rebuildState, Snapshot.copy_of_state (replay_state hnum (by omega) hS),
    Option.some_bind]
  exact congrArg (Option.map _) hloop

/-- Every snapshot the manager holds under a block hash of the chain, in its cache or in its
database, is the one `replayed` gives for that block. -/
structure SnapshotManager.HoldsReplay (sm : SnapshotManager) (headerOf : UInt64 → Header)
    (replayed : Nat → Option Snapshot) : Prop where
  cache : ∀ n S, sm.cache (headerOf n).hash = some S → replayed n.toNat = some S
  db : ∀ n data, sm.db (snapshotKey (headerOf n).hash) = some data →
    ∃ S, replayed n.toNat = some S ∧ decodeSnapshot data = .ok S

section Holds

variable {sm : SnapshotManager}

/-- `GetSnapshot` of a block's hash returns, and what it reads is the replayed snapshot. -/
theorem SnapshotManager.HoldsReplay.getSnapshot
    (hh : sm.HoldsReplay headerOf (te.replay headerOf (sm0.getGenesisSnapshot genesisHash) sm0))
    (hnum : ∀ n, (headerOf n).number = n) (n : UInt64) :
    ∃ sm' r, sm.getSnapshot (headerOf n).hash = some (sm', r) ∧
      ∀ S, r = .ok S →
        te.replay headerOf (sm0.getGenesisSnapshot genesisHash) sm0 n.toNat = some S := by
  have hcopy : ∀ {S : Snapshot},
      te.replay headerOf (sm0.getGenesisSnapshot genesisHash) sm0 n.toNat = some S →
        S.copy = some S := fun hS => Snapshot.copy_of_state (replay_state hnum (u64_toNat_lt n) hS)
  unfold SnapshotManager.getSnapshot SnapshotManager.loadFromDB
  cases hc : sm.cache (headerOf n).hash with
  | some S =>
    have hS := hh.cache n S hc
    simp only [hcopy hS, Option.map_some']
    exact ⟨_, _, rfl, fun _ h => (Except.ok.inj h) ▸ hS⟩
  | none =>
    cases hd : sm.db (snapshotKey (headerOf n).hash) with
    | none => exact ⟨_, _, rfl, fun _ h => nomatch h⟩
    | some data =>
      obtain ⟨S, hS, hdec⟩ := hh.db n data hd
      simp only [hdec, hcopy hS, Option.map_some']
      exact ⟨_, _, rfl, fun _ h => (Except.ok.inj h) ▸ hS⟩

/-- The loop of `FindNearestSnapshot` over the chain's hashes returns, and what it finds is the
replayed snapshot of a block at most its first candidate. -/
theorem SnapshotManager.HoldsReplay.searchBack
    (hh : sm.HoldsReplay headerOf (te.replay headerOf (sm0.getGenesisSnapshot genesisHash) sm0))
    (hnum : ∀ n, (headerOf n).number = n) :
    ∀ k, k * snapshotPersistInterval.toNat < 2 ^ 64 →
      ∃ sm' o, sm.searchBack (fun n => (headerOf n).hash) k = some (sm', o) ∧
        ∀ S ∈ o, ∃ j ≤ k * snapshotPersistInterval.toNat,
          te.replay headerOf (sm0.getGenesisSnapshot genesisHash) sm0 j = some S
  | 0, _ => ⟨sm, none, rfl, fun _ h => absurd h (Option.not_mem_none _)⟩
  | k + 1, hk => by
    have hle : k * snapshotPersistInterval.toNat ≤ (k + 1) * snapshotPersistInterval.toNat :=
      Nat.mul_le_mul_right _ (Nat.le_succ k)
    obtain ⟨sm', o, hs, ho⟩ := hh.searchBack hnum k (lt_of_le_of_lt hle hk)
    have back : ∃ sm' o, sm.searchBack (fun n => (headerOf n).hash) k = some (sm', o) ∧
        ∀ S ∈ o, ∃ j ≤ (k + 1) * snapshotPersistInterval.toNat,
          te.replay headerOf (sm0.getGenesisSnapshot genesisHash) sm0 j = some S :=
      ⟨sm', o, hs, fun S hS => (ho S hS).imp fun _ h => ⟨h.1.trans hle, h.2⟩⟩
    rw [SnapshotManager.searchBack_succ]
    dsimp only
    split_ifs
    · exact back
    obtain ⟨sm'', r, hg, hr⟩ :=
      hh.getSnapshot hnum (UInt64.ofNat ((k + 1) * snapshotPersistInterval.toNat))
    rw [hg]
    cases r with
    | ok S =>
      refine ⟨sm'', some S, rfl, fun S' hS' => ⟨_, le_refl _, ?_⟩⟩
      cases hS'
      rw [← UInt64.toNat_ofNat_of_lt hk]
      exact hr S rfl
    | error _ => exact back

/-- `FindNearestSnapshot` over the chain's hashes returns the replayed snapshot of a block at
most its target: a held one, else the genesis snapshot. -/
theorem SnapshotManager.HoldsReplay.findNearestSnapshot
    (hh : sm.HoldsReplay headerOf (te.replay headerOf (sm0.getGenesisSnapshot genesisHash) sm0))
    (hnum : ∀ n, (headerOf n).number = n)
    (hg : sm.getGenesisSnapshot (headerOf 0).hash = sm0.getGenesisSnapshot genesisHash)
    (target : UInt64) :
    ∃ sm' S j, sm.findNearestSnapshot target (fun n => (headerOf n).hash) = some (sm', S) ∧
      j ≤ target.toNat ∧
        te.replay headerOf (sm0.getGenesisSnapshot genesisHash) sm0 j = some S := by
  have hq : (target / snapshotPersistInterval).toNat * snapshotPersistInterval.toNat ≤
      target.toNat := by
    rw [UInt64.toNat_div]
    exact Nat.div_mul_le_self _ _
  obtain ⟨sm', o, hs, ho⟩ := hh.searchBack hnum (target / snapshotPersistInterval).toNat
    (by have := u64_toNat_lt target; omega)
  rw [SnapshotManager.findNearestSnapshot, hs]
  cases o with
  | none => exact ⟨sm', _, 0, rfl, Nat.zero_le _, congrArg some hg.symm⟩
  | some S =>
    obtain ⟨j, hj, hr⟩ := ho S rfl
    exact ⟨sm', S, j, rfl, by omega, hr⟩

end Holds

/-- **`RebuildFromChain` force-stores the replayed snapshot of its target**, below the largest
block number, when the manager's engine and header accessor are those of the chain and it holds
only replayed snapshots under the chain's hashes. -/
theorem OTSConsensusManager.rebuildFromChain_replay (M : OTSConsensusManager)
    (hnum : ∀ n, (headerOf n).number = n) (he : M.engine = some te)
    (hget : M.getHeaderByNumber = some fun n => some (headerOf n))
    (hg : M.snapshots.getGenesisSnapshot (headerOf 0).hash = sm0.getGenesisSnapshot genesisHash)
    (hh : M.snapshots.HoldsReplay headerOf
      (te.replay headerOf (sm0.getGenesisSnapshot genesisHash) sm0))
    (fromBlock t : UInt64) (hft : fromBlock ≤ t) (ht : t.toNat < 2 ^ 64 - 1) :
    ∃ (St : Snapshot) (sm1 sm' : SnapshotManager),
      te.replay headerOf (sm0.getGenesisSnapshot genesisHash) sm0 t.toNat = some St ∧
      sm1.forceStore St = some sm' ∧ M.rebuildFromChain fromBlock t = some (sm', none) := by
  obtain ⟨sm', S, j, hf, hj, hS⟩ := hh.findNearestSnapshot hnum hg fromBlock
  obtain ⟨St, sm1, hSt, hrb⟩ :=
    rebuildState_replay hnum hS t (by rw [u64_le_iff] at hft; omega) ht sm'
  obtain ⟨sm2, hfs⟩ : ∃ sm2, sm1.forceStore St = some sm2 := ⟨_, by
    rw [SnapshotManager.forceStore, Snapshot.copy_of_state (replay_state hnum (by omega) hSt)]
    rfl⟩
  refine ⟨St, sm1, sm2, hSt, hfs, ?_⟩
  rw [OTSConsensusManager.rebuildFromChain, he, hget]
  simp only [Option.map_some', Option.getD_some]
  rw [hf, Option.some_bind, hrb, Option.some_bind]
  exact congrArg (Option.map _) hfs

/-- **`RebuildState` to the largest block number never returns** on a chain with every header:
past the target its counter wraps to zero, so `blockNum <= targetNumber` holds for ever. -/
theorem rebuildState_max (fromSnap : Snapshot) {t : UInt64} (ht : t.toNat = 2 ^ 64 - 1)
    (sm : SnapshotManager) : te.rebuildState fromSnap t (fun n => some (headerOf n)) sm = none := by
  rw [TransitionEngine.rebuildState]
  cases fromSnap.copy with
  | none => rfl
  | some current =>
    rw [Option.some_bind, forUpTo_max t (fun n acc e h => ?_) ht]
    · rfl
    · obtain ⟨_, -, h⟩ := Option.map_eq_some'.mp h
      cases h

end Replay

/-- **Rebuilding from a checkpoint equals replaying from genesis, below the largest block
number.** On a chain numbered by its blocks, for blocks `m ≤ t`, the replayed snapshot of `m`
decodes from its encoding as it is. For `t < 2 ^ 64 - 1`, `RebuildState` from it to `t`, with any
manager, returns the replayed snapshot of `t`, numbered `t`; and a manager running this engine
over this chain and holding only replayed snapshots under the chain's hashes force-stores that
snapshot in `RebuildFromChain` from any block up to `t`. For `t = 2 ^ 64 - 1`, `RebuildState`
never returns. -/
theorem rebuild_from_checkpoint (te : TransitionEngine) (headerOf : UInt64 → Header)
    (hnum : ∀ n, (headerOf n).number = n) (sm0 : SnapshotManager) (genesisHash : Hash)
    (m t : UInt64) (hm : m ≤ t) :
    let replayed := te.replay headerOf (sm0.getGenesisSnapshot genesisHash) sm0
    ∃ Sm St, replayed m.toNat = some Sm ∧ replayed t.toNat = some St ∧ St.number = t ∧
      decodeSnapshot Sm.encode = .ok Sm ∧
      (t.toNat < 2 ^ 64 - 1 →
        (∀ sm, ∃ sm',
          te.rebuildState Sm t (fun n => some (headerOf n)) sm = some (sm', .ok St)) ∧
        ∀ (M : OTSConsensusManager) (fromBlock : UInt64), M.engine = some te →
          M.getHeaderByNumber = some (fun n => some (headerOf n)) →
          M.snapshots.getGenesisSnapshot (headerOf 0).hash = sm0.getGenesisSnapshot genesisHash →
          M.snapshots.HoldsReplay headerOf replayed → fromBlock ≤ t →
          ∃ sm1 sm' : SnapshotManager, sm1.forceStore St = some sm' ∧
            M.rebuildFromChain fromBlock t = some (sm', none)) ∧
      (t.toNat = 2 ^ 64 - 1 →
        ∀ sm, te.rebuildState Sm t (fun n => some (headerOf n)) sm = none) := by
  intro replayed
  obtain ⟨Sm, hSm, hrm, -⟩ := replay_reachable hnum m.toNat (u64_toNat_lt m)
  obtain ⟨St, hSt, -, hnt⟩ := replay_reachable hnum t.toNat (u64_toNat_lt t)
  refine ⟨Sm, St, hSm, hSt, u64_eq_iff.mpr hnt, hrm.decode_encode, fun ht => ⟨fun sm => ?_,
    fun M fromBlock he hget hg hh hft => ?_⟩, fun ht => rebuildState_max Sm ht⟩
  · obtain ⟨_, sm', hSt', hrb⟩ := rebuildState_replay hnum hSm t hm ht sm
    rw [hSt] at hSt'
    cases hSt'
    exact ⟨sm', hrb⟩
  · obtain ⟨_, sm1, sm', hSt', hfs, hrc⟩ :=
      M.rebuildFromChain_replay hnum he hget hg hh fromBlock t hft ht
    rw [hSt] at hSt'
    cases hSt'
    exact ⟨sm1, sm', hfs, hrc⟩

/-- From the genesis checkpoint of a chain with no receipts, `RebuildFromChain` to block 1 by a
manager that holds nothing force-stores the replayed snapshot, and `RebuildState` to the largest
block number does not return. -/
theorem rebuild_at_one_and_at_max :
    let headerOf : UInt64 → Header :=
      fun n => ⟨n, ByteVec.zero 32, ByteVec.zero 32, 0, ByteVec.zero 20⟩
    let te : TransitionEngine := ⟨fun _ _ => [], fun _ _ => none, fun _ => ByteVec.zero 32⟩
    let sm0 := SnapshotManager.new (fun _ => none) true
    let M := (OTSConsensusManager.new (fun _ => none) true (ByteVec.zero 20) 0).setChainAccessors
      te.keccak256 te.getReceipts te.getHeader fun n => some (headerOf n)
    (∃ St, te.replay headerOf (sm0.getGenesisSnapshot (ByteVec.zero 32)) sm0 1 = some St ∧
      ∃ sm1 sm' : SnapshotManager, sm1.forceStore St = some sm' ∧
        M.rebuildFromChain 0 1 = some (sm', none)) ∧
    ∃ S0, te.replay headerOf (sm0.getGenesisSnapshot (ByteVec.zero 32)) sm0 0 = some S0 ∧
      decodeSnapshot S0.encode = .ok S0 ∧
      te.rebuildState S0 (UInt64.ofNat (2 ^ 64 - 1)) (fun n => some (headerOf n)) sm0 = none := by
  intro headerOf te sm0 M
  obtain ⟨_, St, -, hSt, -, -, hone, -⟩ :=
    rebuild_from_checkpoint te headerOf (fun _ => rfl) sm0 (ByteVec.zero 32) 0 1 (by decide)
  obtain ⟨S0, -, h0, -, -, hdec, -, hmax⟩ :=
    rebuild_from_checkpoint te headerOf (fun _ => rfl) sm0 (ByteVec.zero 32) 0
      (UInt64.ofNat (2 ^ 64 - 1)) (by decide)
  exact ⟨⟨St, hSt, (hone (by decide)).2 M 0 rfl rfl rfl
    ⟨fun _ _ h => Option.noConfusion h, fun _ _ h => Option.noConfusion h⟩ (by decide)⟩,
    S0, h0, hdec, hmax (by decide) sm0⟩

/-! ## The block loops -/

/-- **The block loops run at their range, once each and in order, or never stop.** Below the
largest block number the loops of `RebuildState` (from `fromSnap.Number + 1`), `calculateRootHash`
and `collectRUIDsForBatch` run their body at `start, …, stop` as numbers, in order, and at
nothing when `stop < start`. To the largest block number they do not return: the loops of
`calculateRootHash` and `collectRUIDsForBatch` never, that of `RebuildState` on a chain with
every header. -/
theorem blockLoops_range (te : TransitionEngine) (m : OTSConsensusManager) (start stop : UInt64) :
    (stop.toNat < 2 ^ 64 - 1 →
      let blocks := (List.range' start.toNat (stop.toNat + 1 - start.toNat)).map UInt64.ofNat
      (∀ fromSnap getHeader sm, fromSnap.number + 1 = start →
        te.rebuildState fromSnap stop getHeader sm = fromSnap.copy.bind fun current =>
          (bodyRun
            (fun blockNum acc =>
              match getHeader blockNum with
              | none => some (.error (.snapshotNotFound, acc.2))
              | some header => (te.processBlock header acc.1 acc.2).map .ok)
            blocks (current, sm)).map fun
              | .ok (snap, sm) => (sm, .ok snap)
              | .error (e, sm) => (sm, .error e)) ∧
      te.calculateRootHash start stop =
        some (let ruids := blocks.foldl (fun ruids n => ruids ++ getRUIDsFromBlock n) []
          if ruids.length = 0 then ByteVec.zero 32
          else buildMerkleRoot te.keccak256 (sortRUIDs ruids)) ∧
      ∀ getHeaderByNumber getReceipts, m.getHeaderByNumber = some getHeaderByNumber →
        m.getReceipts = some getReceipts →
        m.collectRUIDsForBatch start stop =
          some (blocks.foldl (fun ruids n => ruids ++ blockRUIDs getHeaderByNumber getReceipts n)
            [])) ∧
    (stop.toNat = 2 ^ 64 - 1 →
      (∀ fromSnap getHeader sm, (∀ n, (getHeader n).isSome) →
        te.rebuildState fromSnap stop getHeader sm = none) ∧
      te.calculateRootHash start stop = none ∧ m.collectRUIDsForBatch start stop = none) := by
  have hrange : stop.toNat < 2 ^ 64 - 1 →
      counterRange start (stop.toNat + 1 - start.toNat) =
        (List.range' start.toNat (stop.toNat + 1 - start.toNat)).map UInt64.ofNat := fun h =>
    counterRange_eq_range' _ _ (by have := u64_toNat_lt start; omega)
  refine ⟨fun hstop => ⟨fun fromSnap getHeader sm hs => ?_, ?_, fun g r hg hr => ?_⟩,
    fun hstop => ⟨fun fromSnap getHeader sm hg => ?_, ?_, ?_⟩⟩
  · subst hs
    rw [TransitionEngine.rebuildState]
    cases fromSnap.copy with
    | none => rfl
    | some current =>
      rw [Option.some_bind, Option.some_bind]
      exact congrArg (Option.map _) ((forUpTo_loopFuel stop _ _ hstop).trans
        (congrArg (fun l => bodyRun _ l _) (hrange hstop)))
  · rw [TransitionEngine.calculateRootHash, forUpToPure_eq _ _ _ _ hstop, hrange hstop]
    rfl
  · rw [m.collectRUIDsForBatch_eq hg hr start stop hstop, hrange hstop]
  · have := @rebuildState_max te (fun n => (getHeader n).get (hg n)) fromSnap stop hstop sm
    simpa only [Option.some_get] using this
  · rw [TransitionEngine.calculateRootHash, forUpToPure,
      forUpTo_max stop (fun _ _ e _ => e.elim) hstop]
    rfl
  · unfold OTSConsensusManager.collectRUIDsForBatch
    dsimp only
    rw [forUpTo_max stop (fun _ _ (e : Empty) _ => e.elim) hstop]

/-- The root loop over blocks `1, 2, 3` gives the zero root; to the largest block number it never
returns, nor does the manager's loop. -/
theorem root_loop_to_max :
    let te : TransitionEngine := ⟨fun _ _ => [], fun _ _ => none, fun _ => ByteVec.zero 32⟩
    let m := OTSConsensusManager.new (fun _ => none) true (ByteVec.zero 20) 0
    te.calculateRootHash 1 3 = some (ByteVec.zero 32) ∧
      te.calculateRootHash 1 (UInt64.ofNat (2 ^ 64 - 1)) = none ∧
      m.collectRUIDsForBatch 1 (UInt64.ofNat (2 ^ 64 - 1)) = none := by
  intro te m
  have hmax := (blockLoops_range te m 1 (UInt64.ofNat (2 ^ 64 - 1))).2 (by decide)
  exact ⟨by rw [((blockLoops_range te m 1 3).1 (by decide)).2.1]; rfl, hmax.2⟩

end Ots

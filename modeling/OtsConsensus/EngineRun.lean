import OtsConsensus.Engine
import OtsConsensus.Lifecycle

/-!
# Runs of the transition engine

From the genesis snapshot, `ProcessBlock` over blocks `1, 2, …`, with any headers, receipts and
parent headers, always returns, and every snapshot it produces satisfies `OTSState.ChainInv` at
its block number: the state is live, the last anchored block is at most the block number, and a
batch starts right after the last anchored block, is not empty, and was triggered the block after
its end and no later than the current block, all without `uint64` wrap-around. Between
consecutive states `AnchorStep` holds: the last anchored block moves only by a successful
`MarkAnchored` on the batch that rules 1 to 3 of the block leave, to the end of that batch, which
started right after it; and a batch present in both keeps its identity (`BatchState.key`).

The invariant is carried through the four rules one at a time, from their inversion lemmas in
`Engine`; rules 2 and 3 only rewrite fields outside the batch's identity (`OTSState.Kept`).
`EngineReachable` is the induction over blocks.
-/

namespace Ots

/-- The engine's invariant of the state at block `k`. -/
structure OTSState.ChainInv (k : Nat) (s : OTSState) : Prop where
  live : s.Live
  last_le : s.lastAnchoredBlock.toNat ≤ k
  batch_range : ∀ b, s.currentBatch = some b →
    b.startBlock.toNat = s.lastAnchoredBlock.toNat + 1 ∧ b.startBlock.toNat ≤ b.endBlock.toNat ∧
      b.triggerBlock.toNat = b.endBlock.toNat + 1 ∧ b.triggerBlock.toNat ≤ k

/-- `s'` has the last anchored block of `s`, and any batch of `s'` has the identity of the batch
of `s`. -/
structure OTSState.Kept (s s' : OTSState) : Prop where
  last : s'.lastAnchoredBlock = s.lastAnchoredBlock
  batch : ∀ b', s'.currentBatch = some b' → ∃ b, s.currentBatch = some b ∧ b'.key = b.key

/-- What one block does between a state and the next: the last anchored block never goes down;
it moves only when `MarkAnchored` succeeds on the batch that rules 1 to 3 of the block leave
(`TransitionEngine.beforeAnchor`), and then to that batch's end, the batch having started right
after the old last anchored block; a batch present before and after keeps its identity. -/
structure AnchorStep (te : TransitionEngine) (header : Header) (receipts : List Receipt)
    (s s' : OTSState) : Prop where
  last_mono : s.lastAnchoredBlock.toNat ≤ s'.lastAnchoredBlock.toNat
  last_anchored : s'.lastAnchoredBlock ≠ s.lastAnchoredBlock →
    ∃ (pre : OTSState) (b : BatchState), te.beforeAnchor s header receipts = some pre ∧
      pre.currentBatch = some b ∧ pre.markAnchored header.number header.coinbase = (s', none) ∧
      b.startBlock.toNat = s.lastAnchoredBlock.toNat + 1 ∧ s'.lastAnchoredBlock = b.endBlock
  batch_kept : ∀ b b', s.currentBatch = some b → s'.currentBatch = some b' → b'.key = b.key

namespace OTSState

variable {k : Nat} {s s' s'' : OTSState}

/-- Keeping the last anchored block and the batch identity composes. -/
theorem Kept.trans (h : s.Kept s') (h' : s'.Kept s'') : s.Kept s'' :=
  ⟨h'.last.trans h.last, fun b'' hb'' =>
    let ⟨b', hb', hk'⟩ := h'.batch b'' hb''
    let ⟨b, hb, hk⟩ := h.batch b' hb'
    ⟨b, hb, hk'.trans hk⟩⟩

/-- A live batch blocks a new trigger. -/
theorem canTrigger_of_batch {b : BatchState} (hl : s.Live) (hb : s.currentBatch = some b) :
    s.canTrigger = false := by
  simp only [canTrigger, hasActiveBatch, hb, Bool.and_eq_false_iff, Bool.not_eq_false']
  rcases hl b hb with h | h | h <;> (rw [h]; exact .inr rfl)

namespace ChainInv

/-- An invariant state at one block is invariant at every later block. -/
theorem mono {k' : Nat} (h : s.ChainInv k) (hk : k ≤ k') : s.ChainInv k' :=
  ⟨h.live, (by have := h.last_le; omega), fun b hb => by have := h.batch_range b hb; omega⟩

/-- The genesis state is invariant at block 0. -/
theorem new (e : Bool) : (OTSState.new e).ChainInv 0 :=
  ⟨fun _ h => (by cases h), le_of_eq rfl, fun _ h => by cases h⟩

/-- A live state with the last anchored block and the batch identity of an invariant state is
invariant. -/
theorem of_kept (h : s.ChainInv k) (hl : s'.Live) (hk : s.Kept s') : s'.ChainInv k := by
  refine ⟨hl, hk.last ▸ h.last_le, fun b' hb' => ?_⟩
  obtain ⟨b, hb, hkey⟩ := hk.batch b' hb'
  simp only [BatchState.key, Prod.mk.injEq] at hkey
  rw [hk.last, hkey.1, hkey.2.1, hkey.2.2.2.1]
  exact h.batch_range b hb

end ChainInv

end OTSState

open OTSState

variable (header : Header) (receipts : List Receipt) {k : Nat} {s : OTSState}

/-! ## One rule at a time -/

/-- Rule 2 keeps the last anchored block and the batch identity. -/
theorem kept_ruleSubmit : s.Kept (ruleSubmit s header receipts) := by
  rcases ruleSubmit_spec s header receipts with he | ⟨b, _, hb, -, -, he⟩ <;> rw [he]
  · exact ⟨rfl, fun b' hb' => ⟨b', hb', rfl⟩⟩
  · exact ⟨rfl, fun _ hb' => by cases hb'; exact ⟨b, hb, rfl⟩⟩

/-- Rule 3 keeps the last anchored block and the batch identity. -/
theorem kept_ruleConfirm : s.Kept (ruleConfirm s header receipts) := by
  rcases ruleConfirm_spec s header receipts with he | ⟨b, _, hb, -, -, he⟩ <;> rw [he]
  · exact ⟨rfl, fun b' hb' => ⟨b', hb', rfl⟩⟩
  · exact ⟨rfl, fun _ hb' => by cases hb'; exact ⟨b, hb, rfl⟩⟩

/-- Rule 2 keeps the invariant. -/
theorem chainInv_ruleSubmit (h : s.ChainInv k) : (ruleSubmit s header receipts).ChainInv k := by
  refine h.of_kept ?_ (kept_ruleSubmit header receipts)
  rcases ruleSubmit_spec s header receipts with he | ⟨b, _, -, -, -, he⟩ <;> rw [he]
  · exact h.live
  · intro _ hb'; cases hb'; exact .inr (.inl rfl)

/-- Rule 3 keeps the invariant. -/
theorem chainInv_ruleConfirm (h : s.ChainInv k) : (ruleConfirm s header receipts).ChainInv k := by
  refine h.of_kept ?_ (kept_ruleConfirm header receipts)
  rcases ruleConfirm_spec s header receipts with he | ⟨b, _, -, -, -, he⟩ <;> rw [he]
  · exact h.live
  · intro _ hb'; cases hb'; exact .inr (.inr rfl)

/-- Rule 4 keeps the invariant: an anchored batch leaves no batch and moves the last anchored block
to its end. -/
theorem chainInv_ruleAnchor (h : s.ChainInv k) : (ruleAnchor s header receipts).ChainInv k := by
  rcases ruleAnchor_spec s header receipts with he | ⟨b, hb, -, -, -, he⟩ <;> rw [he]
  · exact h
  · have := h.batch_range b hb
    exact ⟨fun _ h => (by cases h), (by simp only; omega), fun _ h => by cases h⟩

/-- Rule 1 at block `k + 1` returns, keeps the last anchored block, leaves a state with a batch
as it was, and moves the invariant from block `k` to block `k + 1`. -/
theorem ruleTrigger_step (te : TransitionEngine) (h : s.ChainInv k)
    (hk : header.number.toNat = k + 1) :
    ∃ s1, te.ruleTrigger s header = some s1 ∧ s1.ChainInv (k + 1) ∧
      s1.lastAnchoredBlock = s.lastAnchoredBlock ∧ ∀ b, s.currentBatch = some b → s1 = s := by
  rcases te.ruleTrigger_spec s header (by omega) with he | ⟨hcan, hr, he⟩
  · exact ⟨s, he, h.mono (by omega), rfl, fun _ _ => rfl⟩
  · have hlast := h.last_le
    refine ⟨_, he, ⟨fun _ hb => by cases hb; exact .inl rfl, (by dsimp only; omega),
      fun _ hb => ?_⟩, rfl, fun b hb => absurd hcan (by rw [canTrigger_of_batch h.live hb]; simp)⟩
    cases hb
    have hnum := u64_toNat_lt header.number
    rw [u64_lt_iff, not_lt] at hr
    dsimp only
    rw [u64_toNat_add_one (by omega), u64_toNat_sub_one (by omega)] at hr ⊢
    omega

/-! ## One block -/

/-- A block that changes nothing is an `AnchorStep`. -/
theorem AnchorStep.refl (te : TransitionEngine) (s : OTSState) : AnchorStep te header receipts s s :=
  ⟨le_refl _, fun h => absurd rfl h, fun _ _ hb hb' => by rw [hb] at hb'; cases hb'; rfl⟩

/-- **One block of `applyTransitions`** at block `k + 1` returns, moves the invariant from block
`k` to block `k + 1`, and makes an `AnchorStep`. -/
theorem applyTransitions_step (te : TransitionEngine) (h : s.ChainInv k)
    (hk : header.number.toNat = k + 1) :
    ∃ s', te.applyTransitions s header receipts = some s' ∧ s'.ChainInv (k + 1) ∧
      AnchorStep te header receipts s s' := by
  obtain ⟨s1, hr1, hinv1, hlast1, hkeep1⟩ := ruleTrigger_step header te h hk
  let s3 := ruleConfirm (ruleSubmit s1 header receipts) header receipts
  have hk3 : s1.Kept s3 :=
    (kept_ruleSubmit header receipts).trans (kept_ruleConfirm header receipts)
  have hinv3 : s3.ChainInv (k + 1) :=
    chainInv_ruleConfirm header receipts (chainInv_ruleSubmit header receipts hinv1)
  have hlast3 : s3.lastAnchoredBlock = s.lastAnchoredBlock := hk3.last.trans hlast1
  have hpre : te.beforeAnchor s header receipts = some s3 := by
    rw [TransitionEngine.beforeAnchor, hr1, Option.map_some']
  refine ⟨ruleAnchor s3 header receipts, by rw [te.applyTransitions_eq, hpre, Option.map_some'],
    chainInv_ruleAnchor header receipts hinv3, ?_⟩
  rcases ruleAnchor_spec s3 header receipts with he | ⟨b, hb, -, -, hm, he⟩ <;> rw [he]
  · refine ⟨le_of_eq (congrArg UInt64.toNat hlast3.symm), fun hne => absurd hlast3 hne,
      fun b b' hb hb' => ?_⟩
    obtain ⟨b1, hb1, hkey⟩ := hk3.batch b' hb'
    rw [hkeep1 b hb, hb] at hb1
    cases hb1
    exact hkey
  · have hrange := hinv3.batch_range b hb
    rw [hlast3] at hrange
    exact ⟨by simp only; omega, fun _ => ⟨s3, b, hpre, hb, he ▸ hm, hrange.1, rfl⟩,
      fun _ _ _ h => by cases h⟩

/-! ## Runs -/

/-- **One block of `ProcessBlock`** on a snapshot whose state is invariant at block `k`, for a
header numbered `k + 1`: it returns a snapshot of that header whose state is invariant at the
header's number, with an `AnchorStep` between the two states. -/
theorem processBlock_step (te : TransitionEngine) {snap : Snapshot} (hst : snap.state = some s)
    (h : s.ChainInv k) (hk : header.number.toNat = k + 1) (sm : SnapshotManager) :
    ∃ s' sm', te.processBlock header snap sm =
        some (Snapshot.new header.number header.hash s', sm') ∧
      s'.ChainInv header.number.toNat ∧
        AnchorStep te header (te.getReceipts header.hash header.number) s s' := by
  rw [hk]
  unfold TransitionEngine.processBlock
  rw [hst]
  by_cases he : s.enabled
  · obtain ⟨s', ha, hinv, hstep⟩ := applyTransitions_step header
      (te.getReceipts header.hash header.number) te h hk
    obtain ⟨sm', hsm⟩ := sm.storeSnapshot_new header.number header.hash s'
    exact ⟨s', sm', by simp only [he, if_true, ha, Option.some_bind, hsm, Option.map_some'],
      hinv, hstep⟩
  · exact ⟨s, sm, by simp [he], h.mono (by omega), AnchorStep.refl header _ te s⟩

/-- The snapshots `ProcessBlock` produces from `start` along headers whose numbers go up by one,
with any snapshot manager at each block. -/
inductive EngineReachable (te : TransitionEngine) (start : Snapshot) : Snapshot → Prop
  | start : EngineReachable te start start
  | step {snap snap' : Snapshot} {header : Header} {sm sm' : SnapshotManager} :
      EngineReachable te start snap → header.number.toNat = snap.number.toNat + 1 →
      te.processBlock header snap sm = some (snap', sm') → EngineReachable te start snap'

/-- Every snapshot reached from an invariant snapshot is invariant at its number. -/
theorem EngineReachable.chainInv {te : TransitionEngine} {start snap : Snapshot}
    (hr : EngineReachable te start snap)
    (h0 : ∃ st, start.state = some st ∧ st.ChainInv start.number.toNat) :
    ∃ st, snap.state = some st ∧ st.ChainInv snap.number.toNat := by
  induction hr with
  | start => exact h0
  | @step snap snap' header sm sm' _ hk hp ih =>
    obtain ⟨st, hst, hinv⟩ := ih
    obtain ⟨st', sm'', hp', hinv', -⟩ := processBlock_step header te hst hinv hk sm
    rw [hp'] at hp
    cases hp
    exact ⟨st', rfl, hinv'⟩

/-- **The engine's run invariant.** From the genesis snapshot, `ProcessBlock` over headers
numbered `1, 2, …`, with any receipts, parent headers and snapshot managers, produces only
snapshots whose state satisfies `ChainInv` at their block number; and at each of them
`ProcessBlock` of the next header returns, with an `AnchorStep` between the two states. -/
theorem processBlock_chain_invariant (te : TransitionEngine) (sm0 : SnapshotManager)
    (genesisHash : Hash) :
    (∀ snap, EngineReachable te (sm0.getGenesisSnapshot genesisHash) snap →
      ∃ st, snap.state = some st ∧ st.ChainInv snap.number.toNat) ∧
    ∀ snap header sm, EngineReachable te (sm0.getGenesisSnapshot genesisHash) snap →
      header.number.toNat = snap.number.toNat + 1 →
      ∃ st st' sm', snap.state = some st ∧
        te.processBlock header snap sm = some (Snapshot.new header.number header.hash st', sm') ∧
        AnchorStep te header (te.getReceipts header.hash header.number) st st' := by
  have hreach : ∀ snap, EngineReachable te (sm0.getGenesisSnapshot genesisHash) snap →
      ∃ st, snap.state = some st ∧ st.ChainInv snap.number.toNat :=
    fun _ hr => hr.chainInv ⟨_, rfl, ChainInv.new sm0.otsEnabled⟩
  refine ⟨hreach, fun snap header sm hr hk => ?_⟩
  obtain ⟨st, hst, hinv⟩ := hreach snap hr
  obtain ⟨st', sm', hp, -, hstep⟩ := processBlock_step header te hst hinv hk sm
  exact ⟨st, st', sm', hst, hp, hstep⟩

end Ots

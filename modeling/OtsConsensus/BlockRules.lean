import OtsConsensus.Engine

/-!
# One block of `applyTransitions`

Each of the four rules moves the batch status along at most one edge of `CanTransitionTo`
(`rules_step_or_stay`). The rules run in sequence and each re-reads the status the previous one
left, so in one block the status can move along several edges: a `Triggered` batch whose block
carries both an `OTSSubmitted` and an `OTSConfirmed` registry log ends the block `Confirmed`
(`applyTransitions_submits_and_confirms`).

The three log scans return the first registry log, in receipt and log order, that their parser
accepts (`scanRegistryLogs_eq_some`). Only rule 4's parser compares the log's root topic with the
batch's root (`hasValidAnchorTx_iff`); rules 2 and 3 record the first `OTSSubmitted` or
`OTSConfirmed` log whatever root it carries (`applyTransitions_submits_any_root`).
-/

namespace Ots

/-- The status stays, or moves along one edge of `CanTransitionTo`. -/
def BatchStatus.StepOrStay (a b : BatchStatus) : Prop := b = a ∨ a.canTransitionTo b = true

/-! ## One edge per rule -/

section Edges

variable (s : OTSState) (header : Header) (receipts : List Receipt)

/-- Rule 2 keeps the status or moves it one edge. -/
theorem stepOrStay_ruleSubmit : s.statusOf.StepOrStay (ruleSubmit s header receipts).statusOf := by
  rcases ruleSubmit_spec s header receipts with he | ⟨b, _, hb, hs, -, he⟩ <;> rw [he]
  · exact .inl rfl
  · simp only [OTSState.statusOf, hb, hs]; exact .inr rfl

/-- Rule 3 keeps the status or moves it one edge. -/
theorem stepOrStay_ruleConfirm :
    s.statusOf.StepOrStay (ruleConfirm s header receipts).statusOf := by
  rcases ruleConfirm_spec s header receipts with he | ⟨b, _, hb, hs, -, he⟩ <;> rw [he]
  · exact .inl rfl
  · simp only [OTSState.statusOf, hb, hs]; exact .inr rfl

/-- Rule 4 keeps the status or moves it one edge. -/
theorem stepOrStay_ruleAnchor : s.statusOf.StepOrStay (ruleAnchor s header receipts).statusOf := by
  rcases ruleAnchor_spec s header receipts with he | ⟨b, hb, hs, -, -, he⟩ <;> rw [he]
  · exact .inl rfl
  · simp only [OTSState.statusOf, hb, hs]; exact .inr rfl

/-- Rule 1 keeps the status or moves it one edge. -/
theorem stepOrStay_ruleTrigger {te : TransitionEngine} {s1 : OTSState}
    (h : te.ruleTrigger s header = some s1) : s.statusOf.StepOrStay s1.statusOf := by
  rcases te.ruleTrigger_cases h with rfl | ⟨hcan, b, hb, rfl⟩
  · exact .inl rfl
  · have hnone : s.statusOf = BatchStatus.none := by
      simp only [OTSState.canTrigger, Bool.and_eq_true, Bool.not_eq_true'] at hcan
      exact OTSState.hasActiveBatch_eq_false.mp hcan.2
    simp only [OTSState.statusOf, hb] at hnone ⊢
    rw [hnone]; exact .inr rfl

end Edges

/-- **Each rule moves the status along at most one edge.** Rule 1 (whenever it returns), and
rules 2, 3 and 4 on every state, header and receipts, leave the status as it was or move it
along one edge of `CanTransitionTo`; an absent batch counts as `None`. -/
theorem rules_step_or_stay :
    (∀ (te : TransitionEngine) (s s1 : OTSState) (header : Header),
      te.ruleTrigger s header = some s1 → s.statusOf.StepOrStay s1.statusOf) ∧
    (∀ (s : OTSState) header receipts,
      s.statusOf.StepOrStay (ruleSubmit s header receipts).statusOf) ∧
    (∀ (s : OTSState) header receipts,
      s.statusOf.StepOrStay (ruleConfirm s header receipts).statusOf) ∧
    ∀ (s : OTSState) header receipts,
      s.statusOf.StepOrStay (ruleAnchor s header receipts).statusOf :=
  ⟨fun _ s _ header h => stepOrStay_ruleTrigger s header h, stepOrStay_ruleSubmit,
    stepOrStay_ruleConfirm, stepOrStay_ruleAnchor⟩

/-! ## Several edges in one block -/

/-- A state with a batch in `Triggered` cannot trigger, so rule 1 returns it unchanged. -/
theorem ruleTrigger_of_triggered (te : TransitionEngine) {s : OTSState} {b : BatchState}
    (header : Header) (hb : s.currentBatch = some b) (hs : b.status = BatchStatus.triggered) :
    te.ruleTrigger s header = some s := by
  have hcan : s.canTrigger = false := by
    simp only [OTSState.canTrigger, OTSState.hasActiveBatch, hb, hs]
    exact Bool.and_false _
  simp [TransitionEngine.ruleTrigger, hcan]

/-- **Submitted and confirmed in one block.** A `Triggered` batch, in a block whose receipts carry
a registry `OTSSubmitted` log and a registry `OTSConfirmed` log and no `Anchored` log for its
root, leaves `applyTransitions` `Confirmed`, with both marks applied: two edges in one block. -/
theorem applyTransitions_submits_and_confirms (te : TransitionEngine) (s : OTSState)
    (b : BatchState) (header : Header) (receipts : List Receipt) (sub : OTSSubmission)
    (c : BTCConfirmation) (hb : s.currentBatch = some b) (hs : b.status = BatchStatus.triggered)
    (hsub : extractOTSSubmission receipts = some sub)
    (hc : extractBTCConfirmation receipts = some c) (ha : hasValidAnchorTx receipts b = false) :
    te.applyTransitions s header receipts = some { s with
      currentBatch := some
        { b with otsDigest := sub.digest, submittedAt := header.number,
                 submittedBy := header.coinbase, btcBlockHeight := c.btcBlockHeight,
                 btcTxID := c.btcTxID, btcTimestamp := c.btcTimestamp,
                 confirmedAt := header.number, confirmedBy := header.coinbase,
                 status := BatchStatus.confirmed } } := by
  let b2 : BatchState :=
    { b with otsDigest := sub.digest, submittedAt := header.number,
             submittedBy := header.coinbase, status := BatchStatus.submitted }
  rw [TransitionEngine.applyTransitions, ruleTrigger_of_triggered te header hb hs,
    Option.map_some', ruleSubmit_of_extract header hb hs hsub,
    @ruleConfirm_of_extract { s with currentBatch := some b2 } b2 c header receipts rfl rfl hc]
  exact congrArg some (if_neg fun h => absurd h.2 (by rw [Bool.not_eq_true]; exact ha))

/-- Block 3 over a batch of block 1 triggered at block 2: one receipt with both logs moves the
batch from `Triggered` to `Confirmed`. -/
theorem submits_and_confirms_in_one_block :
    let te : TransitionEngine := ⟨fun _ _ => [], fun _ _ => none, fun _ => ByteVec.zero 32⟩
    let b : BatchState :=
      { startBlock := 1, endBlock := 1, status := BatchStatus.triggered, triggerBlock := 2 }
    let s : OTSState := { enabled := true, lastAnchoredBlock := 0, currentBatch := some b }
    let header : Header := ⟨3, ByteVec.zero 32, ByteVec.zero 32, 0, ByteVec.zero 20⟩
    let receipts : List Receipt :=
      [⟨1, [⟨copyrightRegistryAddr, [otsSubmittedSig, ByteVec.zero 32], List.replicate 32 0⟩,
            ⟨copyrightRegistryAddr, [otsConfirmedSig, ByteVec.zero 32], List.replicate 96 0⟩]⟩]
    let sub : OTSSubmission := ⟨ByteVec.zero 32, ByteVec.zero 32⟩
    let c : BTCConfirmation := ⟨ByteVec.zero 32, 0, hexEncode (List.replicate 32 0), 0⟩
    s.currentBatch = some b ∧ b.status = BatchStatus.triggered ∧
      extractOTSSubmission receipts = some sub ∧ extractBTCConfirmation receipts = some c ∧
      hasValidAnchorTx receipts b = false ∧
      te.applyTransitions s header receipts = some { s with
        currentBatch := some
          { b with otsDigest := sub.digest, submittedAt := header.number,
                   submittedBy := header.coinbase, btcBlockHeight := c.btcBlockHeight,
                   btcTxID := c.btcTxID, btcTimestamp := c.btcTimestamp,
                   confirmedAt := header.number, confirmedBy := header.coinbase,
                   status := BatchStatus.confirmed } } :=
  ⟨rfl, rfl, by decide, by decide, by decide,
    applyTransitions_submits_and_confirms _ _ _ _ _ _ _ rfl rfl (by decide) (by decide)
      (by decide)⟩

/-! ## Which logs the rules read -/

/-- The logs the three scans read: the logs of the successful receipts, in order. -/
theorem scanRegistryLogs_eq_some {α : Type} (parse : Log → Option α) (receipts : List Receipt)
    (a : α) :
    scanRegistryLogs parse receipts = some a ↔
      ∃ pre log post,
        (receipts.filter (·.status == receiptStatusSuccessful)).flatMap (·.logs) =
          pre ++ log :: post ∧
        log.address = copyrightRegistryAddr ∧ parse log = some a ∧
        ∀ l ∈ pre, l.address = copyrightRegistryAddr → parse l = none := by
  simp only [scanRegistryLogs, List.findSome?_eq_some_iff, ite_eq_right_iff]
  constructor
  · rintro ⟨pre, log, post, hl, hlog, hpre⟩
    by_cases hreg : log.address = copyrightRegistryAddr
    · rw [if_pos hreg] at hlog
      exact ⟨pre, log, post, hl, hreg, hlog, hpre⟩
    · rw [if_neg hreg] at hlog; cases hlog
  · rintro ⟨pre, log, post, hl, hreg, hlog, hpre⟩
    exact ⟨pre, log, post, hl, by rw [if_pos hreg]; exact hlog, hpre⟩

/-- **Rule 2 records the first `OTSSubmitted` log, whatever root it carries.** A `Triggered`
batch, in a block whose first registry `OTSSubmitted` log names another root and which has no
`OTSConfirmed` log, leaves `applyTransitions` `Submitted` with that log's digest. -/
theorem applyTransitions_submits_any_root (te : TransitionEngine) (s : OTSState) (b : BatchState)
    (header : Header) (receipts : List Receipt) (sub : OTSSubmission)
    (hb : s.currentBatch = some b) (hs : b.status = BatchStatus.triggered)
    (hsub : extractOTSSubmission receipts = some sub) (_hroot : sub.rootHash ≠ b.rootHash)
    (hc : extractBTCConfirmation receipts = none) :
    te.applyTransitions s header receipts = some { s with
      currentBatch := some
        { b with otsDigest := sub.digest, submittedAt := header.number,
                 submittedBy := header.coinbase, status := BatchStatus.submitted } } := by
  rw [TransitionEngine.applyTransitions, ruleTrigger_of_triggered te header hb hs,
    Option.map_some', ruleSubmit_of_extract header hb hs hsub]
  simp [ruleConfirm, OTSState.statusIs, hc, ruleAnchor,
    show BatchStatus.submitted ≠ BatchStatus.confirmed by decide]

/-- A block whose only registry log is an `OTSSubmitted` event for root `0x00…01` marks the
`Triggered` batch of root zero submitted. -/
theorem submits_with_other_root :
    let te : TransitionEngine := ⟨fun _ _ => [], fun _ _ => none, fun _ => ByteVec.zero 32⟩
    let b : BatchState :=
      { startBlock := 1, endBlock := 1, status := BatchStatus.triggered, triggerBlock := 2 }
    let s : OTSState := { enabled := true, lastAnchoredBlock := 0, currentBatch := some b }
    let header : Header := ⟨3, ByteVec.zero 32, ByteVec.zero 32, 0, ByteVec.zero 20⟩
    let other : Hash := ⟨List.replicate 31 0 ++ [1], by simp⟩
    let receipts : List Receipt :=
      [⟨1, [⟨copyrightRegistryAddr, [otsSubmittedSig, other], List.replicate 32 7⟩]⟩]
    let sub : OTSSubmission := ⟨other, ⟨List.replicate 32 7, by simp⟩⟩
    s.currentBatch = some b ∧ b.status = BatchStatus.triggered ∧
      extractOTSSubmission receipts = some sub ∧ sub.rootHash ≠ b.rootHash ∧
      extractBTCConfirmation receipts = none ∧
      te.applyTransitions s header receipts = some { s with
        currentBatch := some
          { b with otsDigest := sub.digest, submittedAt := header.number,
                   submittedBy := header.coinbase, status := BatchStatus.submitted } } :=
  ⟨rfl, rfl, by decide, by decide, by decide,
    applyTransitions_submits_any_root _ _ _ _ _ _ rfl rfl (by decide) (by decide) (by decide)⟩

/-- `hasValidAnchorTx` holds exactly when a successful receipt has a registry log whose topics
start with the `Anchored` signature and the batch's root. -/
theorem hasValidAnchorTx_iff (receipts : List Receipt) (b : BatchState) :
    hasValidAnchorTx receipts b = true ↔
      ∃ r ∈ receipts, r.status = receiptStatusSuccessful ∧ ∃ log ∈ r.logs,
        log.address = copyrightRegistryAddr ∧ ∃ rest, log.topics = anchoredSig :: b.rootHash :: rest := by
  have hvalid : ∀ log : Log, isValidAnchorLog log b = true ↔
      ∃ rest, log.topics = anchoredSig :: b.rootHash :: rest := by
    intro log
    unfold isValidAnchorLog
    split <;> simp_all
  simp only [hasValidAnchorTx, scanRegistryLogs, List.findSome?_isSome_iff, List.mem_flatMap,
    List.mem_filter, beq_iff_eq]
  constructor
  · rintro ⟨log, ⟨r, ⟨hr, hs⟩, hlog⟩, hsome⟩
    by_cases hreg : log.address = copyrightRegistryAddr
    · rw [if_pos hreg] at hsome
      by_cases hv : isValidAnchorLog log b = true
      · exact ⟨r, hr, hs, log, hlog, hreg, (hvalid log).mp hv⟩
      · simp [hv] at hsome
    · simp [hreg] at hsome
  · rintro ⟨r, hr, hs, log, hlog, hreg, hv⟩
    exact ⟨log, ⟨r, ⟨hr, hs⟩, hlog⟩, by simp [hreg, (hvalid log).mpr hv]⟩

/-- **Rule 4 anchors only on the batch's own root.** If rule 4 changes the state, the batch was
`Confirmed` and a successful receipt carries a registry `Anchored` log whose root topic is the
batch's root. -/
theorem ruleAnchor_needs_root (s : OTSState) (header : Header) (receipts : List Receipt)
    (h : ruleAnchor s header receipts ≠ s) :
    ∃ b, s.currentBatch = some b ∧ b.status = BatchStatus.confirmed ∧
      ∃ r ∈ receipts, r.status = receiptStatusSuccessful ∧ ∃ log ∈ r.logs,
        log.address = copyrightRegistryAddr ∧ ∃ rest, log.topics = anchoredSig :: b.rootHash :: rest := by
  rcases ruleAnchor_spec s header receipts with he | ⟨b, hb, hs, ha, -, -⟩
  · exact absurd he h
  · exact ⟨b, hb, hs, (hasValidAnchorTx_iff receipts b).mp ha⟩

/-- A `Confirmed` batch of root zero is anchored by a registry `Anchored` log for root zero. -/
theorem anchors_on_own_root :
    let b : BatchState :=
      { startBlock := 1, endBlock := 1, status := BatchStatus.confirmed, triggerBlock := 2 }
    let s : OTSState := { enabled := true, lastAnchoredBlock := 0, currentBatch := some b }
    let header : Header := ⟨3, ByteVec.zero 32, ByteVec.zero 32, 0, ByteVec.zero 20⟩
    let receipts : List Receipt :=
      [⟨1, [⟨copyrightRegistryAddr, [anchoredSig, ByteVec.zero 32], []⟩]⟩]
    ruleAnchor s header receipts ≠ s ∧
      ∃ b, s.currentBatch = some b ∧ b.status = BatchStatus.confirmed ∧
        ∃ r ∈ receipts, r.status = receiptStatusSuccessful ∧ ∃ log ∈ r.logs,
          log.address = copyrightRegistryAddr ∧
          ∃ rest, log.topics = anchoredSig :: b.rootHash :: rest :=
  ⟨by decide, ruleAnchor_needs_root _ ⟨3, ByteVec.zero 32, ByteVec.zero 32, 0, ByteVec.zero 20⟩ _
    (by decide)⟩

end Ots

import OtsConsensus.State

/-!
# The batch lifecycle under the state methods

Any call of `Trigger`, `MarkSubmitted`, `MarkConfirmed` or `MarkAnchored`, with any arguments
and from any state: a failed call leaves the receiver as it was, and a successful one moves its
status along one edge of `CanTransitionTo`, keeps `Enabled`, keeps the identity of a batch it
marks (`BatchState.key`), and on anchoring records the batch's end block and drops the batch.
From `NewOTSState`, every sequence of calls therefore leaves either no batch or one in
`Triggered`, `Submitted` or `Confirmed` (`OTSState.Live`).
-/

namespace Ots

/-- One call of a state method, with its arguments. -/
inductive StateCall where
  | trigger (startBlock endBlock triggerBlock : UInt64) (triggerNode : Address) (rootHash : Hash)
  | markSubmitted (digest : ByteVec 32) (blockNumber : UInt64) (submitter : Address)
  | markConfirmed (btcBlockHeight : UInt64) (btcTxID : GoString) (btcTimestamp blockNumber : UInt64)
      (confirmer : Address)
  | markAnchored (blockNumber : UInt64) (anchorer : Address)

namespace StateCall

/-- Make the call on a receiver. -/
def run : StateCall → OTSState → OTSState × Option Error
  | trigger a b c n r, s => s.trigger a b c n r
  | markSubmitted d k w, s => s.markSubmitted d k w
  | markConfirmed h t ts k w, s => s.markConfirmed h t ts k w
  | markAnchored k w, s => s.markAnchored k w

/-- Make the calls in order, each on the receiver the previous one left. -/
def runAll (cs : List StateCall) (s : OTSState) : OTSState :=
  cs.foldl (fun s c => (c.run s).1) s

/-- What a successful call does to a batch beyond its status: the marks keep the batch's
identity and the anchored end block, anchoring records the end block and drops the batch. -/
def Effect : StateCall → OTSState → OTSState → Prop
  | trigger .., _, _ => True
  | markSubmitted .., s, s' | markConfirmed .., s, s' =>
    s'.lastAnchoredBlock = s.lastAnchoredBlock ∧
      ∃ b b', s.currentBatch = some b ∧ s'.currentBatch = some b' ∧ b'.key = b.key
  | markAnchored .., s, s' =>
    ∃ b, s.currentBatch = some b ∧ s'.lastAnchoredBlock = b.endBlock ∧ s'.currentBatch = none

end StateCall

/-- No batch, or a batch in `Triggered`, `Submitted` or `Confirmed`. -/
def OTSState.Live (s : OTSState) : Prop :=
  ∀ b, s.currentBatch = some b →
    b.status = BatchStatus.triggered ∨ b.status = BatchStatus.submitted ∨
      b.status = BatchStatus.confirmed

namespace StateCall

/-- A call that fails leaves the state as it was. -/
theorem run_of_error {c : StateCall} {s s' : OTSState} {e : Error} (h : c.run s = (s', some e)) :
    s' = s := by
  cases c
  · exact OTSState.trigger_of_error h
  all_goals exact OTSState.markWith_of_error h

/-- A successful call moves the status along `CanTransitionTo`, keeps `Enabled`, does what
`Effect` says, and leaves a live state. -/
theorem run_of_ok {c : StateCall} {s s' : OTSState} (h : c.run s = (s', none)) :
    s.statusOf.canTransitionTo s'.statusOf = true ∧ s'.enabled = s.enabled ∧ c.Effect s s' ∧
      s'.Live := by
  cases c with
  | trigger a b c n r =>
    obtain ⟨hcan, rfl⟩ := OTSState.trigger_of_ok h
    have hnone : s.statusOf = BatchStatus.none := by
      simp only [OTSState.canTrigger, Bool.and_eq_true, Bool.not_eq_true'] at hcan
      exact OTSState.hasActiveBatch_eq_false.mp hcan.2
    refine ⟨by rw [hnone]; rfl, rfl, trivial, ?_⟩
    intro b' hb'; cases hb'; exact .inl rfl
  | markSubmitted d k w =>
    obtain ⟨b, hb, hst, -, rfl⟩ := OTSState.markWith_of_ok h
    refine ⟨by simp [OTSState.statusOf, hb, hst]; rfl, rfl, ⟨rfl, b, _, hb, rfl, rfl⟩, ?_⟩
    intro b' hb'; cases hb'; exact .inr (.inl rfl)
  | markConfirmed h' t ts k w =>
    obtain ⟨b, hb, hst, -, rfl⟩ := OTSState.markWith_of_ok h
    refine ⟨by simp [OTSState.statusOf, hb, hst]; rfl, rfl, ⟨rfl, b, _, hb, rfl, rfl⟩, ?_⟩
    intro b' hb'; cases hb'; exact .inr (.inr rfl)
  | markAnchored k w =>
    obtain ⟨b, hb, hst, -, rfl⟩ := OTSState.markWith_of_ok h
    refine ⟨by simp [OTSState.statusOf, hb, hst]; rfl, rfl, ⟨b, hb, rfl, rfl⟩, ?_⟩
    intro b' hb'; cases hb'

/-- Every call keeps a state live. -/
theorem run_live (c : StateCall) {s : OTSState} (hs : s.Live) : (c.run s).1.Live := by
  match h : c.run s with
  | (s', none) => exact (run_of_ok h).2.2.2
  | (s', some e) => rw [run_of_error h]; exact hs

/-- Any sequence of calls from a live state ends live. -/
theorem runAll_live (cs : List StateCall) {s : OTSState} (hs : s.Live) : (runAll cs s).Live := by
  induction cs generalizing s with
  | nil => exact hs
  | cons c cs ih => exact ih (run_live c hs)

end StateCall

/-- **The state methods' contract.** For every state and every call with any arguments: an error
leaves the receiver unchanged; a success moves the status along `CanTransitionTo`, keeps
`Enabled` and does what `StateCall.Effect` says. Every sequence of calls from `NewOTSState e`
leaves no batch or a batch in `Triggered`, `Submitted` or `Confirmed`. -/
theorem stateCall_lifecycle :
    (∀ (c : StateCall) (s : OTSState),
      ((c.run s).2.isSome → (c.run s).1 = s) ∧
      ((c.run s).2 = none →
        s.statusOf.canTransitionTo (c.run s).1.statusOf = true ∧
          (c.run s).1.enabled = s.enabled ∧ c.Effect s (c.run s).1)) ∧
    ∀ (e : Bool) (cs : List StateCall), (StateCall.runAll cs (OTSState.new e)).Live :=
  ⟨fun c s => ⟨fun h => StateCall.run_of_error (Prod.ext rfl (Option.some_get h).symm),
      fun h => let ⟨h1, h2, h3, _⟩ := StateCall.run_of_ok (Prod.ext rfl h); ⟨h1, h2, h3⟩⟩,
    fun _ cs => StateCall.runAll_live cs (fun _ h => by cases h)⟩

end Ots

import OtsConsensus.SysTx

/-!
# System-transaction calldata: what is written, and what is read back

The two anchor encoders, `encodeCalldata` of `builder.go` and the calldata of `BuildAnchorTx` of
`ots_tx.go`, write the same 164 bytes, and both anchor decoders read the candidate's fields back
from them.

The decoders check less than the layout. The anchor decoders only ask for at least 164 bytes and
never look at the selector; `otsSubmitted` and `otsConfirmed` check their selector but also take
longer calldata; and every `uint64` is read from a whole 32-byte word modulo `2 ^ 64`. What each
decoder accepts is stated as an iff with a byte layout: a selector, the words, and any bytes
after them.
-/

namespace Ots

/-! ## Words of a calldata -/

section Words

variable {d : List UInt8} {i : Nat}

/-- A word of calldata long enough for it has 32 bytes. -/
theorem length_calldataWord (h : 4 + 32 * (i + 1) ≤ d.length) : (calldataWord d i).length = 32 := by
  simp only [calldataWord, List.length_take, List.length_drop]
  omega

/-- From word `i` on, a calldata is that word and what follows it. -/
theorem drop_calldataWord (d : List UInt8) (i : Nat) :
    d.drop (4 + 32 * i) = calldataWord d i ++ d.drop (4 + 32 * (i + 1)) := by
  have hdrop : d.drop (4 + 32 * (i + 1)) = (d.drop (4 + 32 * i)).drop 32 := by
    rw [List.drop_drop]; congr 1
  rw [hdrop, calldataWord, List.take_append_drop]

/-- From word `i` on, a calldata is its next `n` words and what follows them. -/
theorem drop_eq_words (d : List UInt8) :
    ∀ n i, d.drop (4 + 32 * i) = (List.range' i n).flatMap (calldataWord d) ++
      d.drop (4 + 32 * (i + n))
  | 0, i => by simp
  | n + 1, i => by
    rw [drop_calldataWord, drop_eq_words d n (i + 1), List.range'_succ, List.flatMap_cons,
      List.append_assoc, show i + 1 + n = i + (n + 1) by omega]

/-- A calldata is its selector, its first `n` words and what follows them. -/
theorem calldata_eq_words (d : List UInt8) (n : Nat) :
    d = d.take 4 ++ (List.range' 0 n).flatMap (calldataWord d) ++ d.drop (4 + 32 * n) := by
  have h := drop_eq_words d n 0
  rw [Nat.mul_zero, Nat.add_zero, Nat.zero_add] at h
  rw [List.append_assoc, ← h, List.take_append_drop]

end Words

/-- Copying 32 bytes into a `[32]byte` gives those bytes. -/
theorem copyBytes32_of_length {w : List UInt8} (h : w.length = 32) : (copyBytes32 w).bytes = w := by
  simp [copyBytes32, h]

/-- `common.BytesToHash` of 32 bytes gives those bytes. -/
theorem bytesToHash_of_length {w : List UInt8} (h : w.length = 32) : (bytesToHash w).bytes = w := by
  simp [bytesToHash, rightAlign, h]

/-- `matchSelector` of the first four bytes of a calldata is their equality with the selector. -/
theorem matchSelector_take (data : List UInt8) {sel : List UInt8} (hd : 4 ≤ data.length) (hs : sel.length = 4) :
    matchSelector (data.take 4) sel = true ↔ data.take 4 = sel := by
  have ht : (data.take 4).length = 4 := by simp; omega
  simp only [matchSelector, ht, hs, Nat.lt_irrefl, decide_False, Bool.or_false, Bool.false_eq_true,
    if_false, List.take_of_length_le (le_of_eq ht), List.take_of_length_le (le_of_eq hs),
    beq_iff_eq]

/-! ## The anchor encoders agree, and decode back -/

/-- **The anchor codec.** For every candidate, `encodeCalldata` and `BuildAnchorTx` write the same
164 bytes, and `DecodeCalldata` and `Validator.DecodeCalldata` read back its block range, root,
converted BTC txid and timestamp (`DecodeCalldata` leaves the BTC height zero). -/
theorem anchor_codec (b : Builder) (v : Validator) (c : CandidateBatch) (coinbase : Address)
    (nonce gasLimit : UInt64) :
    let data := Builder.encodeCalldata c.startBlock c.endBlock c.rootHash c.btcTxID c.btcTimestamp
    (b.buildAnchorTx c coinbase nonce gasLimit).data = data ∧ data.length = 164 ∧
      decodeCalldata data = .ok ⟨c.startBlock, c.endBlock, c.rootHash,
        btcTxIDToBytes32 c.btcTxID, 0, c.btcTimestamp⟩ ∧
      v.decodeCalldata data = .ok ⟨c.startBlock, c.endBlock, c.rootHash,
        btcTxIDToBytes32 c.btcTxID, c.btcTimestamp⟩ := by
  have hsel : anchorSig.length = 4 := rfl
  have hwords := decodeAnchorWords_anchorCalldata hsel c.startBlock c.endBlock c.rootHash
    (btcTxIDToBytes32 c.btcTxID) c.btcTimestamp
  refine ⟨rfl, by simp [Builder.encodeCalldata, anchorCalldata, hsel, ByteVec.length_bytes], ?_, ?_⟩ <;>
  simp only [decodeCalldata, Validator.decodeCalldata, Builder.encodeCalldata, hwords]

/-! ## What the decoders accept -/

/-- The words both anchor decoders read: the calldata is any selector, five words and any bytes
after them; the three `uint64`s are their words modulo `2 ^ 64`. -/
theorem decodeAnchorWords_eq_some {d : List UInt8} {s e ts : UInt64} {root tx : Hash} :
    decodeAnchorWords d = some (s, e, root, tx, ts) ↔
      ∃ sel w0 w1 w4 rest : List UInt8, sel.length = 4 ∧ w0.length = 32 ∧ w1.length = 32 ∧
        w4.length = 32 ∧ d = sel ++ w0 ++ w1 ++ root.bytes ++ tx.bytes ++ w4 ++ rest ∧
        bigUint64 w0 = s ∧ bigUint64 w1 = e ∧ bigUint64 w4 = ts := by
  constructor
  · intro h
    unfold decodeAnchorWords at h
    split_ifs at h with hlen
    simp only [Option.some.injEq, Prod.mk.injEq] at h
    obtain ⟨rfl, rfl, rfl, rfl, rfl⟩ := h
    have hl : 4 + 32 * 5 ≤ d.length := by omega
    refine ⟨d.take 4, calldataWord d 0, calldataWord d 1, calldataWord d 4, d.drop (4 + 32 * 5),
      by simp; omega, length_calldataWord (by omega), length_calldataWord (by omega),
      length_calldataWord (by omega), ?_, rfl, rfl, rfl⟩
    rw [copyBytes32_of_length (length_calldataWord (by omega)),
      copyBytes32_of_length (length_calldataWord (by omega))]
    have hd := calldata_eq_words d 5
    rw [show List.range' 0 5 = [0, 1, 2, 3, 4] from rfl] at hd
    simpa only [List.flatMap_cons, List.flatMap_nil, List.append_nil, List.append_assoc] using hd
  · rintro ⟨sel, w0, w1, w4, rest, hs, h0, h1, h4, rfl, rfl, rfl, rfl⟩
    have hr := root.length_bytes
    have ht := tx.length_bytes
    simp only [decodeAnchorWords, List.append_assoc, List.length_append, hs, h0, h1, h4, hr, ht,
      calldataWord_zero _ hs h0, calldataWord_succ _ _ hs h0, calldataWord_succ _ _ hs h1,
      calldataWord_succ _ _ hs hr, calldataWord_succ _ _ hs ht, calldataWord_zero _ hs h1,
      calldataWord_zero _ hs hr, calldataWord_zero _ hs ht, calldataWord_zero _ hs h4,
      copyBytes32_bytes]
    rw [if_neg (by omega)]

/-- What `DecodeCalldata` returns: the five anchor words, with no BTC height. -/
theorem decodeCalldata_eq_ok {d : List UInt8} {r : DecodedAnchorCalldata} :
    decodeCalldata d = .ok r ↔ r.btcBlockHeight = 0 ∧
      decodeAnchorWords d = some (r.startBlock, r.endBlock, r.rootHash, r.btcTxHash, r.btcTimestamp) := by
  unfold decodeCalldata
  rcases decodeAnchorWords d with _ | ⟨s, e, root, tx, ts⟩
  · simp
  · obtain ⟨s', e', root', tx', bh, ts'⟩ := r
    simp only [Except.ok.injEq, DecodedAnchorCalldata.mk.injEq, Option.some.injEq, Prod.mk.injEq]
    constructor <;> rintro ⟨rfl, rfl, rfl, rfl, rfl, rfl⟩ <;> exact ⟨rfl, rfl, rfl, rfl, rfl, rfl⟩

/-- What `Validator.DecodeCalldata` returns: the five anchor words. -/
theorem Validator.decodeCalldata_eq_ok (v : Validator) {d : List UInt8} {r : DecodedCalldata} :
    v.decodeCalldata d = .ok r ↔
      decodeAnchorWords d = some (r.startBlock, r.endBlock, r.batchRoot, r.btcTxHash, r.btcTimestamp) := by
  unfold Validator.decodeCalldata
  rcases decodeAnchorWords d with _ | ⟨s, e, root, tx, ts⟩
  · simp
  · obtain ⟨s', e', root', tx', ts'⟩ := r
    simp only [Except.ok.injEq, DecodedCalldata.mk.injEq, Option.some.injEq, Prod.mk.injEq]

/-- What `DecodeOTSSubmittedTx` accepts: its selector, the root, the digest, and any bytes after
them. -/
theorem decodeOTSSubmittedTx_eq_ok {tx : Transaction} {p : OTSSubmittedParams} :
    decodeOTSSubmittedTx tx = .ok p ↔
      ∃ rest, tx.data = otsSubmittedSelector ++ p.rootHash.bytes ++ p.otsDigest.bytes ++ rest := by
  have hs : otsSubmittedSelector.length = 4 := rfl
  constructor
  · intro h
    unfold decodeOTSSubmittedTx at h
    dsimp only at h
    split_ifs at h with hlen hsel
    cases h
    replace hsel := (matchSelector_take tx.data (by omega) hs).mp (by simpa using hsel)
    refine ⟨tx.data.drop (4 + 32 * 2), ?_⟩
    rw [copyBytes32_of_length (length_calldataWord (by omega)),
      copyBytes32_of_length (length_calldataWord (by omega)), ← hsel]
    have hd := calldata_eq_words tx.data 2
    rw [show List.range' 0 2 = [0, 1] from rfl] at hd
    simpa only [List.flatMap_cons, List.flatMap_nil, List.append_nil, List.append_assoc] using hd
  · rintro ⟨rest, hd⟩
    have hr := p.rootHash.length_bytes
    have hg := p.otsDigest.length_bytes
    unfold decodeOTSSubmittedTx
    simp only [hd, List.append_assoc, List.length_append, hs, hr, hg, List.take_left' hs,
      calldataWord_zero _ hs hr, calldataWord_succ _ _ hs hr, calldataWord_zero _ hs hg,
      copyBytes32_bytes]
    rw [if_neg (by omega), if_neg (by simp [matchSelector, hs])]

/-- What `DecodeOTSConfirmedTx` accepts: its selector, the root, a height word, the txid, a
timestamp word, and any bytes after them; each `uint64` is its word modulo `2 ^ 64`. -/
theorem decodeOTSConfirmedTx_eq_ok {tx : Transaction} {p : OTSConfirmedParams} :
    decodeOTSConfirmedTx tx = .ok p ↔
      ∃ w1 w3 rest : List UInt8, w1.length = 32 ∧ w3.length = 32 ∧
        tx.data = otsConfirmedSelector ++ p.rootHash.bytes ++ w1 ++ p.btcTxID.bytes ++ w3 ++ rest ∧
        bigUint64 w1 = p.btcBlockHeight ∧ bigUint64 w3 = p.btcTimestamp := by
  have hs : otsConfirmedSelector.length = 4 := rfl
  have hword : ∀ w : List UInt8, w.length = 32 → wordUint64 w = bigUint64 w := fun w hw => by
    rw [wordUint64, bytesToHash_of_length hw, bigUint64]
  constructor
  · intro h
    unfold decodeOTSConfirmedTx at h
    dsimp only at h
    split_ifs at h with hlen hsel
    cases h
    replace hsel := (matchSelector_take tx.data (by omega) hs).mp (by simpa using hsel)
    refine ⟨calldataWord tx.data 1, calldataWord tx.data 3, tx.data.drop (4 + 32 * 4),
      length_calldataWord (by omega), length_calldataWord (by omega), ?_,
      (hword _ (length_calldataWord (by omega))).symm,
      (hword _ (length_calldataWord (by omega))).symm⟩
    rw [copyBytes32_of_length (length_calldataWord (by omega)),
      copyBytes32_of_length (length_calldataWord (by omega)), ← hsel]
    have hd := calldata_eq_words tx.data 4
    rw [show List.range' 0 4 = [0, 1, 2, 3] from rfl] at hd
    simpa only [List.flatMap_cons, List.flatMap_nil, List.append_nil, List.append_assoc] using hd
  · obtain ⟨root, height, txid, ts⟩ := p
    rintro ⟨w1, w3, rest, h1, h3, hd, rfl, rfl⟩
    have hr := root.length_bytes
    have ht := txid.length_bytes
    unfold decodeOTSConfirmedTx
    simp only [hd, List.append_assoc, List.length_append, hs, hr, h1, ht, h3, List.take_left' hs,
      calldataWord_zero _ hs hr, calldataWord_succ _ _ hs hr, calldataWord_succ _ _ hs h1,
      calldataWord_succ _ _ hs ht, calldataWord_zero _ hs h1, calldataWord_zero _ hs ht,
      calldataWord_zero _ hs h3, copyBytes32_bytes, hword _ h1, hword _ h3]
    rw [if_neg (by omega), if_neg (by simp [matchSelector, hs])]

/-- **What each decoder accepts.** `DecodeCalldata` and `Validator.DecodeCalldata` return a value
exactly on a calldata made of any 4-byte selector, the five words of the value (a `uint64` being
any word equal to it modulo `2 ^ 64`) and any bytes after them; `DecodeOTSSubmittedTx` exactly on
its selector, the root, the digest and any bytes after them; `DecodeOTSConfirmedTx` exactly on its
selector, the four words (each `uint64` modulo `2 ^ 64`) and any bytes after them. -/
theorem decoders_accept (v : Validator) (d : List UInt8) (tx : Transaction) :
    (∀ r : DecodedAnchorCalldata, decodeCalldata d = .ok r ↔ r.btcBlockHeight = 0 ∧
      ∃ sel w0 w1 w4 rest : List UInt8, sel.length = 4 ∧ w0.length = 32 ∧ w1.length = 32 ∧
        w4.length = 32 ∧ d = sel ++ w0 ++ w1 ++ r.rootHash.bytes ++ r.btcTxHash.bytes ++ w4 ++ rest ∧
        bigUint64 w0 = r.startBlock ∧ bigUint64 w1 = r.endBlock ∧ bigUint64 w4 = r.btcTimestamp) ∧
    (∀ r : DecodedCalldata, v.decodeCalldata d = .ok r ↔
      ∃ sel w0 w1 w4 rest : List UInt8, sel.length = 4 ∧ w0.length = 32 ∧ w1.length = 32 ∧
        w4.length = 32 ∧ d = sel ++ w0 ++ w1 ++ r.batchRoot.bytes ++ r.btcTxHash.bytes ++ w4 ++ rest ∧
        bigUint64 w0 = r.startBlock ∧ bigUint64 w1 = r.endBlock ∧ bigUint64 w4 = r.btcTimestamp) ∧
    (∀ p : OTSSubmittedParams, decodeOTSSubmittedTx tx = .ok p ↔
      ∃ rest, tx.data = otsSubmittedSelector ++ p.rootHash.bytes ++ p.otsDigest.bytes ++ rest) ∧
    (∀ p : OTSConfirmedParams, decodeOTSConfirmedTx tx = .ok p ↔
      ∃ w1 w3 rest : List UInt8, w1.length = 32 ∧ w3.length = 32 ∧
        tx.data = otsConfirmedSelector ++ p.rootHash.bytes ++ w1 ++ p.btcTxID.bytes ++ w3 ++ rest ∧
        bigUint64 w1 = p.btcBlockHeight ∧ bigUint64 w3 = p.btcTimestamp) :=
  ⟨fun _ => decodeCalldata_eq_ok.trans (and_congr_right fun _ => decodeAnchorWords_eq_some),
    fun _ => (v.decodeCalldata_eq_ok).trans decodeAnchorWords_eq_some,
    fun _ => decodeOTSSubmittedTx_eq_ok, fun _ => decodeOTSConfirmedTx_eq_ok⟩

/-- The anchor calldata of a candidate and the same calldata with one more byte are different and
decode to the same parameters. -/
theorem anchor_calldata_with_extra_byte :
    let v : Validator := ⟨ByteVec.zero 20⟩
    let r : DecodedCalldata := ⟨1, 2, ByteVec.zero 32, ByteVec.zero 32, 3⟩
    let d := anchorCalldata anchorSig 1 2 (ByteVec.zero 32) (ByteVec.zero 32) 3
    d ++ [0] ≠ d ∧ v.decodeCalldata d = .ok r ∧ v.decodeCalldata (d ++ [0]) = .ok r := by
  intro v r d
  let tx : Transaction := ⟨0, none, 0, 0, 0, []⟩
  have hw : ∀ n : UInt64, (uint64Word n).length = 32 := length_uint64Word
  refine ⟨by simp, ((decoders_accept v d tx).2.1 r).mpr ⟨anchorSig, uint64Word 1, uint64Word 2,
    uint64Word 3, [], rfl, hw 1, hw 2, hw 3, by simp [d, anchorCalldata], bigUint64_uint64Word 1,
    bigUint64_uint64Word 2, bigUint64_uint64Word 3⟩,
    ((decoders_accept v (d ++ [0]) tx).2.1 r).mpr ⟨anchorSig, uint64Word 1, uint64Word 2,
    uint64Word 3, [0], rfl, hw 1, hw 2, hw 3, by simp [d, anchorCalldata], bigUint64_uint64Word 1,
    bigUint64_uint64Word 2, bigUint64_uint64Word 3⟩⟩

/-! ## The builders against the validators -/

section Validators

variable {tx : Transaction} {sel rest : List UInt8}

/-- A selector test of calldata that starts with a 4-byte selector compares the two selectors. -/
theorem hasSelector_append (h : tx.data = sel ++ rest) (hs : sel.length = 4) (sel' : List UInt8)
    (hs' : sel'.length = 4) : hasSelector sel' tx = (sel == sel') := by
  have hlen : ¬(sel ++ rest).length < 4 := by rw [List.length_append, hs]; omega
  rw [hasSelector, h, if_neg hlen, matchSelector, List.take_left' hs, if_neg (by simp [hs, hs']),
    List.take_of_length_le (le_of_eq hs), List.take_of_length_le (le_of_eq hs')]

/-- The package validator of an OTS call, on a transaction with gas price zero to the contract:
the selector test, then the length. -/
theorem validateOTSCall_of_system {a : Address} (hg : tx.gasPrice = 0) (ht : tx.toAddress = some a)
    (isCall : Transaction → Bool) (minLength : Nat) :
    validateOTSCall isCall minLength tx a =
      if isCall tx = true ∧ minLength ≤ tx.data.length then none else some .invalidOTSTx := by
  simp only [validateOTSCall, validateSystemTx, hg, ht, ne_eq, not_true_eq_false, if_false]
  cases isCall tx
  · simp
  · simp only [Bool.not_true, Bool.false_eq_true, if_false, true_and]
    split_ifs <;> first | rfl | omega

/-- `Validator.ValidateSystemTx` on a transaction with gas price zero to its contract: the
`anchor` selector. -/
theorem Validator.validateSystemTx_of_system (v : Validator) (hg : tx.gasPrice = 0)
    (ht : tx.toAddress = some v.contractAddress) (h : tx.data = sel ++ rest) (hs : sel.length = 4)
    (coinbase : Address) :
    v.validateSystemTx tx coinbase = if sel = anchorSig then none else some .invalidCalldata := by
  have hlen : ¬(sel ++ rest).length < 4 := by rw [List.length_append, hs]; omega
  simp only [Validator.validateSystemTx, hg, ht, h, ne_eq, not_true_eq_false, if_false, hlen,
    List.take_left' hs]
  split_ifs <;> simp_all

end Validators

/-- **Each validator accepts the builders' transactions of its own call, and no other.** For a
builder and a validator of one contract address and all parameters: `ValidateOTSSubmittedTx`
accepts the built `otsSubmitted` call and rejects the built `otsConfirmed` and `anchor` calls with
`ErrInvalidOTSTx`; `ValidateOTSConfirmedTx` accepts the `otsConfirmed` call and rejects the other
two; `BuildSystemTx` builds the `anchor` call, which `Validator.ValidateSystemTx` accepts, while it
rejects the `otsSubmitted` and `otsConfirmed` calls with `ErrInvalidCalldata`. -/
theorem validators_accept_own_calls (b : Builder) (v : Validator)
    (hv : v.contractAddress = b.contractAddress) (ps : OTSSubmittedParams)
    (pc : OTSConfirmedParams) (c : CandidateBatch) (coinbase : Address) (nonce gasLimit : UInt64) :
    let sub := b.buildOTSSubmittedTx ps coinbase nonce gasLimit
    let conf := b.buildOTSConfirmedTx pc coinbase nonce gasLimit
    let anc := b.buildAnchorTx c coinbase nonce gasLimit
    (validateOTSSubmittedTx sub b.contractAddress = none ∧
      validateOTSSubmittedTx conf b.contractAddress = some .invalidOTSTx ∧
      validateOTSSubmittedTx anc b.contractAddress = some .invalidOTSTx) ∧
    (validateOTSConfirmedTx conf b.contractAddress = none ∧
      validateOTSConfirmedTx sub b.contractAddress = some .invalidOTSTx ∧
      validateOTSConfirmedTx anc b.contractAddress = some .invalidOTSTx) ∧
    (b.buildSystemTx (some c) coinbase nonce gasLimit = .ok anc ∧
      v.validateSystemTx anc coinbase = none ∧
      v.validateSystemTx sub coinbase = some .invalidCalldata ∧
      v.validateSystemTx conf coinbase = some .invalidCalldata) := by
  intro sub conf anc
  have hsub : sub.data = otsSubmittedSelector ++ (ps.rootHash.bytes ++ ps.otsDigest.bytes) := by
    simp [sub, Builder.buildOTSSubmittedTx, Builder.systemTx, newTransaction]
  have hconf : conf.data = otsConfirmedSelector ++ (pc.rootHash.bytes ++ int64Word pc.btcBlockHeight ++
      pc.btcTxID.bytes ++ int64Word pc.btcTimestamp) := by
    simp [conf, Builder.buildOTSConfirmedTx, Builder.systemTx, newTransaction]
  have hanc : anc.data = anchorSig ++ (uint64Word c.startBlock ++ uint64Word c.endBlock ++
      c.rootHash.bytes ++ (btcTxIDToBytes32 c.btcTxID).bytes ++ uint64Word c.btcTimestamp) := by
    simp [anc, Builder.buildAnchorTx, Builder.systemTx, newTransaction, anchorCalldata,
      btcTxIDToBytes32Local, btcTxIDToBytes32, anchorSelector, anchorSig]
  have hv' : ∀ t : Transaction, t.toAddress = some b.contractAddress →
      t.toAddress = some v.contractAddress := fun _ h => hv ▸ h
  refine ⟨⟨?_, ?_, ?_⟩, ⟨?_, ?_, ?_⟩, rfl, ?_, ?_, ?_⟩
  · rw [validateOTSSubmittedTx, validateOTSCall_of_system rfl rfl, isOTSSubmittedTx,
      hasSelector_append hsub rfl otsSubmittedSelector rfl,
      if_pos ⟨by decide, by simp [hsub, otsSubmittedSelector, ByteVec.length_bytes]⟩]
  · rw [validateOTSSubmittedTx, validateOTSCall_of_system rfl rfl, isOTSSubmittedTx,
      hasSelector_append hconf rfl otsSubmittedSelector rfl, if_neg fun h => absurd h.1 (by decide)]
  · rw [validateOTSSubmittedTx, validateOTSCall_of_system rfl rfl, isOTSSubmittedTx,
      hasSelector_append hanc rfl otsSubmittedSelector rfl, if_neg fun h => absurd h.1 (by decide)]
  · rw [validateOTSConfirmedTx, validateOTSCall_of_system rfl rfl, isOTSConfirmedTx,
      hasSelector_append hconf rfl otsConfirmedSelector rfl,
      if_pos ⟨by decide, by simp [hconf, otsConfirmedSelector, ByteVec.length_bytes]⟩]
  · rw [validateOTSConfirmedTx, validateOTSCall_of_system rfl rfl, isOTSConfirmedTx,
      hasSelector_append hsub rfl otsConfirmedSelector rfl, if_neg fun h => absurd h.1 (by decide)]
  · rw [validateOTSConfirmedTx, validateOTSCall_of_system rfl rfl, isOTSConfirmedTx,
      hasSelector_append hanc rfl otsConfirmedSelector rfl, if_neg fun h => absurd h.1 (by decide)]
  · rw [v.validateSystemTx_of_system rfl (hv' anc rfl) hanc rfl, if_pos rfl]
  · rw [v.validateSystemTx_of_system rfl (hv' sub rfl) hsub rfl, if_neg (by decide)]
  · rw [v.validateSystemTx_of_system rfl (hv' conf rfl) hconf rfl, if_neg (by decide)]

/-- At the registry's address, the package validator accepts the built `otsSubmitted` call of
a zero root and digest, and `Validator.ValidateSystemTx` rejects it. -/
theorem registry_submission_validators :
    let b : Builder := ⟨copyrightRegistryAddr⟩
    let v : Validator := ⟨copyrightRegistryAddr⟩
    let sub := b.buildOTSSubmittedTx ⟨ByteVec.zero 32, ByteVec.zero 32⟩ (ByteVec.zero 20) 0 0
    v.contractAddress = b.contractAddress ∧ validateOTSSubmittedTx sub b.contractAddress = none ∧
      v.validateSystemTx sub (ByteVec.zero 20) = some .invalidCalldata := by
  intro b v sub
  have h := validators_accept_own_calls b v rfl ⟨ByteVec.zero 32, ByteVec.zero 32⟩
    ⟨ByteVec.zero 32, 0, ByteVec.zero 32, 0⟩ ⟨ByteVec.zero 32, 0, 0, [], 0, [], 0⟩
    (ByteVec.zero 20) 0 0
  exact ⟨rfl, h.1.1, h.2.2.2.2.1⟩

end Ots

import OtsConsensus.Manager

/-!
# Bitcoin txids: hex text and the 32 bytes the calls carry

A Bitcoin txid is text, and it reaches the system transactions twice.

The anchor encoders convert it with `btcTxIDToBytes32` (and the same body,
`btcTxIDToBytes32Local`): `common.HexToHash` of the text without its `0x`. The 64 hex digits of 32
bytes give those bytes back, with or without `0x`. Other text does not give the zero hash the doc
comment promises: `common.FromHex` decodes the digit pairs before the first character that is not
a digit, and `BytesToHash` keeps the last 32 bytes, so the hex of any bytes followed by anything
that does not start with a digit gives those bytes, right-aligned.

`tryBuildOTSConfirmedTx` does not decode the txid: it copies the bytes of the text into the
32-byte field, so for a txid written as the hex of 32 bytes the `otsConfirmed` call carries the
ASCII codes of the digits of their first 16.
-/

namespace Ots

/-! ## Decoding hex text -/

/-- A hex digit is neither `x` nor `X`, so hex text never starts a `0x` prefix after a `0`. -/
theorem hexDigit_ne_x {n : Nat} (h : n < 16) : hexDigit n ≠ 120 ∧ hexDigit n ≠ 88 := by
  have hv : (hexDigit n).toNat = if n < 10 then 48 + n else 87 + n := by
    unfold hexDigit; split_ifs <;> simp only [toNat_uint8_ofNat] <;> omega
  refine ⟨fun e => ?_, fun e => ?_⟩
  · have h : (hexDigit n).toNat = 120 := congrArg UInt8.toNat e
    rw [hv] at h; split_ifs at h <;> omega
  · have h : (hexDigit n).toNat = 88 := congrArg UInt8.toNat e
    rw [hv] at h; split_ifs at h <;> omega

/-- The hex of some bytes, followed by anything, decodes to those bytes and then what follows. -/
theorem hexDecodePrefix_hexEncode (b rest : List UInt8) :
    hexDecodePrefix (hexEncode b ++ rest) = b ++ hexDecodePrefix rest := by
  induction b with
  | nil => rfl
  | cons x b ih =>
    have hx := u8_toNat_lt x
    have e : hexEncode (x :: b) ++ rest =
        hexDigit (x.toNat / 16) :: hexDigit (x.toNat % 16) :: (hexEncode b ++ rest) := by
      simp [hexEncode]
    rw [e, hexDecodePrefix, hexValue_hexDigit (by omega), hexValue_hexDigit (by omega), ih]
    exact congrArg (· :: _) (UInt8.toNat.inj (by rw [toNat_uint8_ofNat]; omega))

/-- Decoding stops at a character that is not a hex digit. -/
theorem hexDecodePrefix_of_not_digit {c : UInt8} (hc : hexValue c = none) (rest : List UInt8) :
    hexDecodePrefix (c :: rest) = [] := by
  cases rest with
  | nil => rfl
  | cons d rest => simp [hexDecodePrefix, hc]

/-- `common.FromHex` of text of even length whose second character is not `x` or `X`: no prefix
to drop, no digit to add. -/
theorem fromHex_of_not_x {d1 d2 : UInt8} (rest : List UInt8) (h : d2 ≠ 120 ∧ d2 ≠ 88)
    (he : rest.length % 2 = 0) : fromHex (d1 :: d2 :: rest) = hexDecodePrefix (d1 :: d2 :: rest) := by
  simp [fromHex, h.1, h.2]
  rw [if_neg (by omega)]

/-- The hex of bytes, then text of even length not starting with a digit: `common.HexToHash`
decodes the bytes, and `BytesToHash` keeps their last 32. -/
theorem hexToHash_hexEncode {b rest : List UInt8} (hb : b ≠ []) (he : rest.length % 2 = 0)
    (hr : ∀ c ∈ rest.head?, hexValue c = none) : hexToHash (hexEncode b ++ rest) = bytesToHash b := by
  obtain ⟨x, b, rfl⟩ := List.exists_cons_of_ne_nil hb
  have hx := u8_toNat_lt x
  have hrest : hexDecodePrefix rest = [] := by
    cases rest with
    | nil => rfl
    | cons c rest => exact hexDecodePrefix_of_not_digit (hr c rfl) rest
  have e : hexEncode (x :: b) ++ rest =
      hexDigit (x.toNat / 16) :: hexDigit (x.toNat % 16) :: (hexEncode b ++ rest) := by
    simp [hexEncode]
  rw [hexToHash, e, fromHex_of_not_x _ (hexDigit_ne_x (by omega))
    (by rw [List.length_append, length_hexEncode]; omega), ← e, hexDecodePrefix_hexEncode, hrest,
    List.append_nil]

/-- The conversion of the anchor encoders on the hex of non-empty bytes followed by text of even
length that does not start with a hex digit, with or without `0x`: the bytes, their last 32
right-aligned. -/
theorem txIDToHash_hexEncode {b rest : List UInt8} (hb : b ≠ []) (he : rest.length % 2 = 0)
    (hr : ∀ c ∈ rest.head?, hexValue c = none) :
    txIDToHash (hexEncode b ++ rest) = bytesToHash b ∧
      txIDToHash (ascii "0x" ++ hexEncode b ++ rest) = bytesToHash b := by
  obtain ⟨x, b', rfl⟩ := List.exists_cons_of_ne_nil hb
  have hx := u8_toNat_lt x
  have hne : hexEncode (x :: b') ++ rest ≠ [] := by simp [hexEncode]
  have hx2 : hexDigit (x.toNat % 16) ≠ 120 ∧ hexDigit (x.toNat % 16) ≠ 88 :=
    hexDigit_ne_x (by omega)
  have h0x : ¬(2 ≤ (hexEncode (x :: b') ++ rest).length ∧
      (hexEncode (x :: b') ++ rest).take 2 = ascii "0x") := by
    simp only [hexEncode, List.flatMap_cons, List.cons_append, List.nil_append]
    rintro ⟨-, h⟩
    exact hx2.1 (List.cons.inj (List.cons.inj h).2).1
  refine ⟨?_, ?_⟩
  · rw [txIDToHash, if_neg hne, if_neg h0x, hexToHash_hexEncode hb he hr]
  · rw [txIDToHash, if_neg (by simp [ascii]), if_pos ⟨by simp [ascii], by simp [ascii]⟩,
      List.append_assoc, List.drop_left' (show (ascii "0x").length = 2 from rfl),
      hexToHash_hexEncode hb he hr]

/-- The hex of 32 bytes converts back to them, with or without `0x`. -/
theorem txIDToHash_hex (x : Hash) :
    txIDToHash (hexEncode x.bytes) = x ∧ txIDToHash (ascii "0x" ++ hexEncode x.bytes) = x := by
  have hb : x.bytes ≠ [] := fun h => by simpa [h] using x.length_bytes
  have := @txIDToHash_hexEncode x.bytes [] hb rfl (by simp)
  rwa [List.append_nil, List.append_nil, bytesToHash_bytes] at this

/-- **What `btcTxIDToBytes32` makes of a txid.** The empty text and a lone `0x` give the zero
hash; the hex of 32 bytes gives them back, with or without `0x`; and the hex of any non-empty
bytes followed by text of even length that does not start with a hex digit gives those bytes,
their last 32 right-aligned, with or without `0x`. `btcTxIDToBytes32Local` is the same function. -/
theorem btcTxIDToBytes32_spec :
    btcTxIDToBytes32Local = btcTxIDToBytes32 ∧
    btcTxIDToBytes32 [] = ByteVec.zero 32 ∧ btcTxIDToBytes32 (ascii "0x") = ByteVec.zero 32 ∧
    (∀ x : Hash, btcTxIDToBytes32 (hexEncode x.bytes) = x ∧
      btcTxIDToBytes32 (ascii "0x" ++ hexEncode x.bytes) = x) ∧
    ∀ b rest : List UInt8, b ≠ [] → rest.length % 2 = 0 → (∀ c ∈ rest.head?, hexValue c = none) →
      btcTxIDToBytes32 (hexEncode b ++ rest) = bytesToHash b ∧
      btcTxIDToBytes32 (ascii "0x" ++ hexEncode b ++ rest) = bytesToHash b :=
  ⟨rfl, rfl, rfl, txIDToHash_hex, fun _ _ hb he hr => txIDToHash_hexEncode hb he hr⟩

/-- The txid `12gg`, valid hex followed by two other characters, gives the hash of the byte
`0x12`, which is not the zero hash. -/
theorem txid_with_valid_prefix :
    btcTxIDToBytes32 (ascii "12gg") = bytesToHash [0x12] ∧ bytesToHash [0x12] ≠ ByteVec.zero 32 := by
  have h := (btcTxIDToBytes32_spec.2.2.2.2 [0x12] (ascii "gg") (by simp) rfl (by decide)).1
  exact ⟨h, by decide⟩

/-! ## The txid of `otsConfirmed` -/

/-- The first `2 k` hex digits of some bytes are the hex of their first `k`. -/
theorem take_hexEncode (b : List UInt8) : ∀ k, (hexEncode b).take (2 * k) = hexEncode (b.take k) := by
  induction b with
  | nil => intro k; simp [hexEncode]
  | cons x b ih =>
    intro k
    cases k with
    | zero => simp [hexEncode]
    | succ k =>
      have e : 2 * (k + 1) = 2 * k + 1 + 1 := by omega
      simp only [hexEncode, List.flatMap_cons, List.take_succ_cons, e, List.cons_append,
        List.nil_append] at ih ⊢
      rw [ih k]

/-- **The `otsConfirmed` call copies the txid's text.** When `tryBuildOTSConfirmedTx` builds a
transaction from the client's confirmation of the batch's digest, the txid word of its calldata is
the text of the txid copied into 32 bytes; for a txid written as the hex of 32 bytes, that is the
hex of their first 16, while the anchor encoders' conversion gives the 32 bytes. -/
theorem confirmedTx_txid {m : OTSConsensusManager} {client : OTSClient} {st : OTSState}
    {coinbase : Address} {nonce : UInt64} {b : BatchState} {result : BTCConfirmationResult}
    {tx : Transaction} (hb : st.currentBatch = some b)
    (hc : client.checkConfirmation b.otsDigest = .ok (some result))
    (ht : m.tryBuildOTSConfirmedTx client st coinbase nonce = some (.ok (some tx))) :
    calldataWord tx.data 2 = (copyBytes32 result.btcTxID).bytes ∧
      ∀ x : Hash, result.btcTxID = hexEncode x.bytes →
        calldataWord tx.data 2 = hexEncode (x.bytes.take 16) ∧
          btcTxIDToBytes32Local result.btcTxID = x := by
  have hs : otsConfirmedSelector.length = 4 := rfl
  obtain ⟨-, r, hr, -, rfl⟩ := m.tryBuildOTSConfirmedTx_eq_some hb ht
  obtain rfl : result = r := Option.some.inj (Except.ok.inj (hc.symm.trans hr))
  have hword : calldataWord (m.txBuilder.buildOTSConfirmedTx ⟨b.rootHash, result.btcBlockHeight,
      copyBytes32 result.btcTxID, result.btcTimestamp⟩ coinbase nonce m.systemTxGasLimit).data 2 =
      (copyBytes32 result.btcTxID).bytes := by
    simp only [Builder.buildOTSConfirmedTx, Builder.systemTx, newTransaction, List.append_assoc,
      calldataWord_succ _ _ hs (ByteVec.length_bytes _), calldataWord_succ _ _ hs (length_int64Word _),
      calldataWord_zero _ hs (ByteVec.length_bytes _)]
  refine ⟨hword, fun x hx => ⟨?_, hx ▸ (txIDToHash_hex x).1⟩⟩
  rw [hword, hx]
  have htake : (hexEncode x.bytes).take 32 = hexEncode (x.bytes.take 16) := take_hexEncode _ 16
  simp only [copyBytes32, htake, length_hexEncode, List.length_take, x.length_bytes]
  simp

/-- A client confirming with the txid `00…0` (64 zero digits), the hex of the zero hash: the
`otsConfirmed` call carries 32 bytes `0x30`, while the anchor encoders convert the txid to the
zero hash. -/
theorem confirmed_txid_of_zero_hash :
    let client : OTSClient := ⟨fun _ => .ok ([], ByteVec.zero 32),
      fun _ => .ok (some ⟨true, 0, hexEncode (ByteVec.zero 32).bytes, 0⟩)⟩
    let st : OTSState := ⟨true, 0, some { status := BatchStatus.submitted }⟩
    let m := OTSConsensusManager.new (fun _ => none) true (ByteVec.zero 20) 0
    let tx := m.txBuilder.buildOTSConfirmedTx
      ⟨ByteVec.zero 32, 0, copyBytes32 (hexEncode (ByteVec.zero 32).bytes), 0⟩ (ByteVec.zero 20) 0 0
    m.tryBuildOTSConfirmedTx client st (ByteVec.zero 20) 0 = some (.ok (some tx)) ∧
      calldataWord tx.data 2 = List.replicate 32 0x30 ∧
      btcTxIDToBytes32Local (hexEncode (ByteVec.zero 32).bytes) = ByteVec.zero 32 := by
  intro client st m tx
  have ht : m.tryBuildOTSConfirmedTx client st (ByteVec.zero 20) 0 = some (.ok (some tx)) := rfl
  obtain ⟨-, hx⟩ := confirmedTx_txid rfl rfl ht
  obtain ⟨hword, hconv⟩ := hx (ByteVec.zero 32) rfl
  exact ⟨ht, hword.trans (by decide), hconv⟩

end Ots

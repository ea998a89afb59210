import OtsConsensus.Bytes

/-!
# The host chain: headers, receipts, transactions, and the module's constants

The parts of go-ethereum's `types.Header`, `types.Receipt`, `types.Log` and `types.Transaction`
that the module reads, the registry address, the event topics and the function selectors.

The topics and selectors are `crypto.Keccak256` of fixed signature strings, computed once at
package initialisation; they are written here as the byte values those calls produce.

The last section models Go's `for n := start; n <= stop; n++` over `uint64`, which the engine and
the manager use to walk block ranges. The counter wraps, so a loop whose bound is `2 ^ 64 - 1`
never stops; `forUpTo` counts the tests of the loop condition, and `loopFuel` is enough for any
loop that stops. Below the largest bound a loop is its body run at `start, …, stop` in order
(`forUpTo_loopFuel`, with `bodyRun` the run over a list of counter values); with the largest
bound it runs out of every amount of fuel unless its body leaves the function (`forUpTo_max`).
-/

namespace Ots

/-- The fields of `types.Header` the module reads; `hash` is `header.Hash()` and `number` is
`header.Number.Uint64()`. -/
structure Header where
  number : UInt64
  hash : Hash
  parentHash : Hash
  time : UInt64
  coinbase : Address

/-- `types.Log`: the emitting contract, the indexed topics and the data. -/
structure Log where
  address : Address
  topics : List Hash
  data : List UInt8

/-- `types.Receipt`: its status and its logs. -/
structure Receipt where
  status : UInt64
  logs : List Log

/-- `types.ReceiptStatusSuccessful`. -/
def receiptStatusSuccessful : UInt64 := 1

/-- A legacy `types.Transaction` as `types.NewTransaction(nonce, to, value, gas, gasPrice, data)`
builds it; `toAddress` is `tx.To()`, `none` for a contract creation. -/
structure Transaction where
  nonce : UInt64
  toAddress : Option Address
  value : Nat
  gas : UInt64
  gasPrice : Nat
  data : List UInt8

/-- `types.NewTransaction`. -/
def newTransaction (nonce : UInt64) (toAddress : Address) (value : Nat) (gasLimit : UInt64)
    (gasPrice : Nat) (data : List UInt8) : Transaction :=
  { nonce := nonce, toAddress := some toAddress, value := value, gas := gasLimit, gasPrice := gasPrice,
    data := data }

/-! ## Constants -/

/-- `copyrightRegistryAddr = common.HexToAddress("0x…9000")`. -/
def copyrightRegistryAddr : Address :=
  ⟨[0x00, 0x00, 0x00, 0x00, 0x00, 0x00, 0x00, 0x00, 0x00, 0x00, 0x00, 0x00, 0x00, 0x00, 0x00, 0x00,
    0x00, 0x00, 0x90, 0x00], rfl⟩

/-- `CopyrightClaimedEventSig`, the topic of
`CopyrightClaimed(bytes32,bytes32,bytes32,address)`. -/
def copyrightClaimedEventSig : Hash :=
  ⟨[0x97, 0xb0, 0x02, 0x8b, 0x3e, 0x00, 0x98, 0xfe, 0x3d, 0xce, 0x9c, 0xb2, 0xf7, 0x78, 0x83, 0x68,
    0x64, 0x67, 0xf7, 0xad, 0x3f, 0xe5, 0x97, 0x17, 0x57, 0x56, 0xc1, 0x13, 0x80, 0xdb, 0x62, 0x6f],
    rfl⟩

/-- The topic of `OTSSubmitted(bytes32,bytes32)`, computed in `parseOTSSubmittedLog`. -/
def otsSubmittedSig : Hash :=
  ⟨[0xc2, 0x68, 0xf8, 0x96, 0x3d, 0x53, 0x32, 0x38, 0xf8, 0x5d, 0x1f, 0x06, 0x38, 0x02, 0xc4, 0x5e,
    0xd4, 0xf5, 0xc0, 0x89, 0x0d, 0x17, 0x6d, 0x90, 0xde, 0x8b, 0x49, 0x50, 0x33, 0x08, 0x91, 0xe0],
    rfl⟩

/-- The topic of `OTSConfirmed(bytes32,uint64,bytes32,uint64)`, computed in
`parseOTSConfirmedLog`. -/
def otsConfirmedSig : Hash :=
  ⟨[0x25, 0xb9, 0x8f, 0x80, 0x1a, 0x5d, 0xeb, 0x2b, 0x57, 0x64, 0x2f, 0xf4, 0x13, 0xc8, 0x4d, 0x98,
    0x7d, 0x2d, 0xd5, 0x1e, 0x43, 0xf7, 0x6c, 0x21, 0x29, 0x9a, 0x62, 0x26, 0xdd, 0x1e, 0x63, 0x0c],
    rfl⟩

/-- The topic of `Anchored(bytes32,uint64,uint64,uint64)`, computed in `isValidAnchorLog`. -/
def anchoredSig : Hash :=
  ⟨[0xc7, 0xb7, 0x65, 0x74, 0x85, 0xe9, 0x49, 0xaf, 0xa7, 0xf1, 0x39, 0xbf, 0x44, 0x12, 0xdd, 0x0b,
    0x48, 0x1a, 0xa3, 0x9f, 0x92, 0x43, 0x64, 0x3f, 0xaf, 0x8f, 0x26, 0x03, 0xea, 0x9c, 0x83, 0x68],
    rfl⟩

/-- `systx.OTSSubmittedSelector`: the selector of `otsSubmitted(bytes32,bytes32)`. -/
def otsSubmittedSelector : List UInt8 := [0x9c, 0xb2, 0x30, 0xed]

/-- `systx.OTSConfirmedSelector`: the selector of
`otsConfirmed(bytes32,uint64,bytes32,uint64)`. -/
def otsConfirmedSelector : List UInt8 := [0x46, 0xba, 0xb7, 0x05]

/-- `systx.anchorSelector`, equal to `anchorSig` of `builder.go`: the selector of
`anchor(uint64,uint64,bytes32,bytes32,uint64)`. -/
def anchorSelector : List UInt8 := [0xa0, 0x51, 0x4e, 0xfe]

/-! ## `uint64` for-loops -/

/-- `for n := start; n <= stop; n++ { body }` over `uint64`, allowed `fuel` tests of the loop
condition. The body goes on with a new accumulator (`some (.ok _)`), leaves the enclosing function
with a result (`some (.error _)`), or does not return (`none`). The loop's `none`: it was still
running when the fuel ran out, or its body did not return. -/
def forUpTo {σ ρ : Type} (body : UInt64 → σ → Option (Except ρ σ)) (stop : UInt64) :
    Nat → UInt64 → σ → Option (Except ρ σ)
  | 0, _, _ => none
  | fuel + 1, n, acc =>
    if n ≤ stop then
      match body n acc with
      | some (.ok acc') => forUpTo body stop fuel (n + 1) acc'
      | r => r
    else some (.ok acc)

/-- Tests of the condition enough for any `uint64` loop that stops: before the counter could
repeat a value it has taken all `2 ^ 64` of them. -/
def loopFuel : Nat := 2 ^ 64 + 1

/-- A loop whose body only updates the accumulator: what it ends with, `none` if it does not
stop. -/
def forUpToPure {σ : Type} (f : UInt64 → σ → σ) (stop start : UInt64) (init : σ) : Option σ :=
  match forUpTo (fun n a => some (.ok (f n a) : Except Empty σ)) stop loopFuel start init with
  | some (.ok a) => some a
  | _ => none

/-- The `k` counter values `n, n + 1, …` a loop visits. -/
def counterRange (n : UInt64) : Nat → List UInt64
  | 0 => []
  | k + 1 => n :: counterRange (n + 1) k

/-- The loop's body at the counter values `ns`, in order: the first value at which the body
leaves the function or does not return ends the run. -/
def bodyRun {σ ρ : Type} (body : UInt64 → σ → Option (Except ρ σ)) :
    List UInt64 → σ → Option (Except ρ σ)
  | [], acc => some (.ok acc)
  | n :: ns, acc =>
    match body n acc with
    | some (.ok acc') => bodyRun body ns acc'
    | r => r

section Loops

variable {σ ρ : Type} (f : UInt64 → σ → σ) (stop : UInt64)

/-- A loop whose counter is past the bound stops at once. -/
theorem forUpTo_past {body : UInt64 → σ → Option (Except ρ σ)} {fuel : Nat} {n : UInt64}
    {acc : σ} (h : stop < n) : forUpTo body stop (fuel + 1) n acc = some (.ok acc) := by
  simp [forUpTo, UInt64.not_le.mpr h]

/-- **A loop below the largest bound is its body run at the values it visits**: started `k`
values below `stop + 1` with more than `k` tests of its condition, it visits those `k` values. -/
theorem forUpTo_eq_bodyRun {body : UInt64 → σ → Option (Except ρ σ)}
    (hstop : stop.toNat < 2 ^ 64 - 1) :
    ∀ (k : Nat) (n : UInt64) (acc : σ) (fuel : Nat), n.toNat + k = stop.toNat + 1 → k < fuel →
      forUpTo body stop fuel n acc = bodyRun body (counterRange n k) acc := by
  intro k
  induction k with
  | zero =>
    intro n acc fuel hk hfuel
    obtain ⟨fuel, rfl⟩ : ∃ m, fuel = m + 1 := ⟨fuel - 1, by omega⟩
    exact forUpTo_past stop (u64_lt_iff.mpr (by omega))
  | succ k ih =>
    intro n acc fuel hk hfuel
    obtain ⟨fuel, rfl⟩ : ∃ m, fuel = m + 1 := ⟨fuel - 1, by omega⟩
    have hle : n ≤ stop := u64_le_iff.mpr (by omega)
    have hnext : (n + 1).toNat + k = stop.toNat + 1 := by
      rw [u64_toNat_add, u64_toNat_one, Nat.mod_eq_of_lt (by omega)]; omega
    simp only [forUpTo, if_pos hle, counterRange, bodyRun]
    split
    · exact ih (n + 1) _ fuel hnext (by omega)
    · rfl

/-- A body that always goes on runs as a fold. -/
theorem bodyRun_pure : ∀ (ns : List UInt64) (acc : σ),
    bodyRun (fun m a => some (.ok (f m a) : Except ρ σ)) ns acc =
      some (.ok (ns.foldl (fun a m => f m a) acc))
  | [], _ => rfl
  | _ :: ns, _ => bodyRun_pure ns _

/-- The counter values of a loop that does not reach `2 ^ 64` are the numbers from its first
one, in order. -/
theorem counterRange_eq_range' : ∀ (k : Nat) (n : UInt64), n.toNat + k ≤ 2 ^ 64 →
    counterRange n k = (List.range' n.toNat k).map UInt64.ofNat
  | 0, _, _ => rfl
  | 1, n, _ => by rw [counterRange, counterRange, List.range'_one, List.map_singleton, u64_ofNat_toNat]
  | k + 2, n, h => by
    rw [counterRange, List.range'_succ, List.map_cons, u64_ofNat_toNat,
      counterRange_eq_range' (k + 1) (n + 1) (by rw [u64_toNat_add_one (by omega)]; omega),
      u64_toNat_add_one (by omega)]

/-- A loop whose body always goes on is the pure loop of what the body computes. -/
theorem forUpTo_of_pure {body : UInt64 → σ → Option (Except ρ σ)}
    (hbody : ∀ n a, body n a = some (.ok (f n a))) (fuel : Nat) (n : UInt64) (acc : σ) :
    forUpTo body stop fuel n acc = forUpTo (fun m a => some (.ok (f m a))) stop fuel n acc := by
  rw [show body = _ from funext fun n => funext (hbody n)]

/-- Every loop below the largest bound runs its body at `start, …, stop` within `loopFuel`
(at nothing when `stop < start`). -/
theorem forUpTo_loopFuel {body : UInt64 → σ → Option (Except ρ σ)} (start : UInt64) (acc : σ)
    (hstop : stop.toNat < 2 ^ 64 - 1) :
    forUpTo body stop loopFuel start acc =
      bodyRun body (counterRange start (stop.toNat + 1 - start.toNat)) acc := by
  by_cases hlt : stop < start
  · rw [show stop.toNat + 1 - start.toNat = 0 by rw [u64_lt_iff] at hlt; omega]
    exact forUpTo_past stop hlt
  · have hle := u64_le_iff.mp (UInt64.not_lt.mp hlt)
    exact forUpTo_eq_bodyRun stop hstop _ start acc loopFuel (by omega)
      (by have := u64_toNat_lt stop; unfold loopFuel; omega)

/-- **A pure loop below the largest bound stops** within `loopFuel`, after visiting
`start, …, stop` in order (nothing when `stop < start`). -/
theorem forUpTo_pure_loopFuel (start : UInt64) (init : σ) (hstop : stop.toNat < 2 ^ 64 - 1) :
    forUpTo (fun m a => some (.ok (f m a) : Except ρ σ)) stop loopFuel start init =
      some (.ok ((counterRange start (stop.toNat + 1 - start.toNat)).foldl (fun a m => f m a)
        init)) := by
  rw [forUpTo_loopFuel stop start init hstop, bodyRun_pure]

/-- `forUpToPure` of a loop below the largest bound: what it ends with. -/
theorem forUpToPure_eq (start : UInt64) (init : σ) (hstop : stop.toNat < 2 ^ 64 - 1) :
    forUpToPure f stop start init =
      some ((counterRange start (stop.toNat + 1 - start.toNat)).foldl (fun a m => f m a) init) := by
  rw [forUpToPure, forUpTo_pure_loopFuel f stop start init hstop]

/-- **Loop invariant.** If at every counter value `n ≤ stop` the body takes an accumulator with
`inv n` on to one with `inv (n + 1)`, the body run at the `k` values below `stop + 1`, started with
`inv` at the first, ends with `inv (stop + 1)`. Counter values are read as numbers. -/
theorem bodyRun_inv {body : UInt64 → σ → Option (Except ρ σ)} (inv : Nat → σ → Prop)
    (hstop : stop.toNat < 2 ^ 64 - 1)
    (hbody : ∀ n acc, n.toNat ≤ stop.toNat → inv n.toNat acc →
      ∃ acc', body n acc = some (.ok acc') ∧ inv (n.toNat + 1) acc') :
    ∀ (k : Nat) (n : UInt64) (acc : σ), n.toNat + k = stop.toNat + 1 → inv n.toNat acc →
      ∃ acc', bodyRun body (counterRange n k) acc = some (.ok acc') ∧ inv (stop.toNat + 1) acc'
  | 0, n, acc, hk, hinv => ⟨acc, rfl, by rwa [← Nat.add_zero n.toNat, hk] at hinv⟩
  | k + 1, n, acc, hk, hinv => by
    obtain ⟨acc', hb, hinv'⟩ := hbody n acc (by omega) hinv
    have hnext : (n + 1).toNat = n.toNat + 1 := u64_toNat_add_one (by omega)
    simp only [counterRange, bodyRun, hb]
    exact bodyRun_inv inv hstop hbody k (n + 1) acc' (by omega) (hnext ▸ hinv')

/-- The loop invariant within `loopFuel`, from any start up to `stop + 1`. -/
theorem forUpTo_inv_loopFuel {body : UInt64 → σ → Option (Except ρ σ)} (inv : Nat → σ → Prop)
    (hstop : stop.toNat < 2 ^ 64 - 1)
    (hbody : ∀ n acc, n.toNat ≤ stop.toNat → inv n.toNat acc →
      ∃ acc', body n acc = some (.ok acc') ∧ inv (n.toNat + 1) acc')
    (start : UInt64) (acc : σ) (hstart : start.toNat ≤ stop.toNat + 1) (h0 : inv start.toNat acc) :
    ∃ acc', forUpTo body stop loopFuel start acc = some (.ok acc') ∧ inv (stop.toNat + 1) acc' := by
  rw [forUpTo_loopFuel stop start acc hstop]
  exact bodyRun_inv stop inv hstop hbody _ start acc (by omega) h0

/-- **A loop with the largest bound never stops** unless its body leaves the function: every
amount of fuel runs out, or the body does not return. -/
theorem forUpTo_max {body : UInt64 → σ → Option (Except ρ σ)}
    (hbody : ∀ n acc e, body n acc ≠ some (.error e)) (hstop : stop.toNat = 2 ^ 64 - 1) :
    ∀ (fuel : Nat) (n : UInt64) (acc : σ), forUpTo body stop fuel n acc = none := by
  intro fuel
  induction fuel with
  | zero => intro _ _; rfl
  | succ fuel ih =>
    intro n acc
    have hle : n ≤ stop := u64_le_iff.mpr (by have := u64_toNat_lt n; omega)
    simp only [forUpTo, if_pos hle]
    split
    · exact ih _ _
    · rename_i hne
      cases hb : body n acc with
      | none => rfl
      | some r =>
        cases r with
        | error e => exact absurd hb (hbody n acc e)
        | ok a => exact absurd hb (hne a)

end Loops

end Ots

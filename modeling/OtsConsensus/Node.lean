import OtsConsensus.Replay

/-!
# A node over any sequence of calls

A node calls its consensus manager from block import (`ProcessBlock`), block production
(`GetSystemTransactions`), block validation (`ValidateOTSSystemTx`), recovery
(`RebuildFromChain`) and the RPC queries (`GetSnapshot`, `GetCurrentState`, `GetBatchState`,
`GetStats`), each under the manager's lock, while the LRU cache evicts entries and a restart
empties it. A node's history is therefore a sequence of calls (`NodeOp.run`).

No such history changes what the node serves for a block of its chain: under the hash of block
`n`, in the cache and in the database, the manager holds only the snapshot of `n` in a replay of
the chain from genesis (`SnapshotManager.HoldsReplay`). Every store operation keeps this
(`SnapshotManager.ChainStore`) when it stores a snapshot under the hash of the block it replays,
or under a hash of no block of the chain. On a chain whose hashes are distinct, `ProcessBlock` of
a chain block on its parent's hash, `ProcessBlock` of a block off the chain and
`RebuildFromChain` store only such snapshots; so the invariant holds after every history, and
every later `GetBatchState`, `ProcessBlock` and `ValidateOTSSystemTx` answers as the replay does.

The invariant also records the database entries a node keeps: only `DeleteSnapshot` removes
one. After `RebuildFromChain` to block `t`, `ProcessBlock` of block `t + 1` returns its replayed
snapshot, whatever the cache has evicted since.
-/

namespace Ots

/-! ## The store -/

/-- An entry of a function after `Function.update`: the new value at the updated point, the old
one elsewhere. -/
theorem update_eq_some {α β : Type} [DecidableEq α] {f : α → Option β} {a x : α}
    {o : Option β} {b : β} (h : Function.update f a o x = some b) :
    x = a ∧ o = some b ∨ x ≠ a ∧ f x = some b := by
  by_cases hx : x = a
  · subst hx
    exact .inl ⟨rfl, by rwa [Function.update_same] at h⟩
  · exact .inr ⟨hx, by rwa [Function.update_noteq hx] at h⟩

/-- The engine's `ProcessBlock` returns a snapshot under the block's hash, which it stores or
not. -/
theorem TransitionEngine.processBlock_stores {te : TransitionEngine} {header : Header}
    {P S : Snapshot} {sm sm' : SnapshotManager} (hp : te.processBlock header P sm = some (S, sm')) :
    S.hash = header.hash ∧ (sm.storeSnapshot S = some sm' ∨ sm' = sm) := by
  cases hst : P.state with
  | none => simp [TransitionEngine.processBlock, hst] at hp
  | some st =>
    obtain ⟨st', rfl, ⟨-, -, hs⟩ | ⟨-, -, rfl⟩⟩ := TransitionEngine.processBlock_cases hst hp
    · exact ⟨rfl, .inl hs⟩
    · exact ⟨rfl, .inr rfl⟩

namespace SnapshotManager

/-- Managers with the same flag have the same genesis snapshot. -/
theorem getGenesisSnapshot_congr {sm sm' : SnapshotManager} (h : sm.otsEnabled = sm'.otsEnabled)
    (genesisHash : Hash) : sm.getGenesisSnapshot genesisHash = sm'.getGenesisSnapshot genesisHash := by
  simp only [getGenesisSnapshot, h]

/-- The snapshot manager of a node following the chain `headerOf`: its genesis flag is
`otsEnabled`; under the hash of block `n` it holds only `replayed n`, in its cache and in its
database; and its database has an entry under every hash `kept` names. -/
structure ChainStore (sm : SnapshotManager) (headerOf : UInt64 → Header)
    (replayed : Nat → Option Snapshot) (otsEnabled : Bool) (kept : Hash → Prop) : Prop where
  enabled : sm.otsEnabled = otsEnabled
  holds : sm.HoldsReplay headerOf replayed
  persisted : ∀ h, kept h → (sm.db (snapshotKey h)).isSome

/-- `snap` may be stored under its hash: every block of the chain with that hash replays to
`snap`, which comes back from its encoding. -/
def Storable (headerOf : UInt64 → Header) (replayed : Nat → Option Snapshot) (snap : Snapshot) :
    Prop :=
  ∀ n, (headerOf n).hash = snap.hash →
    replayed n.toNat = some snap ∧ decodeSnapshot snap.encode = .ok snap

/-- A snapshot under a hash of no block of the chain may be stored. -/
theorem Storable.of_off_chain {headerOf : UInt64 → Header} {replayed : Nat → Option Snapshot}
    {snap : Snapshot} (h : ∀ n, (headerOf n).hash ≠ snap.hash) : Storable headerOf replayed snap :=
  fun n hn => absurd hn (h n)

/-- `ForceStore` leaves a database entry under the snapshot's hash. -/
theorem forceStore_persisted {sm sm' : SnapshotManager} {S : Snapshot}
    (h : sm.forceStore S = some sm') : (sm'.db (snapshotKey S.hash)).isSome := by
  obtain ⟨c, -, rfl⟩ := Option.map_eq_some'.mp h
  simp [saveToDB]

section Keep

variable {headerOf : UInt64 → Header} {rp : Nat → Option Snapshot} {e : Bool}
  {kept : Hash → Prop} {sm sm' : SnapshotManager}

/-- Loading a block's hash from a database that holds only replayed snapshots finds nothing, or
the replayed snapshot. -/
theorem HoldsReplay.loadFromDB_cases (hh : sm.HoldsReplay headerOf rp) {n : UInt64} {h : Hash}
    (hn : (headerOf n).hash = h) :
    sm.loadFromDB h = .error .snapshotNotFound ∨
      ∃ S, rp n.toNat = some S ∧ sm.loadFromDB h = .ok S := by
  subst hn
  unfold loadFromDB
  cases hdb : sm.db (snapshotKey (headerOf n).hash) with
  | none => exact .inl rfl
  | some data => exact .inr (hh.db n data hdb)

/-- What such a database loads under a hash is the replayed snapshot of every block with it. -/
theorem HoldsReplay.loadFromDB_ok (hh : sm.HoldsReplay headerOf rp) {h : Hash} {S : Snapshot}
    (hd : sm.loadFromDB h = .ok S) : ∀ n, (headerOf n).hash = h → rp n.toNat = some S :=
  fun _ hn => by
    obtain h' | ⟨S', hS', h'⟩ := hh.loadFromDB_cases hn <;> rw [hd] at h' <;> cases h'
    exact hS'

/-- A new manager over an empty database holds no snapshot at all. -/
theorem HoldsReplay.new_empty (otsEnabled : Bool) :
    (SnapshotManager.new (fun _ => none) otsEnabled).HoldsReplay headerOf rp :=
  ⟨fun _ _ h => Option.noConfusion h, fun _ _ h => Option.noConfusion h⟩

namespace ChainStore

/-- An eviction keeps the invariant. -/
theorem evict (hs : sm.ChainStore headerOf rp e kept) (h : Hash) :
    (sm.evict h).ChainStore headerOf rp e kept where
  enabled := hs.enabled
  holds := ⟨fun n S hc => by
    obtain ⟨-, ⟨⟩⟩ | ⟨-, hc⟩ := update_eq_some hc
    exact hs.holds.cache n S hc, hs.holds.db⟩
  persisted := hs.persisted

/-- Purging the cache keeps the invariant. -/
theorem clear (hs : sm.ChainStore headerOf rp e kept) : sm.clear.ChainStore headerOf rp e kept :=
  ⟨hs.enabled, ⟨fun _ _ h => Option.noConfusion h, hs.holds.db⟩, hs.persisted⟩

/-- Caching the replayed snapshot of every block with the hash keeps the invariant. -/
theorem cacheAdd (hs : sm.ChainStore headerOf rp e kept) {h : Hash} {S : Snapshot}
    (hS : ∀ n, (headerOf n).hash = h → rp n.toNat = some S) :
    (sm.cacheAdd h S).ChainStore headerOf rp e kept where
  enabled := hs.enabled
  holds := ⟨fun n S' hc => by
    obtain ⟨hn, ⟨⟩⟩ | ⟨-, hc⟩ := update_eq_some hc
    · exact hS n hn
    · exact hs.holds.cache n S' hc, hs.holds.db⟩
  persisted := hs.persisted

/-- Persisting a storable snapshot keeps the invariant. -/
theorem saveToDB (hs : sm.ChainStore headerOf rp e kept) {S : Snapshot}
    (hS : Storable headerOf rp S) : (sm.saveToDB S).ChainStore headerOf rp e kept where
  enabled := hs.enabled
  holds := ⟨hs.holds.cache, fun n data hd => by
    obtain ⟨hk, ⟨⟩⟩ | ⟨-, hd⟩ := update_eq_some hd
    · exact ⟨S, hS n (snapshotKey_injective hk)⟩
    · exact hs.holds.db n data hd⟩
  persisted h hk := by
    by_cases hx : snapshotKey h = snapshotKey S.hash
    · simp [SnapshotManager.saveToDB, hx]
    · simpa [SnapshotManager.saveToDB, Function.update_noteq hx] using hs.persisted h hk

/-- Deleting a hash the invariant does not keep keeps the invariant. -/
theorem deleteSnapshot (hs : sm.ChainStore headerOf rp e kept) {h : Hash} (hk : ¬kept h) :
    (sm.deleteSnapshot h).ChainStore headerOf rp e kept where
  enabled := hs.enabled
  holds := ⟨(hs.evict h).holds.cache, fun n data hd => by
    obtain ⟨-, ⟨⟩⟩ | ⟨-, hd⟩ := update_eq_some hd
    exact hs.holds.db n data hd⟩
  persisted h' hk' := by
    have hne : snapshotKey h' ≠ snapshotKey h := fun he => hk (snapshotKey_injective he ▸ hk')
    simpa [SnapshotManager.deleteSnapshot, Function.update_noteq hne] using hs.persisted h' hk'

/-- `StoreSnapshot` of a storable snapshot keeps the invariant. -/
theorem storeSnapshot (hs : sm.ChainStore headerOf rp e kept) {S : Snapshot}
    (hS : Storable headerOf rp S) (h : sm.storeSnapshot S = some sm') :
    sm'.ChainStore headerOf rp e kept := by
  obtain ⟨c, hc, rfl⟩ := Option.map_eq_some'.mp h
  obtain ⟨-, rfl⟩ := Snapshot.copy_eq_some.mp hc
  have hadd := hs.cacheAdd fun n hn => (hS n hn).1
  dsimp only
  split_ifs
  · exact hadd.saveToDB hS
  · exact hadd

/-- `ForceStore` of a storable snapshot keeps the invariant. -/
theorem forceStore (hs : sm.ChainStore headerOf rp e kept) {S : Snapshot}
    (hS : Storable headerOf rp S) (h : sm.forceStore S = some sm') :
    sm'.ChainStore headerOf rp e kept := by
  obtain ⟨c, hc, rfl⟩ := Option.map_eq_some'.mp h
  obtain ⟨-, rfl⟩ := Snapshot.copy_eq_some.mp hc
  exact (hs.cacheAdd fun n hn => (hS n hn).1).saveToDB hS

/-- The engine's `ProcessBlock` keeps the invariant when the snapshot it returns may be
stored. -/
theorem processBlock (hs : sm.ChainStore headerOf rp e kept) {te : TransitionEngine}
    {header : Header} {P S : Snapshot} (hp : te.processBlock header P sm = some (S, sm'))
    (hS : Storable headerOf rp S) : sm'.ChainStore headerOf rp e kept := by
  obtain hst | rfl := (TransitionEngine.processBlock_stores hp).2
  · exact hs.storeSnapshot hS hst
  · exact hs

/-- A lookup keeps the invariant and finds, under a block's hash, the replayed snapshot. -/
theorem lookup (hs : sm.ChainStore headerOf rp e kept) {h : Hash} {S : Snapshot}
    (hl : sm.lookup h = some (sm', S)) :
    sm'.ChainStore headerOf rp e kept ∧ ∀ n, (headerOf n).hash = h → rp n.toNat = some S := by
  unfold SnapshotManager.lookup at hl
  cases hc : sm.cache h with
  | some snap =>
    rw [hc] at hl
    cases hl
    exact ⟨hs, fun n hn => hs.holds.cache n _ (by rw [hn]; exact hc)⟩
  | none =>
    rw [hc] at hl
    dsimp only at hl
    cases hd : sm.loadFromDB h with
    | ok snap =>
      rw [hd] at hl
      cases hl
      exact ⟨hs.cacheAdd (hs.holds.loadFromDB_ok hd), hs.holds.loadFromDB_ok hd⟩
    | error _ => rw [hd] at hl; cases hl

/-- **`GetSnapshot` keeps the invariant**; under a block's hash it reads the replayed snapshot,
or finds nothing. -/
theorem getSnapshot (hs : sm.ChainStore headerOf rp e kept) {h : Hash}
    {r : Except Error Snapshot} (hg : sm.getSnapshot h = some (sm', r)) :
    sm'.ChainStore headerOf rp e kept ∧ ∀ n, (headerOf n).hash = h →
      r = .error .snapshotNotFound ∨ ∃ S, r = .ok S ∧ rp n.toNat = some S := by
  unfold SnapshotManager.getSnapshot at hg
  cases hc : sm.cache h with
  | some snap =>
    rw [hc] at hg
    rw [Option.map_eq_some'] at hg
    obtain ⟨c, hcopy, hg⟩ := hg
    obtain ⟨-, rfl⟩ := Snapshot.copy_eq_some.mp hcopy
    cases hg
    exact ⟨hs, fun n hn => .inr ⟨_, rfl, hs.holds.cache n _ (by rw [hn]; exact hc)⟩⟩
  | none =>
    rw [hc] at hg
    dsimp only at hg
    cases hd : sm.loadFromDB h with
    | ok snap =>
      have hS := hs.holds.loadFromDB_ok hd
      rw [hd] at hg
      rw [Option.map_eq_some'] at hg
      obtain ⟨c, hcopy, hg⟩ := hg
      obtain ⟨-, rfl⟩ := Snapshot.copy_eq_some.mp hcopy
      cases hg
      exact ⟨hs.cacheAdd hS, fun n hn => .inr ⟨_, rfl, hS n hn⟩⟩
    | error err =>
      rw [hd] at hg
      cases hg
      refine ⟨hs, fun n hn => .inl ?_⟩
      obtain h' | ⟨S', -, h'⟩ := hs.holds.loadFromDB_cases hn <;> rw [hd] at h' <;> cases h'
      rfl

/-- The loop of `FindNearestSnapshot` keeps the invariant, and what it finds under the hash of
candidate `j` is the replayed snapshot of every block with that hash. -/
theorem searchBack (hs : sm.ChainStore headerOf rp e kept) (getHash : UInt64 → Hash) :
    ∀ {k : Nat} {sm' : SnapshotManager} {o : Option Snapshot},
      sm.searchBack getHash k = some (sm', o) → sm'.ChainStore headerOf rp e kept ∧
        ∀ S ∈ o, ∃ j, 0 < j ∧ j ≤ k ∧ ∀ n, (headerOf n).hash =
          getHash (UInt64.ofNat (j * snapshotPersistInterval.toNat)) → rp n.toNat = some S
  | 0, _, _, h => by
    cases h
    exact ⟨hs, fun _ h => absurd h (Option.not_mem_none _)⟩
  | k + 1, sm', o, h => by
    have back : sm.searchBack getHash k = some (sm', o) → sm'.ChainStore headerOf rp e kept ∧
        ∀ S ∈ o, ∃ j, 0 < j ∧ j ≤ k + 1 ∧ ∀ n, (headerOf n).hash =
          getHash (UInt64.ofNat (j * snapshotPersistInterval.toNat)) → rp n.toNat = some S :=
      fun h => (searchBack hs getHash h).imp_right fun ho S hS =>
        (ho S hS).imp fun _ ⟨h0, hj, hr⟩ => ⟨h0, Nat.le_succ_of_le hj, hr⟩
    rw [searchBack_succ_lookup] at h
    dsimp only at h
    split_ifs at h
    · exact back h
    split at h
    · next sm'' S hl =>
      rw [Option.map_eq_some'] at h
      obtain ⟨c, hc, ⟨⟩⟩ := h
      obtain ⟨-, rfl⟩ := Snapshot.copy_eq_some.mp hc
      obtain ⟨hs', hS⟩ := hs.lookup hl
      exact ⟨hs', fun S' hS' => by cases hS'; exact ⟨k + 1, k.succ_pos, le_rfl, hS⟩⟩
    · exact back h

/-- **`FindNearestSnapshot` over the chain's hashes keeps the invariant**, and finds the genesis
snapshot or the replayed snapshot of a multiple of the interval at most its target. -/
theorem findNearestSnapshot (hs : sm.ChainStore headerOf rp e kept) {target : UInt64}
    {S : Snapshot}
    (hf : sm.findNearestSnapshot target (fun n => (headerOf n).hash) = some (sm', S)) :
    sm'.ChainStore headerOf rp e kept ∧ (S = sm.getGenesisSnapshot (headerOf 0).hash ∨
      ∃ j, j + 1 < 2 ^ 64 ∧ j ≤ target.toNat ∧ rp j = some S) := by
  obtain ⟨⟨sm'', o⟩, hsb, he⟩ := Option.map_eq_some'.mp hf
  cases he
  obtain ⟨hs', ho⟩ := hs.searchBack _ hsb
  refine ⟨hs', ?_⟩
  cases o with
  | none => exact .inl rfl
  | some S =>
    obtain ⟨i, -, hi, hr⟩ := ho S rfl
    have hI : snapshotPersistInterval.toNat = 1024 := rfl
    have ht := u64_toNat_lt target
    have hq : i * 1024 ≤ target.toNat := by
      rw [UInt64.toNat_div, hI] at hi
      omega
    refine .inr ⟨i * 1024, by omega, hq, ?_⟩
    have := hr (UInt64.ofNat (i * 1024)) (by rw [hI])
    rwa [UInt64.toNat_ofNat_of_lt (show i * 1024 < 2 ^ 64 by omega)] at this

/-- `GetSnapshot` of a block whose hash the database keeps reads the replayed snapshot, when
that has a state. -/
theorem getSnapshot_kept (hs : sm.ChainStore headerOf rp e kept) {n : UInt64}
    (hk : kept (headerOf n).hash) (hst : ∀ S, rp n.toNat = some S → S.state.isSome) :
    ∃ sm' S, sm.getSnapshot (headerOf n).hash = some (sm', .ok S) ∧ rp n.toNat = some S := by
  unfold SnapshotManager.getSnapshot SnapshotManager.loadFromDB
  cases hc : sm.cache (headerOf n).hash with
  | some S =>
    have hS := hs.holds.cache n S hc
    simp only [Snapshot.copy_of_state (hst S hS), Option.map_some']
    exact ⟨_, _, rfl, hS⟩
  | none =>
    obtain ⟨data, hd⟩ := Option.isSome_iff_exists.mp (hs.persisted _ hk)
    obtain ⟨S, hS, hdec⟩ := hs.holds.db n data hd
    simp only [hd, hdec, Snapshot.copy_of_state (hst S hS), Option.map_some']
    exact ⟨_, _, rfl, hS⟩

end ChainStore

end Keep

end SnapshotManager

/-! ## The chain's snapshots -/

/-- Hashes that spell a block number as a 32-byte big-endian word differ for distinct numbers. -/
theorem uint64Word_hash_injective {n n' : UInt64}
    (h : (⟨uint64Word n, length_uint64Word n⟩ : Hash) = ⟨uint64Word n', length_uint64Word n'⟩) :
    n = n' := by
  have := congrArg (fun h : Hash => bigUint64 h.bytes) h
  simpa only [bigUint64_uint64Word] using this

section Chain

variable {te : TransitionEngine} {headerOf : UInt64 → Header} {sm0 : SnapshotManager}

/-- A replayed snapshot carries its block's hash. -/
theorem replay_hash {start : Snapshot} (hstart : start.hash = (headerOf 0).hash) :
    ∀ {k : Nat} {S : Snapshot}, te.replay headerOf start sm0 k = some S →
      S.hash = (headerOf (UInt64.ofNat k)).hash
  | 0, _, h => by cases h; exact hstart
  | k + 1, _, h => by
    obtain ⟨P, -, hp⟩ := Option.bind_eq_some.mp h
    obtain ⟨⟨S, sm'⟩, hpb, rfl⟩ := Option.map_eq_some'.mp hp
    exact (TransitionEngine.processBlock_stores hpb).1

/-- `ProcessBlock` of block `n` on the replayed snapshot of `n - 1`, with any manager, returns
the replayed snapshot of `n`. -/
theorem processBlock_replayed {start : Snapshot} {n : UInt64} (hn0 : 0 < n.toNat)
    {P S : Snapshot} {sm sm' : SnapshotManager}
    (hP : te.replay headerOf start sm0 (n.toNat - 1) = some P)
    (hp : te.processBlock (headerOf n) P sm = some (S, sm')) :
    te.replay headerOf start sm0 n.toNat = some S := by
  obtain ⟨k, hk⟩ : ∃ k, n.toNat = k + 1 := ⟨n.toNat - 1, by omega⟩
  rw [hk, Nat.add_sub_cancel] at hP
  rw [hk, TransitionEngine.replay, hP, Option.some_bind, te.processBlock_map_fst _ _ sm0 sm, ← hk,
    u64_ofNat_toNat, hp]
  rfl

/-- The replay does not depend on the manager it is run with. -/
theorem replay_manager (start : Snapshot) (sm sm' : SnapshotManager) :
    ∀ k, te.replay headerOf start sm k = te.replay headerOf start sm' k
  | 0 => rfl
  | k + 1 => by
    simp only [TransitionEngine.replay, replay_manager start sm sm' k,
      te.processBlock_map_fst _ _ sm sm']

/-- **On a chain with distinct hashes, a replayed snapshot may be stored**: the only block with
its hash is its own, and it comes back from its encoding. -/
theorem storable_replay (hnum : ∀ n, (headerOf n).number = n)
    (hinj : ∀ n n', (headerOf n).hash = (headerOf n').hash → n = n') {k : Nat} {S : Snapshot}
    (hk : k < 2 ^ 64)
    (hS : te.replay headerOf (sm0.getGenesisSnapshot (headerOf 0).hash) sm0 k = some S) :
    SnapshotManager.Storable headerOf
      (te.replay headerOf (sm0.getGenesisSnapshot (headerOf 0).hash) sm0) S := fun n hn => by
  obtain rfl := hinj _ _ (hn.trans (replay_hash rfl hS))
  rw [UInt64.toNat_ofNat_of_lt hk]
  exact ⟨hS, (replay_spec hnum hk hS).1.decode_encode⟩

variable {e : Bool} {kept : Hash → Prop}

/-- **`RebuildState` from a replayed snapshot keeps the invariant**, and returns a replayed
snapshot: every block it processes is a chain block on the replayed snapshot of its parent. -/
theorem rebuildState_chainStore (hnum : ∀ n, (headerOf n).number = n)
    (hinj : ∀ n n', (headerOf n).hash = (headerOf n').hash → n = n') {j : Nat} {S : Snapshot}
    (hj : j + 1 < 2 ^ 64)
    (hS : te.replay headerOf (sm0.getGenesisSnapshot (headerOf 0).hash) sm0 j = some S)
    (t : UInt64) {sm sm' : SnapshotManager} {r : Except Error Snapshot}
    (hs : sm.ChainStore headerOf
      (te.replay headerOf (sm0.getGenesisSnapshot (headerOf 0).hash) sm0) e kept)
    (hr : te.rebuildState S t (fun n => some (headerOf n)) sm = some (sm', r)) :
    sm'.ChainStore headerOf
        (te.replay headerOf (sm0.getGenesisSnapshot (headerOf 0).hash) sm0) e kept ∧
      ∃ k S', k < 2 ^ 64 ∧
        te.replay headerOf (sm0.getGenesisSnapshot (headerOf 0).hash) sm0 k = some S' ∧
          r = .ok S' := by
  have hn := (replay_spec hnum (by omega) hS).2
  have hstart : (S.number + 1).toNat = j + 1 := by rw [u64_toNat_add_one (by omega), hn]
  obtain ht | ht : t.toNat < 2 ^ 64 - 1 ∨ t.toNat = 2 ^ 64 - 1 := by
    have := u64_toNat_lt t; omega
  swap
  · rw [rebuildState_max S ht] at hr
    cases hr
  rw [TransitionEngine.rebuildState, Snapshot.copy_of_state (replay_state hnum (by omega) hS),
    Option.some_bind] at hr
  by_cases htj : t.toNat < j
  · rw [loopFuel, forUpTo_past t (show t < S.number + 1 by rw [u64_lt_iff, hstart]; omega)] at hr
    cases hr
    exact ⟨hs, j, S, by omega, hS, rfl⟩
  let inv := fun (n : Nat) (acc : Snapshot × SnapshotManager) =>
    ∃ k, n = k + 1 ∧
      te.replay headerOf (sm0.getGenesisSnapshot (headerOf 0).hash) sm0 k = some acc.1 ∧
        acc.2.ChainStore headerOf
          (te.replay headerOf (sm0.getGenesisSnapshot (headerOf 0).hash) sm0) e kept
  have hbody : ∀ (n : UInt64) (acc : Snapshot × SnapshotManager), n.toNat ≤ t.toNat →
      inv n.toNat acc → ∃ acc', (te.processBlock (headerOf n) acc.1 acc.2).map Except.ok =
        some (.ok acc' : Except (Error × SnapshotManager) _) ∧ inv (n.toNat + 1) acc' := by
    rintro n ⟨P, smP⟩ hn ⟨k, hk, hrep, hsP⟩
    obtain ⟨S', hS', -, -⟩ := replay_reachable hnum (k + 1) (by omega)
    have hp : (te.processBlock (headerOf n) P smP).map Prod.fst = some S' := by
      rwa [TransitionEngine.replay, hrep, Option.some_bind, ← hk, u64_ofNat_toNat,
        te.processBlock_map_fst _ _ sm0 smP] at hS'
    obtain ⟨⟨_, sm''⟩, hp', rfl⟩ := Option.map_eq_some'.mp hp
    exact ⟨_, by rw [hp']; rfl, k + 1, by omega, hS',
      hsP.processBlock hp' (storable_replay hnum hinj (by omega) hS')⟩
  obtain ⟨⟨St, sm''⟩, hloop, k, hk, hrep, hs''⟩ :=
    forUpTo_inv_loopFuel t inv ht hbody (S.number + 1) (S, sm) (by omega) ⟨j, hstart, hS, hs⟩
  rw [hloop] at hr
  cases hr
  exact ⟨hs'', k, St, by omega, hrep, rfl⟩

end Chain

/-! ## The manager's calls -/

namespace OTSConsensusManager

/-- `ProcessBlock(header, parentHash)` on the chain `headerOf`: of a chain block after genesis on
its parent's hash, or of a block whose hash is no chain block's, on any parent. -/
def ProcessesOnChain (headerOf : UInt64 → Header) (header : Header) (parentHash : Hash) : Prop :=
  (∃ n : UInt64, 0 < n.toNat ∧ header = headerOf n ∧ parentHash = (headerOf (n - 1)).hash) ∨
    ∀ n, (headerOf n).hash ≠ header.hash

variable {m : OTSConsensusManager} {te : TransitionEngine}

/-- What one `ProcessBlock` of the manager does: nothing when it is off; else the engine's block
on the snapshot read under the parent's hash, or on the genesis snapshot at block 1 when that
read fails; at another block a failed read is returned. -/
theorem processBlock_cases {header : Header} {parentHash : Hash} {sm' : SnapshotManager}
    {r : Except Error (Option Snapshot)} (he : m.engine = some te)
    (hp : m.processBlock header parentHash = some (sm', r)) :
    m.enabled = false ∧ sm' = m.snapshots ∧ r = .ok none ∨
    (∃ err, m.snapshots.getSnapshot parentHash = some (sm', .error err) ∧ r = .error err) ∨
    ∃ sm P S, (m.snapshots.getSnapshot parentHash = some (sm, .ok P) ∨
        ∃ err, m.snapshots.getSnapshot parentHash = some (sm, .error err) ∧
          header.number = 1 ∧ P = sm.getGenesisSnapshot parentHash) ∧
      te.processBlock header P sm = some (S, sm') ∧ r = .ok (some S) := by
  unfold processBlock at hp
  rw [he] at hp
  dsimp only at hp
  by_cases hen : m.enabled = true
  swap
  · rw [if_neg hen] at hp
    cases hp
    exact .inl ⟨by simpa using hen, rfl, rfl⟩
  rw [if_pos hen, Option.bind_eq_some] at hp
  obtain ⟨⟨sm, rd⟩, hg, hp⟩ := hp
  cases rd with
  | ok P =>
    rw [Option.map_eq_some'] at hp
    obtain ⟨⟨S, _⟩, hpb, ⟨⟩⟩ := hp
    exact .inr (.inr ⟨sm, P, S, .inl hg, hpb, rfl⟩)
  | error err =>
    dsimp only at hp
    by_cases h1 : header.number = 1
    · rw [if_pos h1, Option.map_eq_some'] at hp
      obtain ⟨⟨S, _⟩, hpb, ⟨⟩⟩ := hp
      exact .inr (.inr ⟨sm, _, S, .inr ⟨err, hg, h1, rfl⟩, hpb, rfl⟩)
    · rw [if_neg h1] at hp
      cases hp
      exact .inr (.inl ⟨err, hg, rfl⟩)

/-- What `GetSystemTransactions` does with the manager: with OTS off it keeps it and proposes
nothing; else it leaves what its read of the parent's snapshot leaves, and proposes only after a
successful read. -/
theorem getSystemTransactions_cases {header : Header} {parentHash : Hash} {coinbase : Address}
    {getNonce : Address → UInt64} {sm' : SnapshotManager} {txs : List Transaction}
    (h : m.getSystemTransactions header parentHash coinbase getNonce = some (sm', txs)) :
    sm' = m.snapshots ∧ txs = [] ∨ ∃ r, m.snapshots.getSnapshot parentHash = some (sm', r) ∧
      (txs = [] ∨ m.enabled = true ∧ ∃ snap, r = .ok snap) := by
  unfold getSystemTransactions at h
  by_cases hen : m.enabled = true
  swap
  · rw [if_pos (by simpa using hen)] at h
    cases h
    exact .inl ⟨rfl, rfl⟩
  rw [if_neg (by simp [hen]), Option.bind_eq_some] at h
  obtain ⟨⟨sm, _ | snap⟩, hg, h⟩ := h
  · cases h
    exact .inr ⟨_, hg, .inl rfl⟩
  refine .inr ⟨_, ?_, .inr ⟨hen, snap, rfl⟩⟩
  suffices sm = sm' by rw [hg, this]
  dsimp only at h
  split at h
  · cases h; rfl
  split at h
  · cases h; rfl
  rw [Option.map_eq_some'] at h
  obtain ⟨_, -, ⟨⟩⟩ := h
  rfl

/-- `ValidateOTSSystemTx` leaves the manager it had, or the one its read of the parent
leaves. -/
theorem validateOTSSystemTx_reads {tx : Transaction} {parentHash : Hash} {sm' : SnapshotManager}
    {r : Option Error} (h : m.validateOTSSystemTx tx parentHash = some (sm', r)) :
    sm' = m.snapshots ∨ ∃ r', m.snapshots.getSnapshot parentHash = some (sm', r') := by
  unfold validateOTSSystemTx at h
  split_ifs at h
  · cases h
    exact .inl rfl
  rw [Option.map_eq_some'] at h
  obtain ⟨⟨sm, _ | _⟩, hg, ⟨⟩⟩ := h <;> exact .inr ⟨_, hg⟩

section Chain

variable {headerOf : UInt64 → Header} {sm0 : SnapshotManager} {kept : Hash → Prop}

/-- The parent snapshot `ProcessBlock` takes for a chain block on its parent's hash, read or the
genesis fallback at block 1, is the replayed snapshot of the parent. -/
theorem parent_replayed (hnum : ∀ n, (headerOf n).number = n)
    (hs : m.snapshots.ChainStore headerOf
      (te.replay headerOf (sm0.getGenesisSnapshot (headerOf 0).hash) sm0) sm0.otsEnabled kept)
    {n : UInt64} (hn0 : 0 < n.toNat) {sm : SnapshotManager} {P : Snapshot}
    (hread : m.snapshots.getSnapshot (headerOf (n - 1)).hash = some (sm, .ok P) ∨
      ∃ err, m.snapshots.getSnapshot (headerOf (n - 1)).hash = some (sm, .error err) ∧
        (headerOf n).number = 1 ∧ P = sm.getGenesisSnapshot (headerOf (n - 1)).hash) :
    te.replay headerOf (sm0.getGenesisSnapshot (headerOf 0).hash) sm0 (n.toNat - 1) = some P := by
  rcases hread with hg | ⟨_, hg, h1, rfl⟩
  · obtain h | ⟨_, ⟨⟩, h⟩ := (hs.getSnapshot hg).2 (n - 1) rfl
    · cases h
    · rwa [u64_toNat_sub_one hn0] at h
  · obtain rfl : n = 1 := (hnum n).symm.trans h1
    rw [SnapshotManager.getGenesisSnapshot_congr (hs.getSnapshot hg).1.enabled]
    rfl

/-- **`ProcessBlock` keeps the invariant** for a block of the chain after genesis on its
parent's hash, and for a block off the chain on any parent; of a chain block on its parent's
hash it returns the replayed snapshot. -/
theorem processBlock_chainStore (hnum : ∀ n, (headerOf n).number = n)
    (hinj : ∀ n n', (headerOf n).hash = (headerOf n').hash → n = n') (he : m.engine = some te)
    (hs : m.snapshots.ChainStore headerOf
      (te.replay headerOf (sm0.getGenesisSnapshot (headerOf 0).hash) sm0) sm0.otsEnabled kept)
    {header : Header} {parentHash : Hash} {sm' : SnapshotManager}
    {r : Except Error (Option Snapshot)} (hon : ProcessesOnChain headerOf header parentHash)
    (hp : m.processBlock header parentHash = some (sm', r)) :
    sm'.ChainStore headerOf
        (te.replay headerOf (sm0.getGenesisSnapshot (headerOf 0).hash) sm0) sm0.otsEnabled kept ∧
      ∀ n : UInt64, 0 < n.toNat → header = headerOf n → parentHash = (headerOf (n - 1)).hash →
        ∀ S, r = .ok (some S) →
          te.replay headerOf (sm0.getGenesisSnapshot (headerOf 0).hash) sm0 n.toNat = some S := by
  obtain ⟨-, rfl, rfl⟩ | ⟨err, hg, rfl⟩ | ⟨sm, P, S, hread, hpb, rfl⟩ := processBlock_cases he hp
  · exact ⟨hs, fun _ _ _ _ _ h => nomatch h⟩
  · exact ⟨(hs.getSnapshot hg).1, fun _ _ _ _ _ h => nomatch h⟩
  have hsm : sm.ChainStore headerOf
      (te.replay headerOf (sm0.getGenesisSnapshot (headerOf 0).hash) sm0) sm0.otsEnabled kept := by
    obtain hg | ⟨_, hg, -⟩ := hread <;> exact (hs.getSnapshot hg).1
  have hanswer : ∀ n : UInt64, 0 < n.toNat → header = headerOf n →
      parentHash = (headerOf (n - 1)).hash →
        te.replay headerOf (sm0.getGenesisSnapshot (headerOf 0).hash) sm0 n.toNat = some S := by
    rintro n hn0 rfl rfl
    exact processBlock_replayed hn0 (parent_replayed hnum hs hn0 hread) hpb
  refine ⟨?_, fun n hn0 hh hpar S' hS' => by cases hS'; exact hanswer n hn0 hh hpar⟩
  rcases hon with ⟨n, hn0, hh, hpar⟩ | hoff
  · exact hsm.processBlock hpb (storable_replay hnum hinj (u64_toNat_lt n) (hanswer n hn0 hh hpar))
  · exact hsm.processBlock hpb (.of_off_chain fun n h =>
      hoff n (h.trans (TransitionEngine.processBlock_stores hpb).1))

/-- **`RebuildFromChain` keeps the invariant** on the chain's headers: it rebuilds from the
genesis snapshot or a replayed checkpoint, and force-stores a replayed snapshot. -/
theorem rebuildFromChain_chainStore (hnum : ∀ n, (headerOf n).number = n)
    (hinj : ∀ n n', (headerOf n).hash = (headerOf n').hash → n = n') (he : m.engine = some te)
    (hget : m.getHeaderByNumber = some fun n => some (headerOf n))
    (hs : m.snapshots.ChainStore headerOf
      (te.replay headerOf (sm0.getGenesisSnapshot (headerOf 0).hash) sm0) sm0.otsEnabled kept)
    {fromBlock toBlock : UInt64} {sm' : SnapshotManager} {err : Option Error}
    (hr : m.rebuildFromChain fromBlock toBlock = some (sm', err)) :
    sm'.ChainStore headerOf
      (te.replay headerOf (sm0.getGenesisSnapshot (headerOf 0).hash) sm0) sm0.otsEnabled kept := by
  rw [rebuildFromChain, he, hget] at hr
  simp only [Option.map_some', Option.getD_some] at hr
  rw [Option.bind_eq_some] at hr
  obtain ⟨⟨sm1, S⟩, hf, hr⟩ := hr
  obtain ⟨hs1, hS⟩ := hs.findNearestSnapshot hf
  obtain ⟨j, hj, hjS⟩ : ∃ j, j + 1 < 2 ^ 64 ∧
      te.replay headerOf (sm0.getGenesisSnapshot (headerOf 0).hash) sm0 j = some S := by
    rcases hS with rfl | ⟨j, hj, -, hjS⟩
    · exact ⟨0, by norm_num, by rw [SnapshotManager.getGenesisSnapshot_congr hs.enabled]; rfl⟩
    · exact ⟨j, hj, hjS⟩
  rw [Option.bind_eq_some] at hr
  obtain ⟨⟨sm2, r⟩, hrb, hr⟩ := hr
  obtain ⟨hs2, k, S', hk, hkS, rfl⟩ := rebuildState_chainStore hnum hinj hj hjS toBlock hs1 hrb
  dsimp only at hr
  rw [Option.map_eq_some'] at hr
  obtain ⟨sm3, hfs, ⟨⟩⟩ := hr
  exact hs2.forceStore (storable_replay hnum hinj hk hkS) hfs

/-- `ValidateOTSSystemTx` on a chain block's hash is off and accepts, fails to read the block, or
checks the transaction against the replayed state of the block. -/
theorem validateOTSSystemTx_replay (hnum : ∀ n, (headerOf n).number = n)
    (hs : m.snapshots.ChainStore headerOf
      (te.replay headerOf (sm0.getGenesisSnapshot (headerOf 0).hash) sm0) sm0.otsEnabled kept)
    {n : UInt64} {tx : Transaction} {sm : SnapshotManager} {r : Option Error}
    (h : m.validateOTSSystemTx tx (headerOf n).hash = some (sm, r)) :
    m.enabled = false ∧ r = none ∨ r = some .snapshotNotFound ∨
      ∃ S st, te.replay headerOf (sm0.getGenesisSnapshot (headerOf 0).hash) sm0 n.toNat = some S ∧
        S.state = some st ∧ r = m.validateCall tx st := by
  unfold validateOTSSystemTx at h
  split_ifs at h with hen
  · cases h
    exact .inl ⟨by simpa using hen, rfl⟩
  rw [Option.map_eq_some'] at h
  obtain ⟨⟨sm', rd⟩, hg, he⟩ := h
  obtain rfl | ⟨S, rfl, hS⟩ := (hs.getSnapshot hg).2 n rfl
  · cases he
    exact .inr (.inl rfl)
  · obtain ⟨st, hst⟩ := Option.isSome_iff_exists.mp (replay_state hnum (u64_toNat_lt n) hS)
    dsimp only at he
    rw [hst] at he
    cases he
    exact .inr (.inr ⟨S, st, hS, hst, rfl⟩)

end Chain

end OTSConsensusManager

/-! ## A node's history -/

/-- A call a node makes to its consensus manager, or a change of its cache. The reads of
`GetSnapshot`, `GetCurrentState`, `GetBatchState` and `GetStats` are `getSnapshot`; an eviction
by the LRU cache is `evict`; a restart over the same database is `clear`. -/
inductive NodeOp where
  | processBlock (header : Header) (parentHash : Hash)
  | getSystemTransactions (header : Header) (parentHash : Hash) (coinbase : Address)
      (getNonce : Address → UInt64)
  | validateOTSSystemTx (tx : Transaction) (parentHash : Hash)
  | rebuildFromChain (fromBlock toBlock : UInt64)
  | getSnapshot (hash : Hash)
  | deleteSnapshot (hash : Hash)
  | evict (hash : Hash)
  | clear

namespace NodeOp

/-- The snapshot manager a call leaves; `none` where the call does not return. -/
def apply : NodeOp → OTSConsensusManager → Option SnapshotManager
  | .processBlock header parentHash, m => (m.processBlock header parentHash).map Prod.fst
  | .getSystemTransactions header parentHash coinbase getNonce, m =>
    (m.getSystemTransactions header parentHash coinbase getNonce).map Prod.fst
  | .validateOTSSystemTx tx parentHash, m => (m.validateOTSSystemTx tx parentHash).map Prod.fst
  | .rebuildFromChain fromBlock toBlock, m => (m.rebuildFromChain fromBlock toBlock).map Prod.fst
  | .getSnapshot hash, m => (m.snapshots.getSnapshot hash).map Prod.fst
  | .deleteSnapshot hash, m => some (m.snapshots.deleteSnapshot hash)
  | .evict hash, m => some (m.snapshots.evict hash)
  | .clear, m => some m.snapshots.clear

/-- The manager after the calls `ops`, in order; `none` where one does not return. -/
def run : List NodeOp → OTSConsensusManager → Option OTSConsensusManager
  | [], m => some m
  | op :: ops, m => (op.apply m).bind fun sm => run ops { m with snapshots := sm }

/-- A call of a node on the chain `headerOf` that deletes no snapshot under a hash `kept`
names. -/
def OnChain (headerOf : UInt64 → Header) (kept : Hash → Prop) : NodeOp → Prop
  | .processBlock header parentHash =>
    OTSConsensusManager.ProcessesOnChain headerOf header parentHash
  | .deleteSnapshot hash => ¬kept hash
  | _ => True

section Run

variable {te : TransitionEngine} {headerOf : UInt64 → Header} {sm0 : SnapshotManager}
  {kept : Hash → Prop}

/-- **Every call keeps the invariant** on a manager that runs the chain's engine over the
chain's headers. -/
theorem apply_chainStore (hnum : ∀ n, (headerOf n).number = n)
    (hinj : ∀ n n', (headerOf n).hash = (headerOf n').hash → n = n') {op : NodeOp}
    (hop : op.OnChain headerOf kept) {m : OTSConsensusManager} (he : m.engine = some te)
    (hget : m.getHeaderByNumber = some fun n => some (headerOf n))
    (hs : m.snapshots.ChainStore headerOf
      (te.replay headerOf (sm0.getGenesisSnapshot (headerOf 0).hash) sm0) sm0.otsEnabled kept)
    {sm' : SnapshotManager} (h : op.apply m = some sm') :
    sm'.ChainStore headerOf
      (te.replay headerOf (sm0.getGenesisSnapshot (headerOf 0).hash) sm0) sm0.otsEnabled kept := by
  cases op with
  | processBlock header parentHash =>
    obtain ⟨⟨_, _⟩, hp, rfl⟩ := Option.map_eq_some'.mp h
    exact (OTSConsensusManager.processBlock_chainStore hnum hinj he hs hop hp).1
  | getSystemTransactions header parentHash coinbase getNonce =>
    obtain ⟨⟨_, _⟩, hp, rfl⟩ := Option.map_eq_some'.mp h
    obtain ⟨rfl, -⟩ | ⟨_, hg, -⟩ := OTSConsensusManager.getSystemTransactions_cases hp
    exacts [hs, (hs.getSnapshot hg).1]
  | validateOTSSystemTx tx parentHash =>
    obtain ⟨⟨_, _⟩, hp, rfl⟩ := Option.map_eq_some'.mp h
    obtain rfl | ⟨_, hg⟩ := OTSConsensusManager.validateOTSSystemTx_reads hp
    exacts [hs, (hs.getSnapshot hg).1]
  | rebuildFromChain fromBlock toBlock =>
    obtain ⟨⟨_, _⟩, hp, rfl⟩ := Option.map_eq_some'.mp h
    exact OTSConsensusManager.rebuildFromChain_chainStore hnum hinj he hget hs hp
  | getSnapshot hash =>
    obtain ⟨⟨_, _⟩, hp, rfl⟩ := Option.map_eq_some'.mp h
    exact (hs.getSnapshot hp).1
  | deleteSnapshot hash =>
    cases h
    exact hs.deleteSnapshot hop
  | evict hash =>
    cases h
    exact hs.evict hash
  | clear =>
    cases h
    exact hs.clear

/-- **Every run keeps the invariant**, and changes only the snapshot manager. -/
theorem run_chainStore (hnum : ∀ n, (headerOf n).number = n)
    (hinj : ∀ n n', (headerOf n).hash = (headerOf n').hash → n = n') :
    ∀ {ops : List NodeOp} {m m' : OTSConsensusManager}, run ops m = some m' →
      (∀ op ∈ ops, op.OnChain headerOf kept) → m.engine = some te →
      m.getHeaderByNumber = some (fun n => some (headerOf n)) →
      m.snapshots.ChainStore headerOf
        (te.replay headerOf (sm0.getGenesisSnapshot (headerOf 0).hash) sm0) sm0.otsEnabled kept →
      ∃ sm', m' = { m with snapshots := sm' } ∧
        sm'.ChainStore headerOf
          (te.replay headerOf (sm0.getGenesisSnapshot (headerOf 0).hash) sm0) sm0.otsEnabled kept
  | [], m, _, h, _, _, _, hs => by
    cases h
    exact ⟨m.snapshots, rfl, hs⟩
  | op :: _, _, _, h, hops, he, hget, hs => by
    obtain ⟨sm, hsm, h⟩ := Option.bind_eq_some.mp h
    obtain ⟨sm', rfl, hs'⟩ := run_chainStore hnum hinj h (fun op' h' => hops op' (.tail _ h'))
      he hget (apply_chainStore hnum hinj (hops op (.head _)) he hget hs hsm)
    exact ⟨sm', rfl, hs'⟩

end Run

end NodeOp

/-- **Two nodes on one chain agree on proposals, whatever their histories.** Take two managers
that run one engine over one chain numbered by its blocks with distinct hashes, with one genesis
flag, each holding only replayed snapshots. After any sequence of calls on each, a transaction
the first proposes in `GetSystemTransactions` on a chain block is accepted by the second's
`ValidateOTSSystemTx` on that block, unless the second has no snapshot of it: both read the
replayed snapshot of the block, and the proposal was built for its batch. -/
theorem nodes_agree_on_proposals {te : TransitionEngine} {headerOf : UInt64 → Header}
    (hnum : ∀ n, (headerOf n).number = n)
    (hinj : ∀ n n', (headerOf n).hash = (headerOf n').hash → n = n')
    {A B A' B' : OTSConsensusManager} (heA : A.engine = some te) (heB : B.engine = some te)
    (hgetA : A.getHeaderByNumber = some fun n => some (headerOf n))
    (hgetB : B.getHeaderByNumber = some fun n => some (headerOf n))
    (hflag : A.snapshots.otsEnabled = B.snapshots.otsEnabled)
    (hA : A.snapshots.HoldsReplay headerOf
      (te.replay headerOf (A.snapshots.getGenesisSnapshot (headerOf 0).hash) A.snapshots))
    (hB : B.snapshots.HoldsReplay headerOf
      (te.replay headerOf (B.snapshots.getGenesisSnapshot (headerOf 0).hash) B.snapshots))
    {opsA opsB : List NodeOp} (hopsA : ∀ op ∈ opsA, op.OnChain headerOf fun _ => False)
    (hopsB : ∀ op ∈ opsB, op.OnChain headerOf fun _ => False)
    (hrunA : NodeOp.run opsA A = some A') (hrunB : NodeOp.run opsB B = some B')
    {n : UInt64} {header : Header} {coinbase : Address} {getNonce : Address → UInt64}
    {sm : SnapshotManager} {txs : List Transaction}
    (hs : A'.getSystemTransactions header (headerOf n).hash coinbase getNonce = some (sm, txs))
    {tx : Transaction} (htx : tx ∈ txs) {smB : SnapshotManager} {r : Option Error}
    (hv : B'.validateOTSSystemTx tx (headerOf n).hash = some (smB, r)) :
    r = none ∨ r = some .snapshotNotFound := by
  obtain ⟨smA, rfl, hsA⟩ :=
    NodeOp.run_chainStore hnum hinj hrunA hopsA heA hgetA ⟨rfl, hA, fun _ h => False.elim h⟩
  obtain ⟨smB', rfl, hsB⟩ :=
    NodeOp.run_chainStore hnum hinj hrunB hopsB heB hgetB ⟨rfl, hB, fun _ h => False.elim h⟩
  rcases OTSConsensusManager.getSystemTransactions_cases hs with
    ⟨-, rfl⟩ | ⟨_, hg, rfl | ⟨hen, snap, rfl⟩⟩
  · exact absurd htx (List.not_mem_nil _)
  · exact absurd htx (List.not_mem_nil _)
  obtain ⟨st, b, call, hst, hb, hstatus, hf⟩ :=
    (OTSConsensusManager.proposals_fit _ hen hg hs).2 tx htx
  obtain h | ⟨S, ⟨⟩, hS⟩ := (hsA.getSnapshot hg).2 n rfl
  · cases h
  obtain ⟨-, rfl⟩ | rfl | ⟨S', st', hS', hst', rfl⟩ :=
    OTSConsensusManager.validateOTSSystemTx_replay hnum hsB hv
  · exact .inl rfl
  · exact .inr rfl
  have hsame : te.replay headerOf (B.snapshots.getGenesisSnapshot (headerOf 0).hash) B.snapshots =
      te.replay headerOf (A.snapshots.getGenesisSnapshot (headerOf 0).hash) A.snapshots := by
    rw [SnapshotManager.getGenesisSnapshot_congr hflag.symm]
    exact funext (replay_manager _ _ _)
  obtain rfl : snap = S' := Option.some.inj (by rw [← hS', ← hS, hsame])
  obtain rfl : st = st' := Option.some.inj (hst.symm.trans hst')
  exact .inl ((OTSConsensusManager.validateCall_eq_none_iff _ hf.selector st).mpr
    ⟨hf.length, b, hb, hstatus, hf.agrees⟩)

/-- On the chain whose block `n` has the hash `uint64Word n` and falls on day `n`, one node
imports blocks 1 and 2, which triggers a batch, and proposes its `otsSubmitted` call on block 2;
another imports block 1, restarts and rebuilds to block 2, and its verdict is the theorem's. -/
theorem restarted_node_judges_proposal :
    let headerOf : UInt64 → Header := fun n =>
      ⟨n, ⟨uint64Word n, length_uint64Word n⟩, ByteVec.zero 32, 86400 * n, ByteVec.zero 20⟩
    let te : TransitionEngine :=
      ⟨fun _ _ => [], fun _ k => some (headerOf k), fun _ => ByteVec.zero 32⟩
    let B := (OTSConsensusManager.new (fun _ => none) true (ByteVec.zero 20) 0).setChainAccessors
      te.keccak256 te.getReceipts te.getHeader fun n => some (headerOf n)
    let A := B.setOTSClient ⟨fun _ => .ok ([], ByteVec.zero 32), fun _ => .ok none⟩
    let opsA :=
      [NodeOp.processBlock (headerOf 1) (headerOf 0).hash, .processBlock (headerOf 2) (headerOf 1).hash]
    let opsB := [NodeOp.processBlock (headerOf 1) (headerOf 0).hash, .clear, .rebuildFromChain 0 2]
    ∃ A' B' sm tx smB r, NodeOp.run opsA A = some A' ∧ NodeOp.run opsB B = some B' ∧
      A'.getSystemTransactions (headerOf 3) (headerOf 2).hash (ByteVec.zero 20) (fun _ => 0) =
        some (sm, [tx]) ∧
      B'.validateOTSSystemTx tx (headerOf 2).hash = some (smB, r) ∧
      (r = none ∨ r = some .snapshotNotFound) := by
  intro headerOf te B A opsA opsB
  have hinj : ∀ n n', (headerOf n).hash = (headerOf n').hash → n = n' :=
    fun _ _ h => uint64Word_hash_injective h
  have hopsA : ∀ op ∈ opsA, op.OnChain headerOf fun _ => False := by
    simp only [opsA, List.forall_mem_cons, List.not_mem_nil, IsEmpty.forall_iff,
      implies_true, and_true]
    exact ⟨Or.inl ⟨1, by decide, rfl, rfl⟩, Or.inl ⟨2, by decide, rfl, rfl⟩⟩
  have hopsB : ∀ op ∈ opsB, op.OnChain headerOf fun _ => False := by
    simp only [opsB, List.forall_mem_cons, List.not_mem_nil, IsEmpty.forall_iff,
      implies_true, and_true]
    exact ⟨Or.inl ⟨1, by decide, rfl, rfl⟩, trivial, trivial⟩
  obtain ⟨A', hA'⟩ := Option.isSome_iff_exists.mp (show (NodeOp.run opsA A).isSome by decide)
  obtain ⟨B', hB'⟩ := Option.isSome_iff_exists.mp (show (NodeOp.run opsB B).isSome by decide)
  have h : ((NodeOp.run opsA A).bind fun A' => (NodeOp.run opsB B).bind fun B' =>
      (A'.getSystemTransactions (headerOf 3) (headerOf 2).hash (ByteVec.zero 20) fun _ => 0).bind
        fun p => match p.2 with
          | [tx] => (B'.validateOTSSystemTx tx (headerOf 2).hash).map fun q => q.2.isNone
          | _ => none).isSome := by decide
  rw [hA', hB', Option.some_bind, Option.some_bind] at h
  obtain ⟨v, h⟩ := Option.isSome_iff_exists.mp h
  obtain ⟨⟨sm, txs⟩, hs, h⟩ := Option.bind_eq_some.mp h
  rcases txs with _ | ⟨tx, _ | ⟨_, _⟩⟩
  · cases h
  · obtain ⟨⟨smB, r⟩, hv, -⟩ := Option.map_eq_some'.mp h
    exact ⟨A', B', sm, tx, smB, r, hA', hB', hs, hv, nodes_agree_on_proposals (fun _ => rfl) hinj
      (rfl : A.engine = some te) (rfl : B.engine = some te) rfl rfl
      (rfl : A.snapshots.otsEnabled = B.snapshots.otsEnabled)
      (SnapshotManager.HoldsReplay.new_empty true) (SnapshotManager.HoldsReplay.new_empty true) hopsA hopsB hA' hB' hs
      (List.mem_singleton_self tx) hv⟩
  · cases h

/-- **After `RebuildFromChain` to block `t`, block import resumes at `t + 1`.** On a chain
numbered by its blocks with distinct hashes, let a manager that is on, runs the chain's engine over
the chain's headers and holds only replayed snapshots rebuild from a block up to `t`, below the
largest block number. After any further calls that delete no snapshot of `t`, evictions and
restarts included, `ProcessBlock` of block `t + 1` on `t`'s hash returns the replayed snapshot of
`t + 1`: the rebuild persisted the snapshot of `t`. -/
theorem rebuild_resumes_import {te : TransitionEngine} {headerOf : UInt64 → Header}
    (hnum : ∀ n, (headerOf n).number = n)
    (hinj : ∀ n n', (headerOf n).hash = (headerOf n').hash → n = n')
    {M M' : OTSConsensusManager} (he : M.engine = some te) (hen : M.enabled = true)
    (hget : M.getHeaderByNumber = some fun n => some (headerOf n))
    (h0 : M.snapshots.HoldsReplay headerOf
      (te.replay headerOf (M.snapshots.getGenesisSnapshot (headerOf 0).hash) M.snapshots))
    {fromBlock t : UInt64} (hft : fromBlock ≤ t) (ht : t.toNat < 2 ^ 64 - 1)
    {ops : List NodeOp} (hops : ∀ op ∈ ops, op.OnChain headerOf fun h => h = (headerOf t).hash)
    (hrun : NodeOp.run (.rebuildFromChain fromBlock t :: ops) M = some M') :
    ∃ sm S, M'.processBlock (headerOf (t + 1)) (headerOf t).hash = some (sm, .ok (some S)) ∧
      te.replay headerOf (M.snapshots.getGenesisSnapshot (headerOf 0).hash) M.snapshots
        (t.toNat + 1) = some S := by
  obtain ⟨St, sm1, sm2, hSt, hfs, hrb⟩ :=
    M.rebuildFromChain_replay hnum he hget rfl h0 fromBlock t hft ht
  obtain ⟨sm, hsm, hrun⟩ := Option.bind_eq_some.mp hrun
  obtain rfl : sm2 = sm := by simpa [NodeOp.apply, hrb] using hsm
  have hs2 : sm2.ChainStore headerOf
      (te.replay headerOf (M.snapshots.getGenesisSnapshot (headerOf 0).hash) M.snapshots)
      M.snapshots.otsEnabled fun h => h = (headerOf t).hash := by
    have hs := OTSConsensusManager.rebuildFromChain_chainStore hnum hinj he hget
      ⟨rfl, h0, fun _ h => False.elim h⟩ hrb
    refine ⟨hs.enabled, hs.holds, ?_⟩
    rintro _ rfl
    have := SnapshotManager.forceStore_persisted hfs
    rwa [replay_hash rfl hSt, u64_ofNat_toNat] at this
  obtain ⟨sm', rfl, hs'⟩ := NodeOp.run_chainStore hnum hinj hrun hops he hget hs2
  obtain ⟨sm3, P, hg, hP⟩ :=
    hs'.getSnapshot_kept rfl fun S hS => replay_state hnum (u64_toNat_lt t) hS
  obtain ⟨S, hS, -⟩ : ∃ S, te.replay headerOf (M.snapshots.getGenesisSnapshot (headerOf 0).hash)
      M.snapshots (t.toNat + 1) = some S ∧ _ := replay_reachable hnum (t.toNat + 1) (by omega)
  have hp := hS
  rw [TransitionEngine.replay, hP, Option.some_bind, te.processBlock_map_fst _ _ _ sm3,
    ← u64_toNat_add_one (by omega), u64_ofNat_toNat] at hp
  obtain ⟨⟨_, sm4⟩, hp', rfl⟩ := Option.map_eq_some'.mp hp
  refine ⟨sm4, _, ?_, hS⟩
  simp only [OTSConsensusManager.processBlock, he, hen, if_true, hg, Option.some_bind, hp',
    Option.map_some']

/-- On the chain whose block `n` has the hash `uint64Word n`, a manager that holds nothing
rebuilds to block 1 and evicts and restarts its cache; `ProcessBlock` of block 2 then returns the
replayed snapshot. -/
theorem import_after_rebuild_and_restart :
    let headerOf : UInt64 → Header :=
      fun n => ⟨n, ⟨uint64Word n, length_uint64Word n⟩, ByteVec.zero 32, 0, ByteVec.zero 20⟩
    let te : TransitionEngine := ⟨fun _ _ => [], fun _ _ => none, fun _ => ByteVec.zero 32⟩
    let M := (OTSConsensusManager.new (fun _ => none) true (ByteVec.zero 20) 0).setChainAccessors
      te.keccak256 te.getReceipts te.getHeader fun n => some (headerOf n)
    ∃ M', NodeOp.run [.rebuildFromChain 0 1, .evict (headerOf 1).hash, .clear] M = some M' ∧
      ∃ sm S, M'.processBlock (headerOf 2) (headerOf 1).hash = some (sm, .ok (some S)) ∧
        te.replay headerOf (M.snapshots.getGenesisSnapshot (headerOf 0).hash) M.snapshots 2 =
          some S := by
  intro headerOf te M
  have hinj : ∀ n n', (headerOf n).hash = (headerOf n').hash → n = n' :=
    fun _ _ h => uint64Word_hash_injective h
  obtain ⟨M', hrun⟩ := Option.isSome_iff_exists.mp
    (show (NodeOp.run [.rebuildFromChain 0 1, .evict (headerOf 1).hash, .clear] M).isSome by decide)
  exact ⟨M', hrun, rebuild_resumes_import (fun _ => rfl) hinj rfl rfl rfl
    (SnapshotManager.HoldsReplay.new_empty true) (by decide)
    (by decide) (fun op hop => by
      simp only [List.mem_cons, List.mem_singleton, List.not_mem_nil, or_false] at hop
      rcases hop with rfl | rfl <;> trivial) hrun⟩

end Ots

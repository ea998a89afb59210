import OtsConsensus.Store
import OtsConsensus.Decode

/-!
# The snapshot manager: reads, and what every run of calls keeps

`GetSnapshot`, `HasSnapshot`, `FindNearestSnapshot` and `loadFromDB` of `snapshot.go`. A read
that misses the cache loads the snapshot from the database and adds the decoded value to the
cache, so reads change the manager as well.

A run is any sequence of calls and cache evictions (`StoreOp`). Beside the manager, a run keeps a
record per hash (`Stored`): the most recent store since the last delete, with whether it was
persisted, and the most recent persisted snapshot since the last delete. `EntryInv` says how the
cached entry and the database entry of one hash stand to its record. Every call changes the
entries of at most one hash and keeps `EntryInv` there, so every run from a database without
snapshots keeps it at every hash (`StoreOp.run_inv`); what a read returns follows from it.

`FindNearestSnapshot` returns what it finds at the largest candidate that has a snapshot, or the
genesis snapshot when none has; a snapshot found without a state
cannot be copied.
-/

namespace Ots

namespace SnapshotManager

/-- `loadFromDB(hash)`: a missing key is `ErrSnapshotNotFound`. -/
def loadFromDB (sm : SnapshotManager) (hash : Hash) : Except Error Snapshot :=
  match sm.db (snapshotKey hash) with
  | some data => decodeSnapshot data
  | none => .error .snapshotNotFound

/-- `GetSnapshot(hash)`: a copy of the cached snapshot, else of the one in the database, which
is then cached. -/
def getSnapshot (sm : SnapshotManager) (hash : Hash) :
    Option (SnapshotManager × Except Error Snapshot) :=
  match sm.cache hash with
  | some snap => snap.copy.map fun c => (sm, .ok c)
  | none =>
    match sm.loadFromDB hash with
    | .ok snap => snap.copy.map fun c => (sm.cacheAdd hash snap, .ok c)
    | .error e => some (sm, .error e)

/-- `HasSnapshot(hash)`. -/
def hasSnapshot (sm : SnapshotManager) (hash : Hash) : Bool :=
  (sm.cache hash).isSome || (sm.db (snapshotKey hash)).isSome

/-- The loop of `FindNearestSnapshot` over the candidates `k * interval`, …, `interval`: a copy
of the snapshot of the first candidate whose hash is not zero and whose snapshot is cached or
loads; `none` in the second component when no candidate has one. -/
def searchBack (sm : SnapshotManager) (getHash : UInt64 → Hash) :
    Nat → Option (SnapshotManager × Option Snapshot)
  | 0 => some (sm, none)
  | k + 1 =>
    let hash := getHash (UInt64.ofNat ((k + 1) * snapshotPersistInterval.toNat))
    if hash = ByteVec.zero 32 then sm.searchBack getHash k else
    match sm.cache hash with
    | some snap => snap.copy.map fun c => (sm, some c)
    | none =>
      match sm.loadFromDB hash with
      | .ok snap => snap.copy.map fun c => (sm.cacheAdd hash snap, some c)
      | .error _ => sm.searchBack getHash k

/-- `FindNearestSnapshot(targetNumber, getHash)`: the search from the largest multiple of the
interval not above the target, else the genesis snapshot. It never returns an error. -/
def findNearestSnapshot (sm : SnapshotManager) (targetNumber : UInt64)
    (getHash : UInt64 → Hash) : Option (SnapshotManager × Snapshot) :=
  (sm.searchBack getHash (targetNumber / snapshotPersistInterval).toNat).map fun r =>
    (r.1, r.2.getD (sm.getGenesisSnapshot (getHash 0)))

end SnapshotManager

/-- Distinct hashes have distinct database keys. -/
theorem snapshotKey_injective : Function.Injective snapshotKey := fun _ _ h =>
  ByteVec.ext_bytes (List.append_cancel_left h)

/-! ## Runs of calls -/

/-- A call on the snapshot manager, or an eviction by its cache. -/
inductive StoreOp where
  | store (snap : Snapshot)
  | forceStore (snap : Snapshot)
  | get (hash : Hash)
  | has (hash : Hash)
  | findNearest (targetNumber : UInt64) (getHash : UInt64 → Hash)
  | delete (hash : Hash)
  | clear
  | evict (hash : Hash)

namespace StoreOp

/-- The manager after a call; `none` where the call panics. -/
def apply : StoreOp → SnapshotManager → Option SnapshotManager
  | .store snap, sm => sm.storeSnapshot snap
  | .forceStore snap, sm => sm.forceStore snap
  | .get hash, sm => (sm.getSnapshot hash).map Prod.fst
  | .has _, sm => some sm
  | .findNearest targetNumber getHash, sm =>
    (sm.findNearestSnapshot targetNumber getHash).map Prod.fst
  | .delete hash, sm => some (sm.deleteSnapshot hash)
  | .clear, sm => some sm.clear
  | .evict hash, sm => some (sm.evict hash)

/-- A run of calls; `none` if one of them panics. -/
def run : List StoreOp → SnapshotManager → Option SnapshotManager
  | [], sm => some sm
  | op :: ops, sm => (op.apply sm).bind (run ops)

end StoreOp

/-- What a run has stored under one hash since its last delete: the most recent store, with
whether it was persisted, and the most recent persisted snapshot. -/
structure Stored where
  last : Option (Snapshot × Bool)
  persisted : Option Snapshot

/-- The record after a store of `snap`. -/
def Stored.store (r : Stored) (snap : Snapshot) (persist : Bool) : Stored :=
  ⟨some (snap, persist), if persist then some snap else r.persisted⟩

/-- The record of a hash never stored, or deleted. -/
def Stored.empty : Stored := ⟨none, none⟩

namespace StoreOp

/-- The records after a call. -/
def record : StoreOp → (Hash → Stored) → Hash → Stored
  | .store snap, g => Function.update g snap.hash
    ((g snap.hash).store snap (snap.number % snapshotPersistInterval = 0))
  | .forceStore snap, g => Function.update g snap.hash ((g snap.hash).store snap true)
  | .delete hash, g => Function.update g hash Stored.empty
  | _, g => g

/-- The records after a run. -/
def records : List StoreOp → (Hash → Stored) → Hash → Stored
  | [], g => g
  | op :: ops, g => records ops (op.record g)

end StoreOp

/-! ## The invariant of one hash -/

/-- How the cached entry and the database entry of one hash stand to its record. A cached
snapshot is the last one stored or the decoded persisted one. -/
structure EntryInv (r : Stored) (cached : Option Snapshot) (stored : Option (List UInt8)) :
    Prop where
  db : stored = r.persisted.map Snapshot.encode
  persisted_state : ∀ s, r.persisted = some s → s.state.isSome
  persisted_stored : r.last = none → r.persisted = none
  last_persisted : ∀ s, r.last = some (s, true) → r.persisted = some s
  cache : ∀ c, cached = some c → c.state.isSome ∧
    ((∃ p, r.last = some (c, p)) ∨ ∃ s, r.persisted = some s ∧ c = s.throughJson)

/-- The invariant at every hash. -/
def StoreInv (g : Hash → Stored) (sm : SnapshotManager) : Prop :=
  ∀ h, EntryInv (g h) (sm.cache h) (sm.db (snapshotKey h))

namespace EntryInv

variable {r : Stored} {cached : Option Snapshot} {stored : Option (List UInt8)}

/-- A hash never stored has no entries. -/
theorem empty : EntryInv Stored.empty none none :=
  ⟨rfl, nofun, fun _ => rfl, nofun, nofun⟩

/-- Evicting the cached entry keeps the invariant. -/
theorem evict (he : EntryInv r cached stored) : EntryInv r none stored :=
  { he with cache := nofun }

/-- Storing a snapshot with a state, and persisting it or not, keeps the invariant. -/
theorem store (he : EntryInv r cached stored) {snap : Snapshot} (persist : Bool)
    (hs : snap.state.isSome) :
    EntryInv (r.store snap persist) (some snap)
      (if persist then some snap.encode else stored) := by
  cases persist
  · exact ⟨he.db, he.persisted_state, nofun, nofun,
      fun _ hc => Option.some_inj.mp hc ▸ ⟨hs, .inl ⟨false, rfl⟩⟩⟩
  · refine ⟨rfl, fun s hp => ?_, nofun, fun _ hl => ?_, fun _ hc => ?_⟩
    · cases hp; exact hs
    · cases hl; rfl
    · cases hc; exact ⟨hs, .inl ⟨true, rfl⟩⟩

/-- A persisted snapshot read back from the database may be cached. -/
theorem readThrough (he : EntryInv r cached stored) {s : Snapshot} (hp : r.persisted = some s) :
    EntryInv r (some s.throughJson) stored := by
  refine { he with cache := fun c hc => ?_ }
  cases hc
  refine ⟨?_, .inr ⟨s, hp, rfl⟩⟩
  simpa [Snapshot.throughJson] using he.persisted_state s hp

/-- What the database gives for the hash. -/
theorem decode_stored (he : EntryInv r cached stored) :
    (match stored with
      | some data => decodeSnapshot data
      | none => .error .snapshotNotFound) =
    match r.persisted with
      | some s => .ok s.throughJson
      | none => .error .snapshotNotFound := by
  rw [he.db]
  cases r.persisted <;> simp only [Option.map_some', Option.map_none', decodeSnapshot_encode]

end EntryInv

section Frame

variable {g g' : Hash → Stored} {sm sm' : SnapshotManager}

/-- A call that changes the entries and the record of one hash only keeps the invariant if it
keeps it there. -/
theorem StoreInv.frame (hi : StoreInv g sm) (h : Hash)
    (hh : EntryInv (g' h) (sm'.cache h) (sm'.db (snapshotKey h)))
    (hg : ∀ h', h' ≠ h → g' h' = g h') (hc : ∀ h', h' ≠ h → sm'.cache h' = sm.cache h')
    (hd : ∀ h', h' ≠ h → sm'.db (snapshotKey h') = sm.db (snapshotKey h')) :
    StoreInv g' sm' := fun h' => by
  by_cases hh' : h' = h
  · exact hh' ▸ hh
  · rw [hg h' hh', hc h' hh', hd h' hh']
    exact hi h'

/-- An eviction keeps the invariant. -/
theorem StoreInv.evict (hi : StoreInv g sm) (h : Hash) : StoreInv g (sm.evict h) :=
  hi.frame h (by simpa [SnapshotManager.evict] using (hi h).evict) (fun _ _ => rfl)
    (fun _ hne => Function.update_noteq hne _ _) (fun _ _ => rfl)

/-- Purging the cache keeps the invariant. -/
theorem StoreInv.clear (hi : StoreInv g sm) : StoreInv g sm.clear := fun h =>
  (hi h).evict

/-- Caching the decoded persisted snapshot keeps the invariant. -/
theorem StoreInv.readThrough (hi : StoreInv g sm) {h : Hash} {s : Snapshot}
    (hp : (g h).persisted = some s) : StoreInv g (sm.cacheAdd h s.throughJson) :=
  hi.frame h (by simpa [SnapshotManager.cacheAdd] using (hi h).readThrough hp) (fun _ _ => rfl)
    (fun _ hne => Function.update_noteq hne _ _) (fun _ _ => rfl)

/-- Storing `snap`, persisted or not, as `StoreSnapshot` and `ForceStore` do. -/
theorem StoreInv.store (hi : StoreInv g sm) {snap : Snapshot} (persist : Bool)
    (hs : snap.state.isSome) :
    StoreInv (Function.update g snap.hash ((g snap.hash).store snap persist))
      (if persist then (sm.cacheAdd snap.hash snap).saveToDB snap
        else sm.cacheAdd snap.hash snap) := by
  refine hi.frame snap.hash ?_ (fun _ hne => Function.update_noteq hne _ _) ?_ ?_
  · have := (hi snap.hash).store persist hs
    cases persist <;> simpa [SnapshotManager.cacheAdd, SnapshotManager.saveToDB] using this
  all_goals intro h' hne; cases persist
  all_goals simp [SnapshotManager.cacheAdd, SnapshotManager.saveToDB, hne,
    snapshotKey_injective.ne hne]

/-- `DeleteSnapshot` keeps the invariant, the hash's record emptied. -/
theorem StoreInv.delete (hi : StoreInv g sm) (h : Hash) :
    StoreInv (Function.update g h Stored.empty) (sm.deleteSnapshot h) := by
  refine hi.frame h ?_ (fun _ hne => Function.update_noteq hne _ _)
    (fun _ hne => Function.update_noteq hne _ _)
    (fun _ hne => Function.update_noteq (snapshotKey_injective.ne hne) _ _)
  simpa [SnapshotManager.deleteSnapshot, SnapshotManager.evict] using EntryInv.empty

end Frame

/-! ## Reads under the invariant -/

/-- `Copy` succeeds exactly on a snapshot with a state, and returns it. -/
theorem Snapshot.copy_eq_some {s c : Snapshot} : s.copy = some c ↔ s.state.isSome ∧ c = s := by
  cases hs : s.state <;> simp [Snapshot.copy, hs, eq_comm]

/-- `Copy` of a snapshot with a state is the snapshot. -/
theorem Snapshot.copy_of_state {s : Snapshot} (h : s.state.isSome) : s.copy = some s :=
  Snapshot.copy_eq_some.mpr ⟨h, rfl⟩

/-- The loop body of `FindNearestSnapshot` is `GetSnapshot` at the candidate, where an error
moves on to the next candidate. -/
theorem SnapshotManager.searchBack_succ (sm : SnapshotManager) (getHash : UInt64 → Hash)
    (k : Nat) : sm.searchBack getHash (k + 1) =
      let hash := getHash (UInt64.ofNat ((k + 1) * snapshotPersistInterval.toNat))
      if hash = ByteVec.zero 32 then sm.searchBack getHash k else
      match sm.getSnapshot hash with
      | some (sm', .ok c) => some (sm', some c)
      | some (_, .error _) => sm.searchBack getHash k
      | none => none := by
  simp only [SnapshotManager.searchBack, SnapshotManager.getSnapshot]
  split_ifs
  · rfl
  · generalize getHash _ = hash
    cases sm.cache hash with
    | some snap => dsimp only; cases snap.copy <;> rfl
    | none =>
      dsimp only
      cases sm.loadFromDB hash with
      | ok snap => dsimp only; cases snap.copy <;> rfl
      | error _ => rfl

/-- A second read of a hash returns what the first did, from the cache. -/
theorem SnapshotManager.getSnapshot_again {sm sm' : SnapshotManager} {h : Hash} {s : Snapshot}
    (he : sm.getSnapshot h = some (sm', .ok s)) : sm'.getSnapshot h = some (sm', .ok s) := by
  unfold SnapshotManager.getSnapshot at he ⊢
  split at he
  · rename_i c hc
    obtain ⟨c', hc', he⟩ := Option.map_eq_some'.mp he
    cases he
    obtain ⟨_, rfl⟩ := Snapshot.copy_eq_some.mp hc'
    rw [hc]
    exact he
  · split at he
    · obtain ⟨c', hc', he⟩ := Option.map_eq_some'.mp he
      cases he
      obtain ⟨_, rfl⟩ := Snapshot.copy_eq_some.mp hc'
      simp [SnapshotManager.cacheAdd, hc']
    · cases he


section Reads

variable {g : Hash → Stored} {sm : SnapshotManager}

/-- Under the invariant, `loadFromDB` reads the decoded persisted snapshot, or nothing. -/
theorem StoreInv.loadFromDB (hi : StoreInv g sm) (h : Hash) :
    sm.loadFromDB h = match (g h).persisted with
      | some s => .ok s.throughJson
      | none => .error .snapshotNotFound :=
  (hi h).decode_stored

/-- **`GetSnapshot` under the invariant**: the cached snapshot, else the decoded persisted one,
which is then cached, else `ErrSnapshotNotFound`. It never panics. -/
theorem StoreInv.getSnapshot_eq (hi : StoreInv g sm) (h : Hash) :
    sm.getSnapshot h = match sm.cache h with
      | some c => some (sm, .ok c)
      | none => match (g h).persisted with
        | some s => some (sm.cacheAdd h s.throughJson, .ok s.throughJson)
        | none => some (sm, .error .snapshotNotFound) := by
  unfold SnapshotManager.getSnapshot
  rw [hi.loadFromDB]
  cases hc : sm.cache h with
  | some c => simp only [Snapshot.copy_of_state ((hi h).cache c hc).1, Option.map_some']
  | none =>
    cases hp : (g h).persisted with
    | some s =>
      simp only [Snapshot.copy_of_state (((hi h).readThrough hp).cache _ rfl).1, Option.map_some']
    | none => rfl

/-- A read keeps the invariant. -/
theorem StoreInv.getSnapshot (hi : StoreInv g sm) (h : Hash) {sm' : SnapshotManager}
    {r : Except Error Snapshot} (he : sm.getSnapshot h = some (sm', r)) : StoreInv g sm' := by
  rw [hi.getSnapshot_eq] at he
  split at he
  · cases he; exact hi
  · split at he <;> cases he
    · exact hi.readThrough (by assumption)
    · exact hi

/-- The search of `FindNearestSnapshot` keeps the invariant. -/
theorem StoreInv.searchBack (hi : StoreInv g sm) (getHash : UInt64 → Hash) :
    ∀ (k : Nat) {sm' : SnapshotManager} {r : Option Snapshot},
      sm.searchBack getHash k = some (sm', r) → StoreInv g sm'
  | 0, _, _, he => by cases he; exact hi
  | k + 1, _, _, he => by
    rw [SnapshotManager.searchBack_succ] at he
    dsimp only at he
    split_ifs at he
    · exact hi.searchBack getHash k he
    · split at he
      · cases he; exact hi.getSnapshot _ (by assumption)
      · exact hi.searchBack getHash k he
      · cases he

/-- A snapshot persisted since the last delete can be read, and is reported present. -/
theorem StoreInv.read_persisted (hi : StoreInv g sm) {h : Hash} {s : Snapshot}
    (hp : (g h).persisted = some s) :
    (∃ sm' snap, sm.getSnapshot h = some (sm', .ok snap)) ∧ sm.hasSnapshot h = true := by
  refine ⟨?_, by simp [SnapshotManager.hasSnapshot, (hi h).db, hp]⟩
  rw [hi.getSnapshot_eq, hp]
  cases sm.cache h <;> exact ⟨_, _, rfl⟩

/-- A hash with no store since its last delete reads as `ErrSnapshotNotFound`. -/
theorem StoreInv.read_unstored (hi : StoreInv g sm) {h : Hash} (hl : (g h).last = none) :
    sm.getSnapshot h = some (sm, .error .snapshotNotFound) := by
  have hp := (hi h).persisted_stored hl
  have hc : sm.cache h = none := by
    cases hc : sm.cache h with
    | none => rfl
    | some c => obtain ⟨_, ⟨_, h'⟩ | ⟨_, h', _⟩⟩ := (hi h).cache c hc <;> simp_all
  rw [hi.getSnapshot_eq, hc, hp]

/-- Where the last store was persisted, a read gives that snapshot or its decoded encoding. -/
theorem StoreInv.read_last_persisted (hi : StoreInv g sm) {h : Hash} {s : Snapshot}
    (hl : (g h).last = some (s, true)) :
    ∃ sm' snap, sm.getSnapshot h = some (sm', .ok snap) ∧
      (snap = s ∨ decodeSnapshot s.encode = .ok snap) := by
  have hp := (hi h).last_persisted s hl
  rw [hi.getSnapshot_eq, hp]
  cases hc : sm.cache h with
  | none => exact ⟨_, _, rfl, .inr (decodeSnapshot_encode s)⟩
  | some c =>
    refine ⟨_, _, rfl, ?_⟩
    obtain ⟨_, ⟨_, h'⟩ | ⟨_, h', rfl⟩⟩ := (hi h).cache c hc
    · rw [hl] at h'
      exact .inl (Prod.mk.inj (Option.some_inj.mp h')).1.symm
    · rw [hp] at h'
      cases h'
      exact .inr (decodeSnapshot_encode s)

end Reads

/-! ## Runs -/

namespace StoreOp

/-- The call stores a snapshot with hash `h`. -/
def StoresAt (h : Hash) : StoreOp → Prop
  | .store snap | .forceStore snap => snap.hash = h
  | _ => False

/-- The call persists `s`: `ForceStore(s)`, or `StoreSnapshot(s)` at a multiple of the
interval. -/
def PersistsAs (s : Snapshot) : StoreOp → Prop
  | .store snap => snap = s ∧ snap.number % snapshotPersistInterval = 0
  | .forceStore snap => snap = s
  | _ => False

/-- Every call keeps the invariant. -/
theorem apply_inv {g : Hash → Stored} {sm sm' : SnapshotManager} (op : StoreOp)
    (hi : StoreInv g sm) (he : op.apply sm = some sm') : StoreInv (op.record g) sm' := by
  cases op with
  | store snap =>
    obtain ⟨c, hc, rfl⟩ := Option.map_eq_some'.mp he
    obtain ⟨hs, rfl⟩ := Snapshot.copy_eq_some.mp hc
    have := hi.store (decide (c.number % snapshotPersistInterval = 0)) hs
    by_cases hn : c.number % snapshotPersistInterval = 0 <;> simpa [record, hn] using this
  | forceStore snap =>
    obtain ⟨c, hc, rfl⟩ := Option.map_eq_some'.mp he
    obtain ⟨hs, rfl⟩ := Snapshot.copy_eq_some.mp hc
    exact hi.store true hs
  | get hash =>
    obtain ⟨⟨_, _⟩, hg, rfl⟩ := Option.map_eq_some'.mp he
    exact hi.getSnapshot hash hg
  | findNearest targetNumber getHash =>
    obtain ⟨⟨_, _⟩, hf, rfl⟩ := Option.map_eq_some'.mp he
    obtain ⟨⟨_, _⟩, hs, he⟩ := Option.map_eq_some'.mp hf
    cases he
    exact hi.searchBack getHash _ hs
  | delete hash => cases he; exact hi.delete hash
  | has _ => cases he; exact hi
  | clear => cases he; exact hi.clear
  | evict hash => cases he; exact hi.evict hash

/-- **Every run keeps the invariant.** -/
theorem run_inv : ∀ (ops : List StoreOp) {g : Hash → Stored} {sm sm' : SnapshotManager},
    StoreInv g sm → run ops sm = some sm' → StoreInv (records ops g) sm'
  | [], _, _, _, hi, he => by cases he; exact hi
  | op :: ops, _, _, _, hi, he => by
    obtain ⟨_, h₁, h₂⟩ := Option.bind_eq_some.mp he
    exact run_inv ops (op.apply_inv hi h₁) h₂

/-- Recording two runs is recording one after the other. -/
theorem records_append (l₁ l₂ : List StoreOp) (g : Hash → Stored) :
    records (l₁ ++ l₂) g = records l₂ (records l₁ g) := by
  induction l₁ generalizing g with
  | nil => rfl
  | cons op l ih => exact ih _

/-- A call that persists a snapshot makes it the last and the persisted one of its hash. -/
theorem record_persistsAs {op : StoreOp} {s : Snapshot} (hp : op.PersistsAs s)
    (g : Hash → Stored) : op.record g s.hash = ⟨some (s, true), some s⟩ := by
  cases op with
  | store snap =>
    obtain ⟨rfl, hn⟩ := hp
    rw [record, Function.update_same]
    simp only [Stored.store, hn, decide_True, if_true]
  | forceStore snap => cases hp; exact Function.update_same _ _ _
  | _ => cases hp

/-- `DeleteSnapshot` empties its hash's record. -/
theorem record_delete (h : Hash) (g : Hash → Stored) : (delete h).record g h = Stored.empty :=
  Function.update_same _ _ _

/-- A call that neither stores at `h` nor deletes `h` leaves its record alone. -/
theorem record_untouched {op : StoreOp} {h : Hash} (hs : ¬op.StoresAt h) (hd : op ≠ .delete h)
    (g : Hash → Stored) : op.record g h = g h := by
  cases op with
  | store snap | forceStore snap => exact Function.update_noteq (Ne.symm hs) _ _
  | delete hash => exact Function.update_noteq (fun e => hd (congrArg delete e.symm)) _ _
  | _ => rfl

/-- A run that neither stores at `h` nor deletes `h` leaves its record alone. -/
theorem records_untouched {h : Hash} {ops : List StoreOp}
    (hu : ∀ op ∈ ops, ¬op.StoresAt h ∧ op ≠ .delete h) (g : Hash → Stored) :
    records ops g h = g h := by
  induction ops generalizing g with
  | nil => rfl
  | cons op ops ih =>
    obtain ⟨hs, hd⟩ := hu op (.head _)
    rw [records, ih (fun o ho => hu o (.tail _ ho)), record_untouched hs hd]

/-- Without a delete of `h`, a persisted snapshot stays recorded. -/
theorem records_persisted {h : Hash} {ops : List StoreOp} (hu : ∀ op ∈ ops, op ≠ .delete h)
    (g : Hash → Stored) (hp : (g h).persisted.isSome) : (records ops g h).persisted.isSome := by
  induction ops generalizing g with
  | nil => exact hp
  | cons op ops ih =>
    refine ih (fun o ho => hu o (.tail _ ho)) _ ?_
    by_cases hs : op.StoresAt h
    · cases op <;> simp only [StoresAt] at hs
      all_goals
        subst hs
        simp only [record, Function.update_same, Stored.store]
        split <;> simp_all
    · rw [record_untouched hs (hu op (.head _))]
      exact hp

/-- Without a store at `h`, a hash with no recorded store stays so. -/
theorem records_unstored {h : Hash} {ops : List StoreOp} (hu : ∀ op ∈ ops, ¬op.StoresAt h)
    (g : Hash → Stored) (hl : (g h).last = none) : (records ops g h).last = none := by
  induction ops generalizing g with
  | nil => exact hl
  | cons op ops ih =>
    refine ih (fun o ho => hu o (.tail _ ho)) _ ?_
    by_cases hd : op = .delete h
    · subst hd
      rw [record_delete]
      rfl
    · rw [record_untouched (hu op (.head _)) hd]
      exact hl

end StoreOp

/-- **What every run reads.** From a database without snapshots, after any run of calls and
cache evictions that returns (so that every stored snapshot has a state): (a) a snapshot
persisted by `ForceStore`, or by `StoreSnapshot` at a multiple of the interval, can be read and
is reported present until its hash is deleted, whatever purges and evictions came between;
(b) a hash never stored, or deleted after its last store, reads as `ErrSnapshotNotFound`;
(c) where the last store under a hash was such a persisting one, a read gives that snapshot or
the decoding of its encoding. -/
theorem storeOps_reads (db : List UInt8 → Option (List UInt8)) (otsEnabled : Bool)
    (hdb : ∀ h, db (snapshotKey h) = none) (ops : List StoreOp) {sm : SnapshotManager}
    (hrun : StoreOp.run ops (SnapshotManager.new db otsEnabled) = some sm) :
    (∀ pre op post s, ops = pre ++ op :: post → op.PersistsAs s →
      (∀ op' ∈ post, op' ≠ .delete s.hash) →
      (∃ sm' snap, sm.getSnapshot s.hash = some (sm', .ok snap)) ∧
        sm.hasSnapshot s.hash = true) ∧
    (∀ h, ((∀ op ∈ ops, ¬op.StoresAt h) ∨
        ∃ pre post, ops = pre ++ .delete h :: post ∧ ∀ op ∈ post, ¬op.StoresAt h) →
      sm.getSnapshot h = some (sm, .error .snapshotNotFound)) ∧
    (∀ pre op post s, ops = pre ++ op :: post → op.PersistsAs s →
      (∀ op' ∈ post, ¬op'.StoresAt s.hash ∧ op' ≠ .delete s.hash) →
      ∃ sm' snap, sm.getSnapshot s.hash = some (sm', .ok snap) ∧
        (snap = s ∨ decodeSnapshot s.encode = .ok snap)) := by
  have h₀ : StoreInv (fun _ => Stored.empty) (SnapshotManager.new db otsEnabled) := fun h => by
    show EntryInv _ none (db _)
    rw [hdb]
    exact EntryInv.empty
  have hi := StoreOp.run_inv ops h₀ hrun
  refine ⟨fun pre op post s hops hp hu => ?_, fun h hn => ?_, fun pre op post s hops hp hu => ?_⟩
  · subst hops
    rw [StoreOp.records_append] at hi
    obtain ⟨_, hs⟩ := Option.isSome_iff_exists.mp (StoreOp.records_persisted hu
      (op.record (StoreOp.records pre fun _ => Stored.empty))
      (by rw [StoreOp.record_persistsAs hp]; rfl))
    exact hi.read_persisted hs
  · apply hi.read_unstored
    rcases hn with hn | ⟨pre, post, rfl, hn⟩
    · exact StoreOp.records_unstored hn _ rfl
    · rw [StoreOp.records_append]
      exact StoreOp.records_unstored hn _ (by rw [StoreOp.record_delete]; rfl)
  · subst hops
    rw [StoreOp.records_append] at hi
    refine hi.read_last_persisted ?_
    show (StoreOp.records post (op.record _) s.hash).last = _
    rw [StoreOp.records_untouched hu, StoreOp.record_persistsAs hp]

/-- A snapshot force-stored and then purged from the cache is still read. -/
theorem storeOps_reads_after_clear :
    ∃ sm' snap, (((SnapshotManager.new (fun _ => none) true).forceStore
        (Snapshot.new 0 (ByteVec.zero 32) (OTSState.new true))).map SnapshotManager.clear).bind
      (fun sm => sm.getSnapshot (ByteVec.zero 32)) = some (sm', .ok snap) :=
  ((storeOps_reads (fun _ => none) true (fun _ => rfl)
    [.forceStore (Snapshot.new 0 (ByteVec.zero 32) (OTSState.new true)), .clear] rfl).1
    [] _ [.clear] _ rfl rfl (by simp)).1

/-! ## The nearest snapshot -/

namespace SnapshotManager

/-- What `FindNearestSnapshot` finds under one candidate's hash, before copying it: the cached
snapshot, else the decoded database entry, which is then cached. -/
def lookup (sm : SnapshotManager) (hash : Hash) : Option (SnapshotManager × Snapshot) :=
  match sm.cache hash with
  | some snap => some (sm, snap)
  | none =>
    match sm.loadFromDB hash with
    | .ok snap => some (sm.cacheAdd hash snap, snap)
    | .error _ => none

/-- Block number `k` is a candidate of `FindNearestSnapshot` that has a snapshot: a positive
multiple of the interval whose hash is not zero and whose snapshot is cached or loads. -/
def HasCandidate (sm : SnapshotManager) (getHash : UInt64 → Hash) (k : Nat) : Prop :=
  0 < k ∧ k % snapshotPersistInterval.toNat = 0 ∧ getHash (UInt64.ofNat k) ≠ ByteVec.zero 32 ∧
    (sm.lookup (getHash (UInt64.ofNat k))).isSome

/-- Whether a block number is a candidate with a snapshot can be computed. -/
instance (sm : SnapshotManager) (getHash : UInt64 → Hash) (k : Nat) :
    Decidable (sm.HasCandidate getHash k) :=
  inferInstanceAs (Decidable (_ ∧ _ ∧ _ ∧ _))

/-- The loop body of `FindNearestSnapshot` through `lookup`: a copy of what it finds, else the
next candidate. -/
theorem searchBack_succ_lookup (sm : SnapshotManager) (getHash : UInt64 → Hash) (k : Nat) :
    sm.searchBack getHash (k + 1) =
      let hash := getHash (UInt64.ofNat ((k + 1) * snapshotPersistInterval.toNat))
      if hash = ByteVec.zero 32 then sm.searchBack getHash k else
      match sm.lookup hash with
      | some (sm', snap) => snap.copy.map fun c => (sm', some c)
      | none => sm.searchBack getHash k := by
  simp only [searchBack, lookup]
  split_ifs
  · rfl
  · generalize getHash _ = hash
    cases sm.cache hash with
    | some _ => rfl
    | none => dsimp only; cases sm.loadFromDB hash <;> rfl

section Search

variable {sm : SnapshotManager} {getHash : UInt64 → Hash}

/-- The `j`-th candidate of the search finds nothing. -/
def MissAt (sm : SnapshotManager) (getHash : UInt64 → Hash) (j : Nat) : Prop :=
  getHash (UInt64.ofNat (j * snapshotPersistInterval.toNat)) = ByteVec.zero 32 ∨
    sm.lookup (getHash (UInt64.ofNat (j * snapshotPersistInterval.toNat))) = none

/-- A search whose candidates all miss finds nothing and changes nothing. -/
theorem searchBack_of_miss {n : Nat} (h : ∀ j, 0 < j → j ≤ n → MissAt sm getHash j) :
    sm.searchBack getHash n = some (sm, none) := by
  induction n with
  | zero => rfl
  | succ n ih =>
    rw [searchBack_succ_lookup, ih fun j hj hjn => h j hj (by omega)]
    rcases h (n + 1) (by omega) le_rfl with hz | hl
    · exact if_pos hz
    · simp only [hl]; split_ifs <;> rfl

/-- A search finds the copy of the highest candidate that hits. -/
theorem searchBack_of_hit {n j : Nat} {sm' : SnapshotManager} {S : Snapshot} (hj : 0 < j)
    (hjn : j ≤ n) (hz : getHash (UInt64.ofNat (j * snapshotPersistInterval.toNat)) ≠ ByteVec.zero 32)
    (hl : sm.lookup (getHash (UInt64.ofNat (j * snapshotPersistInterval.toNat))) = some (sm', S))
    (h : ∀ j', j < j' → j' ≤ n → MissAt sm getHash j') :
    sm.searchBack getHash n = S.copy.map fun c => (sm', some c) := by
  induction n with
  | zero => omega
  | succ n ih =>
    rw [searchBack_succ_lookup]
    rcases Nat.lt_or_ge j (n + 1) with hlt | hge
    · rw [ih (by omega) fun j' h1 h2 => h j' h1 (by omega)]
      rcases h (n + 1) hlt le_rfl with hz' | hl'
      · exact if_pos hz'
      · simp only [hl']; split_ifs <;> rfl
    · obtain rfl : j = n + 1 := by omega
      simp only [if_neg hz, hl]

end Search

end SnapshotManager

/-- **`FindNearestSnapshot` returns the nearest candidate at or below the target.** With no
candidate that has a snapshot, it returns the genesis snapshot under the hash of block 0; else it
returns the snapshot of the largest candidate, or nothing when that snapshot has no state, where
`Copy` dereferences `nil`. -/
theorem findNearestSnapshot_spec (sm : SnapshotManager) (t : UInt64) (getHash : UInt64 → Hash) :
    ((∀ k ≤ t.toNat, ¬sm.HasCandidate getHash k) →
      sm.findNearestSnapshot t getHash = some (sm, sm.getGenesisSnapshot (getHash 0))) ∧
    ∀ k sm' S, k ≤ t.toNat → sm.HasCandidate getHash k →
      sm.lookup (getHash (UInt64.ofNat k)) = some (sm', S) →
      (∀ k', k < k' → k' ≤ t.toNat → ¬sm.HasCandidate getHash k') →
      sm.findNearestSnapshot t getHash = if S.state.isSome then some (sm', S) else none := by
  have hn : (t / snapshotPersistInterval).toNat = t.toNat / 1024 := UInt64.toNat_div _ _
  have miss : ∀ j, 0 < j → ¬sm.HasCandidate getHash (j * 1024) →
      SnapshotManager.MissAt sm getHash j := fun j hj hc => by
    by_contra hm
    rw [SnapshotManager.MissAt, not_or] at hm
    exact hc ⟨by omega, Nat.mul_mod_left j 1024, hm.1, Option.ne_none_iff_isSome.mp hm.2⟩
  refine ⟨fun h => ?_, fun k sm' S hk hc hl hmax => ?_⟩
  · rw [SnapshotManager.findNearestSnapshot, hn,
      SnapshotManager.searchBack_of_miss fun j hj hjn => miss j hj (h _ (by omega))]
    rfl
  · obtain ⟨hk0, hkm, hz, -⟩ := hc
    obtain ⟨j, rfl⟩ : ∃ j, k = j * 1024 := ⟨k / 1024, by change k % 1024 = 0 at hkm; omega⟩
    rw [SnapshotManager.findNearestSnapshot, hn, SnapshotManager.searchBack_of_hit (by omega)
      (Nat.le_div_iff_mul_le (by decide) |>.mpr hk) hz hl
      fun j' h1 h2 => miss j' (by omega) (hmax _ (by omega) (by omega))]
    cases hs : S.state <;> simp [Snapshot.copy, hs]

/-- A database entry that decodes to a snapshot without a state, under the hash of block 1024:
the search finds it, and copying it dereferences the missing state. -/
theorem nearest_snapshot_without_state :
    let sm := SnapshotManager.new (fun _ => some (ascii "{}")) true
    let getHash : UInt64 → Hash := fun _ => bytesToHash [1]
    let S : Snapshot := ⟨0, ByteVec.zero 32, none⟩
    sm.HasCandidate getHash 1024 ∧
      sm.lookup (getHash 1024) = some (sm.cacheAdd (getHash 1024) S, S) ∧
      sm.findNearestSnapshot 1024 getHash = none := by
  intro sm getHash S
  have hl : sm.lookup (getHash 1024) = some (sm.cacheAdd (getHash 1024) S, S) := rfl
  have hc : sm.HasCandidate getHash 1024 := ⟨by decide, rfl, by decide, by rw [hl]; rfl⟩
  exact ⟨hc, hl, (findNearestSnapshot_spec sm 1024 getHash).2 1024 _ _ le_rfl hc hl
    fun k h1 h2 => absurd h2 (by change ¬k ≤ 1024; omega)⟩

end Ots

import OtsConsensus.Encoding

/-!
# The snapshot manager: state and writes

`SnapshotManager` of `snapshot.go`: an ARC cache of snapshots keyed by block hash, a key-value
database under the prefix `ots-snapshot-`, and the `otsEnabled` flag of the genesis snapshot.

The cache and the database are maps. The database never fails in the model. `cache.Add` inserts;
the ARC policy's evictions are steps of their own (`evict`), so a run may lose any cache entry
between any two calls. The methods that copy a snapshot (`snap.Copy()`) dereference its state and
return `none` where that pointer is `nil`.
-/

namespace Ots

/-- `snapshotPersistInterval`. -/
def snapshotPersistInterval : UInt64 := 1024

/-- The database key of a block hash: `snapshotPrefix ‖ hash`. -/
def snapshotKey (hash : Hash) : List UInt8 := ascii "ots-snapshot-" ++ hash.bytes

/-- The snapshot manager's state. -/
structure SnapshotManager where
  cache : Hash → Option Snapshot
  db : List UInt8 → Option (List UInt8)
  otsEnabled : Bool

namespace SnapshotManager

/-- `NewSnapshotManager(db, otsEnabled)`: an empty cache over a database. -/
def new (db : List UInt8 → Option (List UInt8)) (otsEnabled : Bool) : SnapshotManager :=
  { cache := fun _ => none, db := db, otsEnabled := otsEnabled }

/-- `cache.Add(hash, snap)`. -/
def cacheAdd (sm : SnapshotManager) (hash : Hash) (snap : Snapshot) : SnapshotManager :=
  { sm with cache := Function.update sm.cache hash (some snap) }

/-- An eviction by the cache's replacement policy, or `cache.Remove(hash)`. -/
def evict (sm : SnapshotManager) (hash : Hash) : SnapshotManager :=
  { sm with cache := Function.update sm.cache hash none }

/-- `saveToDB(snap)`: `db.Put(key, snap.Encode())`. -/
def saveToDB (sm : SnapshotManager) (snap : Snapshot) : SnapshotManager :=
  { sm with db := Function.update sm.db (snapshotKey snap.hash) (some snap.encode) }

/-- `StoreSnapshot(snap)`: cache a copy; persist when the block number is a multiple of the
interval. -/
def storeSnapshot (sm : SnapshotManager) (snap : Snapshot) : Option SnapshotManager :=
  snap.copy.map fun c =>
    let sm := sm.cacheAdd snap.hash c
    if snap.number % snapshotPersistInterval = 0 then sm.saveToDB snap else sm

/-- `ForceStore(snap)`: cache a copy and persist. -/
def forceStore (sm : SnapshotManager) (snap : Snapshot) : Option SnapshotManager :=
  snap.copy.map fun c => (sm.cacheAdd snap.hash c).saveToDB snap

/-- `DeleteSnapshot(hash)`: remove from the cache and delete from the database. -/
def deleteSnapshot (sm : SnapshotManager) (hash : Hash) : SnapshotManager :=
  { sm.evict hash with db := Function.update sm.db (snapshotKey hash) none }

/-- `Clear()`: purge the cache. -/
def clear (sm : SnapshotManager) : SnapshotManager := { sm with cache := fun _ => none }

/-- Storing a snapshot that has a state always returns. -/
theorem storeSnapshot_new (sm : SnapshotManager) (number : UInt64) (hash : Hash)
    (state : OTSState) : ∃ sm', sm.storeSnapshot (Snapshot.new number hash state) = some sm' :=
  ⟨_, rfl⟩

/-- `GetGenesisSnapshot(genesisHash)`. -/
def getGenesisSnapshot (sm : SnapshotManager) (genesisHash : Hash) : Snapshot :=
  Snapshot.new 0 genesisHash (OTSState.new sm.otsEnabled)

end SnapshotManager

end Ots

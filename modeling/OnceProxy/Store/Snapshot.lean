/-
Snapshots: the live records of a store as one octet string.

A snapshot is an array of maps with the short text keys `k`, `v`, `ver` and
`ea`. Loading drops records that have expired meanwhile and records whose
key has not 32 octets; of several records of one key the last counts. The
next version given out is above those of all records that were taken.
-/
import OnceProxy.Cbor.Read
import OnceProxy.Cbor.Value
import OnceProxy.Store.Memory

namespace OnceProxy.Store

open Cbor Crypto

/-- A record of a snapshot. -/
structure SnapshotRecord where
  key : Octets
  value : Octets
  version : UInt64
  expiresAt : UInt64
  deriving DecidableEq

namespace SnapshotRecord

/-- The record as a map. -/
def toValue (r : SnapshotRecord) : Value :=
  .map [(.text "k", .octets r.key), (.text "v", .octets r.value),
    (.text "ver", .unsigned r.version), (.text "ea", .unsigned r.expiresAt)]

/-- The fields read so far. -/
structure Draft where
  key : Option Octets
  value : Option Octets
  version : Option UInt64
  expiresAt : Option UInt64

/-- Reads the field of a key into the draft. -/
def Draft.readField (d : Draft) (key : Octets) : Reader Draft := fun b => do
  if key = Octets.ofText "k" then
    let (x, b) ← readOnce d.key readOctets b
    return ({ d with key := some x }, b)
  else if key = Octets.ofText "v" then
    let (x, b) ← readOnce d.value readOctets b
    return ({ d with value := some x }, b)
  else if key = Octets.ofText "ver" then
    let (x, b) ← readOnce d.version readUInt64 b
    return ({ d with version := some x }, b)
  else if key = Octets.ofText "ea" then
    let (x, b) ← readOnce d.expiresAt readUInt64 b
    return ({ d with expiresAt := some x }, b)
  else
    let b ← skip (depthLimit - 2) b
    return (d, b)

/-- Reads a record. -/
def read : Reader SnapshotRecord := fun b => do
  let (d, b) ← readRecord Draft.readField ⟨none, none, none, none⟩ b
  return (⟨← d.key, ← d.value, ← d.version, ← d.expiresAt⟩, b)

end SnapshotRecord

namespace MemoryStore

/-- The live records, for a snapshot. -/
def snapshotRecords (s : MemoryStore) (now : UInt64) : List SnapshotRecord :=
  (s.records.filter fun p => p.2.isLive now).map fun (key, r) =>
    ⟨key.octets, r.value, r.version, r.expiresAt⟩

/-- The snapshot of the live records. -/
def save (s : MemoryStore) (now : UInt64) : Octets :=
  (Value.array ((s.snapshotRecords now).map SnapshotRecord.toValue)).encode

/-- Takes a record over from a snapshot. -/
def takeOver (now : UInt64) (s : MemoryStore) (r : SnapshotRecord) : MemoryStore :=
  if r.expiresAt ≤ now then s
  else
    match Digest.ofOctets? r.key with
    | none => s
    | some key =>
      ⟨upsert s.records key ⟨r.value, r.version, r.expiresAt⟩, max s.lastVersion r.version⟩

/-- The store of a list of records. -/
def ofSnapshot (now : UInt64) (records : List SnapshotRecord) : MemoryStore :=
  records.foldl (takeOver now) .empty

/-- The store that a snapshot describes. -/
def load (now : UInt64) (b : Octets) : Except StoreError MemoryStore :=
  match readSequence SnapshotRecord.read b with
  | some (records, _) => .ok (ofSnapshot now records)
  | none => .error .badSnapshot

end MemoryStore

end OnceProxy.Store

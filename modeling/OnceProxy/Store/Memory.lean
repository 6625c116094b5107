/-
The in-memory key-value store.

Every record has a version that its writer got for it, counted over the
whole store, and an instant from which on it counts as absent. Writes are
conditional: one needs the record to be absent, the other needs its version.
The records are a list of pairs with at most one for each key.
-/
import OnceProxy.Fingerprint
import OnceProxy.Store.Error

namespace OnceProxy.Store

-- =============================================================== records

/-- A value and the version it was read at. -/
structure Versioned where
  value : Octets
  version : UInt64
  deriving DecidableEq

/-- A stored value, its version, and the instant of its expiry. -/
structure Record where
  value : Octets
  version : UInt64
  expiresAt : UInt64
  deriving DecidableEq

/-- The value with its version. -/
def Record.versioned (r : Record) : Versioned := ⟨r.value, r.version⟩

/-- Whether the record counts as present. -/
def Record.isLive (r : Record) (now : UInt64) : Bool := now < r.expiresAt

/-- The answer to a write that needs the key to be absent. -/
inductive PutAnswer where
  | stored (version : UInt64)
  | held (occupant : Versioned)
  deriving DecidableEq

/-- The answer to a write that needs a version. -/
inductive SwapAnswer where
  | swapped (version : UInt64)
  | mismatch
  deriving DecidableEq

/-- The records, and the last version given out. -/
structure MemoryStore where
  records : List (EntryKey × Record)
  lastVersion : UInt64

namespace MemoryStore

/-- No records yet. -/
def empty : MemoryStore := ⟨[], 0⟩

/-- The record of a key, expired or not. -/
def find? (s : MemoryStore) (key : EntryKey) : Option Record := s.records.lookup key

/-- The records with the one of a key replaced or added. -/
def upsert (records : List (EntryKey × Record)) (key : EntryKey) (r : Record) :
    List (EntryKey × Record) :=
  match records with
  | [] => [(key, r)]
  | (k, old) :: rest => if k = key then (k, r) :: rest else (k, old) :: upsert rest key r

/-- Writes a record under the next version. There is one as long as the
counter is not at the last number of 64 bits; `write?` (`Store/Checked`) says
what becomes of the write there. -/
def write (s : MemoryStore) (key : EntryKey) (value : Octets) (expiresAt : UInt64) : MemoryStore :=
  let version := s.lastVersion + 1
  ⟨upsert s.records key ⟨value, version, expiresAt⟩, version⟩

-- ================================================================ calls

/-- The live value of a key. -/
def get (s : MemoryStore) (now : UInt64) (key : EntryKey) : Option Versioned :=
  ((s.find? key).filter (·.isLive now)).map Record.versioned

/-- Writes a value unless a live one is there. -/
def putIfAbsent (s : MemoryStore) (now : UInt64) (key : EntryKey) (value : Octets)
    (expiresAt : UInt64) : PutAnswer × MemoryStore :=
  match (s.find? key).filter (·.isLive now) with
  | some r => (.held r.versioned, s)
  | none =>
    let s := s.write key value expiresAt
    (.stored s.lastVersion, s)

/-- Writes a value if the record has this version. An expired record may be
replaced like a live one. -/
def compareAndSwap (s : MemoryStore) (key : EntryKey) (version : UInt64) (value : Octets)
    (expiresAt : UInt64) : SwapAnswer × MemoryStore :=
  match s.find? key with
  | some r =>
    if r.version = version then
      let s := s.write key value expiresAt
      (.swapped s.lastVersion, s)
    else (.mismatch, s)
  | none => (.mismatch, s)

/-- Drops the records that have expired. -/
def purge (s : MemoryStore) (now : UInt64) : MemoryStore :=
  { s with records := s.records.filter fun p => p.2.isLive now }

/-- The number of records, expired ones included. -/
def size (s : MemoryStore) : Nat := s.records.length

/-- The number of records that have expired. -/
def expiredCount (s : MemoryStore) (now : UInt64) : Nat := s.size - (s.purge now).size

end MemoryStore

end OnceProxy.Store

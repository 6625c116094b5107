/-
The in-memory store at its last version.

A write takes the version that follows the last one given out. The counter
is a number of 64 bits: it goes from the last of them to zero, but the sum
that is to be the version is checked, so that the write dies there before it
has touched a record, and its client gets no answer. Here queries are
answered with that check. Up to the last version the answers are those of
`MemoryStore.answer` (`Proofs/Store/Checked`).
-/
import OnceProxy.Store.Dialogue

namespace OnceProxy.Store

/-- The sum, if it is a number of 64 bits. -/
def checkedAdd (a b : UInt64) : Option UInt64 :=
  if a.toNat + b.toNat < UInt64.size then some (a + b) else none

namespace MemoryStore

/-- Moves the counter on, and gives the next version out. -/
def nextVersion? (s : MemoryStore) : Option UInt64 × MemoryStore :=
  (checkedAdd s.lastVersion 1, { s with lastVersion := s.lastVersion + 1 })

/-- Writes a record under the next version, or dies. -/
def write? (s : MemoryStore) (key : EntryKey) (value : Octets) (expiresAt : UInt64) :
    Option UInt64 × MemoryStore :=
  match s.nextVersion? with
  | (some version, s) =>
    (some version, { s with records := upsert s.records key ⟨value, version, expiresAt⟩ })
  | (none, s) => (none, s)

/-- Writes a value unless a live one is there. -/
def putIfAbsent? (s : MemoryStore) (now : UInt64) (key : EntryKey) (value : Octets)
    (expiresAt : UInt64) : Option PutAnswer × MemoryStore :=
  match (s.find? key).filter (·.isLive now) with
  | some r => (some (.held r.versioned), s)
  | none =>
    let (version, s) := s.write? key value expiresAt
    (version.map .stored, s)

/-- Writes a value if the record has this version. -/
def compareAndSwap? (s : MemoryStore) (key : EntryKey) (version : UInt64) (value : Octets)
    (expiresAt : UInt64) : Option SwapAnswer × MemoryStore :=
  match s.find? key with
  | some r =>
    if r.version = version then
      let (version, s) := s.write? key value expiresAt
      (version.map .swapped, s)
    else (some .mismatch, s)
  | none => (some .mismatch, s)

/-- The answer to a query, if it does not die, and the store after it. -/
def answer? (q : Query) (now : UInt64) (s : MemoryStore) : Option q.Answer × MemoryStore :=
  match q with
  | .get key => (some (s.get now key), s)
  | .put key value expiresAt => s.putIfAbsent? now key value expiresAt
  | .swap key version value expiresAt => s.compareAndSwap? key version value expiresAt

end MemoryStore

/-- Runs a dialogue with the in-memory store at one instant. There is no
result if a write of it dies. -/
def Dialogue.run? (now : UInt64) :
    Dialogue α → MemoryStore → Option (Except StoreError α) × MemoryStore
  | .done a, s => (some (.ok a), s)
  | .fail e, s => (some (.error e), s)
  | .clock next, s => (next now).run? now s
  | .ask q next, s =>
    match s.answer? q now with
    | (some answer, s) => (next answer).run? now s
    | (none, s) => (none, s)

end OnceProxy.Store

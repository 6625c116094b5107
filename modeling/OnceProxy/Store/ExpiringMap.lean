/-
A map of entries that expire: what the cache is to its clients.

There are no records here, no stored forms and no conditional writes. A key
has an entry and a version, a natural number, and the entry is present
before its expiry. Whether it is dropped afterwards or stays cannot be told
from outside, so a sweep does nothing.
-/
import OnceProxy.Store.Operation

namespace OnceProxy.Store

-- ============================================================== commands

/-- What one asks of a cache. -/
inductive Command where
  | perform (operation : Operation)
  | sweep

/-- What it answers. -/
def Command.Result : Command → Type
  | .perform o => Except StoreError o.Result
  | .sweep => Unit

/-- A command with its answer. -/
abbrev Answered := (c : Command) × c.Result

/-- Carries out commands one after the other, each at its instant. -/
def carryOut (serve : UInt64 → (c : Command) → σ → c.Result × σ) :
    List (UInt64 × Command) → σ → List Answered × σ
  | [], s => ([], s)
  | (now, c) :: schedule, s =>
    let (x, s) := serve now c s
    let (answered, s) := carryOut serve schedule s
    (⟨c, x⟩ :: answered, s)

/-- The cache over the in-memory store. -/
def Cache.serve (now : UInt64) (c : Command) (s : MemoryStore × Metrics) :
    c.Result × (MemoryStore × Metrics) :=
  match c with
  | .perform o => o.dialogue.run MemoryStore.backend now s
  | .sweep => ((), MemoryStore.backend.sweepAndReport now s)

-- =============================================================== the map

/-- Entries under versions, and the last version given out. -/
structure ExpiringMap where
  entries : EntryKey → Option (Entry × Nat)
  lastVersion : Nat

namespace ExpiringMap

/-- No entries yet. -/
def empty : ExpiringMap := ⟨fun _ => none, 0⟩

/-- The entry of a key that is present at an instant. -/
def present? (m : ExpiringMap) (now : UInt64) (key : EntryKey) :
    Option (Entry × Nat) :=
  (m.entries key).filter fun x => now < x.1.expiresAt

/-- Gives a key an entry under a fresh version. -/
def set (m : ExpiringMap) (key : EntryKey) (e : Entry) : ExpiringMap where
  entries k := if k = key then some (e, m.lastVersion + 1) else m.entries k
  lastVersion := m.lastVersion + 1

/-- What an operation answers at an instant, and the entry it sets, with
this present under its key. -/
def respond (now : UInt64) (present : Option (Entry × Nat)) :
    (o : Operation) → Except StoreError o.Result × Option Entry
  | .get _ => (.ok (present.map (·.1)), none)
  | .getVersioned _ =>
    (.ok (present.map fun x => ⟨x.1, UInt64.ofNat x.2⟩), none)
  | .putIfAbsent _ e =>
    match present with
    | none => (.ok (.stored e), some e)
    | some (f, _) => (.ok (.held f), none)
  | .compareAndSwap _ version e =>
    match present with
    | none => (.ok .mismatch, none)
    | some (f, v) =>
      if v ≠ version.toNat then (.ok .mismatch, none)
      else if !f.sameResult e then (.error .resultChanged, none)
      else (.ok .swapped, some e)
  | .refresh _ duration =>
    match present with
    | none => (.ok none, none)
    | some (f, _) =>
      let expiry := max f.expiresAt (saturate (now.toNat + duration))
      (.ok (some .swapped),
        if f.expiresAt < expiry then some (f.withExpiry expiry) else none)

/-- What an operation does at an instant. -/
def perform (m : ExpiringMap) (now : UInt64) (o : Operation) :
    Except StoreError o.Result × ExpiringMap :=
  match respond now (m.present? now o.key) o with
  | (x, none) => (x, m)
  | (x, some e) => (x, m.set o.key e)

/-- What a command does at an instant. -/
def serve (now : UInt64) (c : Command) (m : ExpiringMap) :
    c.Result × ExpiringMap :=
  match c with
  | .perform o => m.perform now o
  | .sweep => ((), m)

end ExpiringMap

end OnceProxy.Store

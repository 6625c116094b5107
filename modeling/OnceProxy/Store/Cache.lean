/-
The cache: entries in a key-value store, as dialogues.

The cache writes and reads entries through their stored form and honours
their expiry also where the key-value store does not. A stored result never
changes; only its expiry may. An expired occupant is replaced through its
version, so that it never blocks a new operation.
-/
import OnceProxy.Policy
import OnceProxy.Saturating
import OnceProxy.Store.Dialogue

namespace OnceProxy.Store

/-- An entry and the version it was read at. -/
structure StoredEntry where
  entry : Entry
  version : UInt64
  deriving DecidableEq

/-- What became of an entry that was to be stored. -/
inductive PutOutcome where
  /-- It is the stored one now. -/
  | stored (entry : Entry)
  /-- Another was there first. -/
  | held (entry : Entry)
  deriving DecidableEq

/-- What became of a swap. -/
inductive SwapOutcome where
  | swapped
  | mismatch
  deriving DecidableEq, Repr

namespace Cache

/-- The entry of a stored form. -/
def decoded (b : Octets) : Dialogue Entry :=
  match Entry.decode b with
  | .ok e => .done e
  | .error e => .fail (.codec e)

-- ================================================================ reading

/-- The live entry of a key, with its version. -/
def getVersioned (key : EntryKey) : Dialogue (Option StoredEntry) := do
  match ← Dialogue.query (.get key) with
  | none => return none
  | some raw =>
    let entry ← decoded raw.value
    if entry.isExpiredAt (← Dialogue.now) then return none
    else return some ⟨entry, raw.version⟩

/-- The live entry of a key. -/
def get (key : EntryKey) : Dialogue (Option Entry) := do
  return (← getVersioned key).map (·.entry)

-- ================================================================ writing

/-- Puts and swaps in turn until one of them is decided. -/
def putWith (key : EntryKey) (entry : Entry) : (attempts : Nat) → Dialogue (Option PutOutcome)
  | 0 => return none
  | attempts + 1 => do
    match ← Dialogue.query (.put key entry.encode entry.expiresAt) with
    | .stored _ => return some (.stored entry)
    | .held occupant =>
      let current ← decoded occupant.value
      if !current.isExpiredAt (← Dialogue.now) then return some (.held current)
      else
        match ← Dialogue.query (.swap key occupant.version entry.encode entry.expiresAt) with
        | .swapped _ => return some (.stored entry)
        | .mismatch => putWith key entry attempts

/-- The attempts at replacing an expired occupant. -/
def maxReplaceAttempts : Nat := 3

/-- Stores an entry unless a live one is there. -/
def putIfAbsent (key : EntryKey) (entry : Entry) : Dialogue PutOutcome := do
  match ← putWith key entry maxReplaceAttempts with
  | some outcome => return outcome
  | none => .fail (.contention maxReplaceAttempts)

/-- Replaces the value of a version by an entry's stored form. -/
def swap (key : EntryKey) (version : UInt64) (entry : Entry) : Dialogue SwapOutcome := do
  match ← Dialogue.query (.swap key version entry.encode entry.expiresAt) with
  | .swapped _ => return .swapped
  | .mismatch => return .mismatch

/-- Replaces the live entry of a version by one with the same result. -/
def compareAndSwap (key : EntryKey) (version : UInt64) (entry : Entry) : Dialogue SwapOutcome := do
  match ← getVersioned key with
  | none => return .mismatch
  | some current =>
    if current.version ≠ version then return .mismatch
    else if !current.entry.sameResult entry then .fail .resultChanged
    else swap key version entry

/-- Moves the expiry of the live entry to a duration from now, unless it
is later already. -/
def refresh (key : EntryKey) (duration : Nat) : Dialogue (Option SwapOutcome) := do
  match ← getVersioned key with
  | none => return none
  | some current =>
    let expiresAt := addSaturating (← Dialogue.now) (millis duration)
    if expiresAt ≤ current.entry.expiresAt then return some .swapped
    else return some (← swap key current.version (current.entry.withExpiry expiresAt))

end Cache

end OnceProxy.Store

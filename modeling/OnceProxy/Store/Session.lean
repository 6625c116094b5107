/-
Sessions: one client that talks to a store, call after call, while the wall
clock moves or is set.
-/
import OnceProxy.Store.Snapshot
import OnceProxy.Store.Sweeper

namespace OnceProxy.Store

/-- A store, what has been counted, and the wall clock. -/
structure Session (σ : Type) where
  store : σ
  metrics : Metrics
  wall : Int

namespace Session

/-- A session on a store, before the first call. -/
def start (store : σ) (wall : Int) : Session σ := ⟨store, .empty, wall⟩

/-- The clock's reading; before the epoch it reads zero. -/
def now (s : Session σ) : UInt64 := UInt64.ofNat s.wall.toNat

/-- Runs a dialogue. -/
def ask (s : Session σ) (B : Backend σ) (d : Dialogue α) : Except StoreError α × Session σ :=
  let (r, store, metrics) := d.run B s.now (s.store, s.metrics)
  (r, { s with store, metrics })

/-- Drops what has expired at an instant, and says how much that was. -/
def purge (s : Session σ) (B : Backend σ) (at_ : UInt64) : Nat × Session σ :=
  let (store, metrics) := B.sweepAndReport at_ (s.store, s.metrics)
  (B.size s.store - B.size store, { s with store, metrics })

/-- Sets the wall clock. -/
def setWall (s : Session σ) (wall : Int) : UInt64 × Session σ :=
  let s := { s with wall }
  (s.now, s)

/-- Lets a sweeper run beside waits of some milliseconds. -/
def sweep (s : Session σ) (B : Backend σ) (interval : Nat) (waits : List Nat) :
    List Nat × Bool × Session σ :=
  let w := Sweeper.run B interval waits s.wall (s.store, s.metrics)
  (w.sizes, w.stopped, ⟨w.store, w.metrics, w.wall⟩)

/-- Puts the store of a snapshot in the place of the one at hand. -/
def load (s : Session MemoryStore) (b : Octets) : Except StoreError (Session MemoryStore) :=
  (MemoryStore.load s.now b).map fun store =>
    { s with store, metrics := s.metrics.setEntries store.size }

/-- Works on the in-memory store inside a larger one. -/
def within (s : Session σ) (inner : σ → MemoryStore) (outer : MemoryStore → σ)
    (work : Session MemoryStore → α × Session MemoryStore) : α × Session σ :=
  let (a, m) := work ⟨inner s.store, s.metrics, s.wall⟩
  (a, ⟨outer m.store, m.metrics, m.wall⟩)

end Session

end OnceProxy.Store

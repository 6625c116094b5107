/-
The sweeper: drops expired records at a fixed interval until it is stopped.

The first sweep is due at the start, the others at the multiples of the
interval. An interval of nothing is no interval: such a sweeper dies at
once.
-/
import OnceProxy.Store.Dialogue

namespace OnceProxy.Store.Sweeper

/-- What was seen of a sweeper, and what it left. -/
structure Watched (σ : Type) where
  /-- The sizes of the store after each wait. -/
  sizes : List Nat
  /-- Whether it ran until it was stopped. -/
  stopped : Bool
  /-- The wall clock at the end. -/
  wall : Int
  store : σ
  metrics : Metrics

/-- The instants up to `goal` at which a sweep is due that have not passed
before `elapsed`; the first is at the start. -/
def due (interval elapsed goal : Nat) (isFirst : Bool) : List Nat :=
  ((List.range (goal / interval + 1)).map (· * interval)).filter fun t =>
    elapsed < t || (isFirst && t = 0)

/-- Lets the waits pass one after the other; `start` is the wall clock at the
start. -/
def watch (B : Backend σ) (interval : Nat) (start : Int) :
    (waits : List Nat) → (elapsed : Nat) → (isFirst : Bool) → σ × Metrics →
      List Nat × Nat × (σ × Metrics)
  | [], elapsed, _, s => ([], elapsed, s)
  | wait :: waits, elapsed, isFirst, s =>
    let goal := elapsed + wait
    let s := (due interval elapsed goal isFirst).foldl (fun s (t : Nat) =>
      B.sweepAndReport (UInt64.ofNat (start + t).toNat) s) s
    let (sizes, elapsed, after) := watch B interval start waits goal false s
    (B.size s.1 :: sizes, elapsed, after)

/-- Runs a sweeper beside waits of some milliseconds, and stops it after them. -/
def run (B : Backend σ) (interval : Nat) (waits : List Nat) (wall : Int) (s : σ × Metrics) :
    Watched σ :=
  if interval = 0 then
    let elapsed : Nat := waits.foldl (· + ·) 0
    ⟨waits.map fun _ => B.size s.1, false, wall + elapsed, s.1, s.2⟩
  else
    let (sizes, elapsed, store, metrics) := watch B interval wall waits 0 true s
    ⟨sizes, true, wall + elapsed, store, metrics⟩

end OnceProxy.Store.Sweeper

/-
Metrics: what the proxy counts about itself.

Counters only grow; the gauge holds the size of the store as last reported.
Two written forms exist: a flat one of names with sorted labels, and the
exposition format of a metrics endpoint.
-/
import OnceProxy.Text.Decimal

namespace OnceProxy

/-- How a lookup in the store ended. -/
inductive LookupResult where
  | hit
  | miss
  | conflict
  deriving DecidableEq, Repr

/-- In which role a request joined a flight. -/
inductive FlightRole where
  | leader
  | follower
  deriving DecidableEq, Repr

/-- How a call to the origin ended. -/
inductive CallResult where
  | status (code : Nat)
  | error
  | timeout
  deriving DecidableEq, Repr

/-- What is counted. -/
inductive Counter where
  | lookups (result : LookupResult)
  | joins (role : FlightRole)
  | originCalls (result : CallResult)
  | storeErrors (operation : String)
  | requests (method : String) (status : Nat) (outcome : String)
  deriving DecidableEq, Repr

namespace Counter

/-- The metric's name. -/
def name : Counter → String
  | .lookups _ => "idempotency_cache_lookups_total"
  | .joins _ => "idempotency_flight_joins_total"
  | .originCalls _ => "idempotency_origin_calls_total"
  | .storeErrors _ => "idempotency_store_errors_total"
  | .requests .. => "idempotency_requests_total"

/-- The metric's labels. -/
def labels : Counter → List (String × String)
  | .lookups result =>
    [("result", match result with
      | .hit => "hit"
      | .miss => "miss"
      | .conflict => "conflict")]
  | .joins role =>
    [("role", match role with
      | .leader => "leader"
      | .follower => "follower")]
  | .originCalls result =>
    [("result", match result with
      | .status code => toString code
      | .error => "error"
      | .timeout => "timeout")]
  | .storeErrors operation => [("op", operation)]
  | .requests method status outcome =>
    [("method", method), ("status", toString status), ("outcome", outcome)]

end Counter

/-- The counts so far, and the size of the store as last reported. -/
structure Metrics where
  counts : List (Counter × Nat)
  entries : Option Nat

namespace Metrics

/-- Nothing counted yet. -/
def empty : Metrics := ⟨[], none⟩

/-- How often something was counted. -/
def count (m : Metrics) (c : Counter) : Nat := (m.counts.lookup c).getD 0

/-- Counts one more. -/
def bump (m : Metrics) (c : Counter) : Metrics :=
  if (m.counts.lookup c).isSome then
    { m with counts := m.counts.map fun p => if p.1 = c then (p.1, p.2 + 1) else p }
  else { m with counts := m.counts ++ [(c, 1)] }

/-- Reports the size of the store. -/
def setEntries (m : Metrics) (n : Nat) : Metrics := { m with entries := some n }

-- ============================================================= written

/-- The name of the gauge. -/
def entriesName : String := "idempotency_store_entries"

/-- The name of the summary of latencies. -/
def latencyName : String := "idempotency_request_duration_seconds"

/-- Names with labels in alphabetical order, and their values. -/
def samples (m : Metrics) : List (String × Nat) :=
  (m.counts.map fun (c, n) =>
    let labels := c.labels.mergeSort fun a b => a.1 ≤ b.1
    (c.name ++ "\x7b" ++ ",".intercalate (labels.map fun (k, v) => k ++ "=" ++ v) ++ "\x7d", n)) ++
  (match m.entries with
    | some n => [(entriesName, n)]
    | none => [])

/-- A label's value between quotes. -/
def quoteLabel (s : String) : String :=
  String.ofList <| '"' :: (s.toList.flatMap fun c =>
    if c = '"' then ['\\', '"'] else if c = '\\' then ['\\', '\\']
    else if c = '\n' then ['\\', 'n'] else [c]) ++ ['"']

/-- The metrics with their descriptions and kinds. -/
def descriptions : List (String × String × String) :=
  [("idempotency_requests_total", "counter", "Inbound requests handled"),
   (latencyName, "summary", "End-to-end request latency"),
   ("idempotency_cache_lookups_total", "counter", "Cache lookups by result"),
   ("idempotency_flight_joins_total", "counter", "Single-flight joins by role"),
   ("idempotency_origin_calls_total", "counter", "Origin calls by result"),
   ("idempotency_store_errors_total", "counter", "Failed store operations"),
   (entriesName, "gauge", "Entries held by the in-memory store")]

/-- The lines of the exposition format: the samples of each metric that has
any behind its description and kind. The summary of latencies counts the
requests. -/
def exposition (m : Metrics) : List String :=
  let requests := (m.counts.filter fun p => p.1.name = "idempotency_requests_total").map (·.2)
  descriptions.flatMap fun (name, kind, description) =>
    let lines :=
      (m.counts.filter fun p => p.1.name = name).map fun (c, n) =>
        name ++ "\x7b" ++ ",".intercalate (c.labels.map fun (k, v) => k ++ "=" ++ quoteLabel v) ++
          "\x7d " ++ toString n
    let lines :=
      if name = entriesName then
        match m.entries with
        | some n => [name ++ " " ++ toString n]
        | none => []
      else if name = latencyName then
        if requests.isEmpty then [] else [name ++ "_count " ++ toString (requests.foldl (· + ·) 0)]
      else lines
    if lines.isEmpty then []
    else ("# HELP " ++ name ++ " " ++ description) :: ("# TYPE " ++ name ++ " " ++ kind) :: lines

end Metrics

end OnceProxy

/-
Configuration documents as trees, whatever format they were written in, and
the reading of a configuration from one.

A section is read field by field. A field that is not there keeps its
default; a field of the wrong type makes the whole document unreadable;
unknown fields do not matter. A section may also be given as the list of
its fields in order.
-/
import OnceProxy.Config.Schema
import OnceProxy.Toml.Document

namespace OnceProxy.Config

/-- A configuration document or a part of one. -/
inductive Tree where
  | text (s : String)
  | integer (n : Int)
  | boolean (b : Bool)
  | list (items : List Tree)
  | branch (fields : List (String × Tree))
  /-- Given, but as nothing. -/
  | absent
  /-- A value of a type that no field has. -/
  | other
  deriving Inhabited

namespace Tree

-- ============================================================ documents

mutual

/-- The tree of a node of a TOML document. A date stands for a branch
without known fields. -/
def ofNode : Toml.Node → Tree
  | .text s => .text s
  | .integer n => .integer n
  | .boolean b => .boolean b
  | .float => .other
  | .moment => .branch []
  | .array items => .list (ofNodes items)
  | .table _ entries => .branch (ofEntries entries)
  | .tables items => .list (ofTables items)

/-- The trees of the items of an array. -/
def ofNodes : List Toml.Node → List Tree
  | [] => []
  | n :: ns => ofNode n :: ofNodes ns

/-- The fields of a table. -/
def ofEntries : List (String × Toml.Node) → List (String × Tree)
  | [] => []
  | (key, n) :: es => (key, ofNode n) :: ofEntries es

/-- The trees of a list of tables. -/
def ofTables : List (List (String × Toml.Node)) → List Tree
  | [] => []
  | es :: rest => .branch (ofEntries es) :: ofTables rest

end

/-- The tree of a TOML document. -/
def ofToml (s : String) : Option Tree := (Toml.parse s).map fun es => .branch (ofEntries es)

-- =============================================================== types

/-- A text. -/
def text? : Tree → Option String
  | .text s => some s
  | _ => none

/-- A truth value. -/
def boolean? : Tree → Option Bool
  | .boolean b => some b
  | _ => none

/-- A natural number below `bound`. -/
def natural? (bound : Nat) : Tree → Option Nat
  | .integer n => if 0 ≤ n ∧ n < bound then some n.toNat else none
  | _ => none

/-- A number of 64 bits. -/
def uint64? (t : Tree) : Option UInt64 := (t.natural? UInt64.size).map UInt64.ofNat

/-- A number of 16 bits. -/
def uint16? (t : Tree) : Option UInt16 := (t.natural? UInt16.size).map UInt16.ofNat

/-- A list of values of one type. -/
def list? (item : Tree → Option α) : Tree → Option (List α)
  | .list items => items.mapM item
  | _ => none

/-- A value that may be given as nothing. -/
def optional? (item : Tree → Option α) : Tree → Option (Option α)
  | .absent => some none
  | t => (item t).map some

/-- The name of a log format, alone or with nothing under it. -/
def logFormat? (t : Tree) : Option LogFormat :=
  let named (s : String) : Option LogFormat :=
    if s = "pretty" then some .pretty else if s = "json" then some .json else none
  match t with
  | .text s => named s
  | .branch [(s, .absent)] | .branch [(s, .branch [])] | .branch [(s, .list [])] => named s
  | _ => none

-- ============================================================ sections

/-- A section: something with fields. -/
def isSection : Tree → Bool
  | .branch _ | .list _ => true
  | _ => false

/-- The field at a position, by its name or by its place in a list. -/
def field? (t : Tree) (position : Nat) (name : String) : Option Tree :=
  match t with
  | .branch fields => fields.lookup name
  | .list items => items[position]?
  | _ => none

/-- The value of a field, or its default if it is not there. -/
def field (t : Tree) (position : Nat) (name : String) (read : Tree → Option α) (default : α) :
    Option α :=
  match t.field? position name with
  | some v => read v
  | none => some default

/-- Reads the listener's section. -/
def listener? (t : Tree) : Option Listener := do
  let d : Listener := {}
  if !t.isSection then none
  else return {
    bindAddress := ← t.field 0 "bind_address" text? d.bindAddress
    maxBodyBytes := ← t.field 1 "max_body_bytes" uint64? d.maxBodyBytes }

/-- Reads the origin's section. -/
def originSettings? (t : Tree) : Option OriginSettings := do
  let d : OriginSettings := {}
  if !t.isSection then none
  else return {
    baseUrl := ← t.field 0 "base_url" text? d.baseUrl
    timeoutMs := ← t.field 1 "timeout_ms" uint64? d.timeoutMs
    connectTimeoutMs := ← t.field 2 "connect_timeout_ms" uint64? d.connectTimeoutMs
    maxResponseBytes := ← t.field 3 "max_response_bytes" uint64? d.maxResponseBytes }

/-- Reads the section on what is kept. -/
def idempotency? (t : Tree) : Option Idempotency := do
  let d : Idempotency := {}
  if !t.isSection then none
  else return {
    keyHeader := ← t.field 0 "key_header" text? d.keyHeader
    entryTtlSecs := ← t.field 1 "entry_ttl_secs" uint64? d.entryTtlSecs
    definitiveStatuses :=
      ← t.field 2 "definitive_statuses" (list? uint16?) d.definitiveStatuses
    requireKeyForSafeMethods :=
      ← t.field 3 "require_key_for_safe_methods" boolean? d.requireKeyForSafeMethods
    refreshOnReplay := ← t.field 4 "refresh_on_replay" boolean? d.refreshOnReplay
    sweepIntervalSecs := ← t.field 5 "sweep_interval_secs" uint64? d.sweepIntervalSecs
    snapshotPath := ← t.field 6 "snapshot_path" (optional? text?) d.snapshotPath }

/-- Reads the signing section. -/
def signing? (t : Tree) : Option SigningKey := do
  let d : SigningKey := {}
  if !t.isSection then none
  else return {
    privateKey := ← t.field 0 "private_key" (optional? text?) d.privateKey
    signatureMaxAgeSecs := ← t.field 1 "signature_max_age_secs" uint64? d.signatureMaxAgeSecs }

/-- Reads the section on tokens. -/
def auth? (t : Tree) : Option Auth := do
  let d : Auth := {}
  if !t.isSection then none
  else return {
    enabled := ← t.field 0 "enabled" boolean? d.enabled
    trustedAgents := ← t.field 1 "trusted_agents" (list? text?) d.trustedAgents }

/-- Reads the section on whole requests. -/
def timeouts? (t : Tree) : Option Timeouts := do
  let d : Timeouts := {}
  if !t.isSection then none
  else return { requestSecs := ← t.field 0 "request_secs" uint64? d.requestSecs }

/-- Reads the section on what the proxy tells about itself. -/
def observability? (t : Tree) : Option Observability := do
  let d : Observability := {}
  if !t.isSection then none
  else return {
    logLevel := ← t.field 0 "log_level" text? d.logLevel
    logFormat := ← t.field 1 "log_format" logFormat? d.logFormat
    metricsEnabled := ← t.field 2 "metrics_enabled" boolean? d.metricsEnabled
    metricsAddress := ← t.field 3 "metrics_address" text? d.metricsAddress }

/-- Reads a configuration. -/
def config? (t : Tree) : Option ProxyConfig := do
  if !t.isSection then none
  else return {
    listener := ← t.field 0 "listener" listener? {}
    origin := ← t.field 1 "origin" originSettings? {}
    idempotency := ← t.field 2 "idempotency" idempotency? {}
    signing := ← t.field 3 "signing" signing? {}
    auth := ← t.field 4 "auth" auth? {}
    timeouts := ← t.field 5 "timeouts" timeouts? {}
    observability := ← t.field 6 "observability" observability? {} }

end Tree

end OnceProxy.Config

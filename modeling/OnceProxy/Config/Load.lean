/-
Loading a configuration: from octets to a configuration without problems.
-/
import OnceProxy.Config.Tree
import OnceProxy.Config.Validation

namespace OnceProxy.Config

/-- Why a configuration cannot be loaded. -/
inductive ConfigError where
  /-- The file cannot be read as a text. -/
  | unreadable
  /-- The text is no configuration document. -/
  | malformed
  /-- The configuration has problems. -/
  | invalid (problems : List FieldProblem)
  deriving DecidableEq, Repr

/-- The words for problems, all in one line. -/
def invalidMessage (problems : List FieldProblem) : String :=
  "Validation failed: " ++ ", ".intercalate (problems.map FieldProblem.message)

/-- Accepts a configuration without problems. -/
def validate (c : ProxyConfig) : Except ConfigError ProxyConfig :=
  if c.problems.isEmpty then .ok c else .error (.invalid c.problems)

/-- Reads and validates a document. -/
def parse (s : String) : Except ConfigError ProxyConfig :=
  match (Tree.ofToml s).bind Tree.config? with
  | some c => validate c
  | none => .error .malformed

/-- Reads and validates a file's contents; `none` if there is no such file. -/
def load (contents : Option Octets) : Except ConfigError ProxyConfig :=
  match contents.bind Octets.toText? with
  | some s => parse s
  | none => .error .unreadable

end OnceProxy.Config

/-
The gate: whether a request may pass, by the token it carries.

The token stands behind `Bearer ` in the first proxy-authorization field.
Where tokens are not required, every request passes without an agent.
-/
import OnceProxy.Config.Schema
import OnceProxy.Error
import OnceProxy.Signing.Token

namespace OnceProxy

open Crypto Http

/-- Whether tokens are required, and whose count. -/
structure AuthPolicy where
  enabled : Bool
  trusted : List Address

namespace AuthPolicy

/-- The gate of a configuration; agents that are no addresses do not count. -/
def ofConfig (c : Config.Auth) : AuthPolicy := ⟨c.enabled, c.trustedAgents.filterMap Address.parse?⟩

/-- The word in front of a token. -/
def bearer : List Char := "Bearer ".toList

/-- The token that header fields carry. -/
def tokenOf? (h : Headers) : Option String := do
  let cs := (← (← h.first? .proxyAuthorization).text?).toList
  if cs.take bearer.length = bearer then return String.ofList (cs.drop bearer.length) else none

/-- The agent that a request passes for, if tokens are required. -/
def authorize (p : AuthPolicy) (h : Headers) (now : UInt64) : Except ProxyError (Option Token) :=
  if !p.enabled then .ok none
  else
    match tokenOf? h with
    | none => .error (.unauthorized .missingToken)
    | some text =>
      match Token.verify p.trusted text now with
      | .ok token => .ok (some token)
      | .error e => .error (.unauthorized (.badToken e))

end AuthPolicy

end OnceProxy

/-
The key tool: makes keys, shows addresses, and issues tokens.

A command line is read into a command; a command is carried out with the
environment's key, the second it is, and a fresh key for the case that one
is asked for. What it prints is one text.
-/
import OnceProxy.KeyTool.Arguments
import OnceProxy.KeyTool.Help
import OnceProxy.Signing.Token
import OnceProxy.Text.Json

namespace OnceProxy.KeyTool

open Crypto Signing

-- ============================================================== commands

/-- What the tool is asked for. -/
inductive Command where
  | generate
  | address (key : Option String)
  | token (agent : String) (ttlSecs : UInt64) (key : Option String)
  | help (page : Page)
  deriving DecidableEq, Repr

namespace Command

/-- The life of a token, in seconds, unless one is given. -/
def defaultTtlSecs : UInt64 := 3600

/-- An option that allows every value. -/
def textOption (name : String) : OptionRule := ⟨name, fun _ => true⟩

/-- The options of the token command. -/
def tokenOptions : List OptionRule :=
  [textOption "agent", ⟨"ttl-secs", fun v => (Text.Decimal.parseUInt64 v).isSome⟩, textOption "key"]

/-- The command of a set of options. -/
def ofToken (given : Given) : Except UsageFault Command :=
  match given.lookup "agent" with
  | none => .error (.missing "agent")
  | some agent =>
    let ttl := (given.lookup "ttl-secs").bind Text.Decimal.parseUInt64
    .ok (.token agent (ttl.getD defaultTtlSecs) (given.lookup "key"))

/-- The page that the words behind `help` name. -/
def helpPage : List String → Except UsageFault Page
  | [] => .ok .tool
  | ["generate"] => .ok .generate
  | ["address"] => .ok .address
  | ["token"] => .ok .token
  | ["help"] => .ok .help
  | word :: rest => .error (.unknownCommand (rest.headD word))

/-- Reads the options of a command, or finds that help is asked for. -/
def withOptions (rules : List OptionRule) (page : Page) (words : List String)
    (make : Given → Except UsageFault Command) : Except UsageFault Command := do
  match ← readOptions rules [] words with
  | some given => make given
  | none => return .help page

/-- Reads a command line. -/
def parse : List String → Except UsageFault Command
  | [] => .error .noCommand
  | "generate" :: words => withOptions [] .generate words fun _ => .ok .generate
  | "address" :: words =>
    withOptions [textOption "key"] .address words fun given => .ok (.address (given.lookup "key"))
  | "token" :: words => withOptions tokenOptions .token words ofToken
  | "help" :: words => (helpPage words).map .help
  | word :: rest =>
    match readOptions [] [] [word] with
    | .ok none => .ok (.help .tool)
    | .ok (some _) => .error (rest.head?.elim .noCommand .unexpected)
    | .error _ => .error (.unknownCommand word)

end Command

-- =============================================================== reports

/-- What the tool has done. -/
inductive Report where
  | created (signer : Signer)
  | showed (a : Address)
  | issued (agent : String) (expireAt : UInt64) (token : String) (signer : Address)
  | helped (page : Page)

namespace Report

/-- The text that is printed. -/
def render : Report → String
  | .created signer =>
    Text.Json.objectLines [("address", Text.Json.quote signer.address.render),
      ("private_key", Text.Json.quote signer.privateKeyText)] ++ "\n"
  | .showed a => a.render ++ "\n"
  | .issued agent expireAt token signer =>
    Text.Json.objectLines [("agent", Text.Json.quote agent),
      ("expire_at", Text.Decimal.render expireAt.toNat),
      ("header", Text.Json.quote ("Bearer " ++ token)),
      ("signer", Text.Json.quote signer.render)] ++ "\n"
  | .helped page => page.render

end Report

/-- The key of an option, or that of the environment. -/
def chooseSigner (environment option : Option String) : Except SigningError Signer :=
  match option with
  | some text => Signer.ofPrivateKey text
  | none => Signer.ofEnvironment environment

/-- Carries a command out. -/
def Command.perform (environment : Option String) (second : UInt64) (fresh : Signer) :
    Command → Except SigningError Report
  | .generate => .ok (.created fresh)
  | .address key => return .showed (← chooseSigner environment key).address
  | .token agent ttlSecs key => do
    let signer ← chooseSigner environment key
    let expireAt := addSaturating second ttlSecs
    return .issued agent expireAt (Token.issue signer expireAt agent) signer.address
  | .help page => .ok (.helped page)

-- ================================================================== runs

/-- Why the tool did nothing. -/
inductive Failure where
  | usage (fault : UsageFault)
  | key (e : SigningError)

/-- The words for a failure. -/
def Failure.message : Failure → String
  | .usage fault => fault.message
  | .key e => e.message

/-- The exit code of a failure. -/
def Failure.exitCode : Failure → UInt32
  | .usage _ => 2
  | .key _ => 1

/-- Reads a command line and carries its command out. -/
def run (environment : Option String) (second : UInt64) (fresh : Signer) (words : List String) :
    Except Failure Report := do
  let command ← (Command.parse words).mapError .usage
  (command.perform environment second fresh).mapError .key

end OnceProxy.KeyTool

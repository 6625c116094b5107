/-
The help pages of the key tool.
-/
namespace OnceProxy.KeyTool

/-- A help page: of the whole tool or of a command. -/
inductive Page where
  | tool
  | generate
  | address
  | token
  | help
  deriving DecidableEq, Repr

namespace Page

/-- The commands, and what they do. -/
def commands : List (String × String) :=
  [("generate", "Generate a new signer key and print it with its address"),
   ("address", "Print the address (verifier identifier) of a key"),
   ("token", "Issue an inbound proxy token for an agent"),
   ("help", "Print this message or the help of the given subcommand(s)")]

/-- What a page is about. -/
def about : Page → String
  | .tool => "Key and token tooling for the idempotency proxy"
  | .generate => (commands.lookup "generate").getD ""
  | .address => (commands.lookup "address").getD ""
  | .token => (commands.lookup "token").getD ""
  | .help => (commands.lookup "help").getD ""

/-- The words behind the tool's name. -/
def usage : Page → String
  | .tool => "<COMMAND>"
  | .generate => "generate"
  | .address => "address [OPTIONS]"
  | .token => "token [OPTIONS] --agent <AGENT>"
  | .help => "help [COMMAND]..."

/-- The row that every page but one ends with. -/
def helpRow : String × String := ("-h, --help", "Print help")

/-- The headed tables of a page. -/
def tables : Page → List (String × List (String × String))
  | .tool => [("Commands:", commands), ("Options:", [helpRow])]
  | .generate => [("Options:", [helpRow])]
  | .address =>
    [("Options:", [
      ("    --key <KEY>", "Hex private key; falls back to IDEMPOTENT_PROXY_SIGNER_KEY"), helpRow])]
  | .token =>
    [("Options:", [
      ("    --agent <AGENT>", "Agent name embedded in the token"),
      ("    --ttl-secs <TTL_SECS>", "Token lifetime in seconds [default: 3600]"),
      ("    --key <KEY>",
        "Hex private key of a trusted agent; falls back to IDEMPOTENT_PROXY_SIGNER_KEY"),
      helpRow])]
  | .help => [("Arguments:", [("[COMMAND]...", "Print help for the subcommand(s)")])]

/-- The lines of a table, whose second column is aligned. -/
def tableLines (rows : List (String × String)) : List String :=
  let width := (rows.map (·.1.length)).foldl max 0
  rows.map fun (left, right) =>
    "  " ++ left ++ String.ofList (List.replicate (width - left.length) ' ') ++ "  " ++ right

/-- The text of a page. -/
def render (p : Page) : String :=
  let head := [p.about, "", "Usage: proxy-keys " ++ p.usage]
  let lines := head ++ p.tables.flatMap fun (title, rows) => "" :: title :: tableLines rows
  String.join (lines.map (· ++ "\n"))

end Page

end OnceProxy.KeyTool

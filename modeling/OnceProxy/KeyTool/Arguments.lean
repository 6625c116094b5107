/-
Command lines: words with double-dash options.

An option's value is the next word, or stands behind an equals sign; a value
that begins with a dash needs the equals sign, unless it is a single dash.
An option is given once at most, by its whole name. Words are read from left
to right, and the first fault, or the first question for help, decides.
-/
namespace OnceProxy.KeyTool

/-- What is wrong with a command line. -/
inductive UsageFault where
  | noCommand
  | unknownCommand (word : String)
  | unexpected (word : String)
  | noValue (option : String)
  | repeated (option : String)
  | badValue (option value : String)
  | missing (option : String)
  deriving DecidableEq, Repr

/-- The words for a fault. -/
def UsageFault.message : UsageFault → String
  | .noCommand => "a command is required"
  | .unknownCommand word => "unrecognized command '" ++ word ++ "'"
  | .unexpected word => "unexpected argument '" ++ word ++ "'"
  | .noValue option => "a value is required for '--" ++ option ++ "'"
  | .repeated option => "'--" ++ option ++ "' cannot be used multiple times"
  | .badValue option value => "invalid value '" ++ value ++ "' for '--" ++ option ++ "'"
  | .missing option => "'--" ++ option ++ "' is required"

/-- An option, and which of its values are allowed. -/
structure OptionRule where
  name : String
  allows : String → Bool

/-- The options given, by name. -/
abbrev Given := List (String × String)

/-- What a word is, by its dashes. -/
inductive Word where
  /-- The end of the options. -/
  | finish
  | option (name : String) (value : Option String)
  | letters (cs : List Char)
  | plain

/-- The kind of a word. -/
def Word.ofString (s : String) : Word :=
  match s.toList with
  | ['-', '-'] => .finish
  | '-' :: '-' :: cs =>
    let name := String.ofList (cs.takeWhile (· ≠ '='))
    match cs.dropWhile (· ≠ '=') with
    | _ :: value => .option name (some (String.ofList value))
    | [] => .option name none
  | '-' :: c :: cs => .letters (c :: cs)
  | _ => .plain

/-- Whether a word can be a value of its own. -/
def isValue (s : String) : Bool :=
  match Word.ofString s with
  | .plain => true
  | _ => false

/-- Adds an option to those given. -/
def give (given : Given) (rule : OptionRule) (value : String) : Except UsageFault Given :=
  if (given.lookup rule.name).isSome then .error (.repeated rule.name)
  else if rule.allows value then .ok (given ++ [(rule.name, value)])
  else .error (.badValue rule.name value)

/-- Reads the options of a command; none if help is asked for. -/
def readOptions (rules : List OptionRule) (given : Given) :
    List String → Except UsageFault (Option Given)
  | [] => .ok (some given)
  | word :: rest =>
    match Word.ofString word with
    | .finish =>
      match rest with
      | [] => .ok (some given)
      | extra :: _ => .error (.unexpected extra)
    | .plain => .error (.unexpected word)
    | .letters cs => if cs.head? = some 'h' then .ok none else .error (.unexpected word)
    | .option name value? =>
      match rules.find? (·.name = name), value?, rest with
      | some rule, some value, rest => do readOptions rules (← give given rule value) rest
      | some rule, none, value :: rest =>
        if isValue value then do readOptions rules (← give given rule value) rest
        else .error (.noValue name)
      | some _, none, [] => .error (.noValue name)
      | none, none, _ => if name = "help" then .ok none else .error (.unexpected word)
      | none, some _, _ => .error (.unexpected word)
termination_by words => words.length

end OnceProxy.KeyTool

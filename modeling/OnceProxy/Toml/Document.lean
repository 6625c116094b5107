/-
TOML documents.

A document is read into a tree of nodes. Tables remember how they came
about, since that decides how they may still grow: a header may name a
table that so far exists only as the parent of another, dotted keys may
extend only tables made by dotted keys, an inline table never grows, and a
list of tables grows by headers in double brackets.
-/
import OnceProxy.Toml.Number

namespace OnceProxy.Toml

/-- How a table came about. -/
inductive TableKind where
  /-- By a header of its own. -/
  | header
  /-- As the parent of a table with a header. -/
  | parent
  /-- As the parent of a dotted key. -/
  | dotted
  /-- Between braces. -/
  | inline
  deriving DecidableEq

/-- A node of a document. -/
inductive Node where
  | text (s : String)
  | integer (n : Int)
  | boolean (b : Bool)
  | float
  | moment
  | array (items : List Node)
  | table (kind : TableKind) (entries : List (String × Node))
  | tables (items : List (List (String × Node)))

/-- The entries of a table. -/
abbrev Entries := List (String × Node)

namespace Entries

/-- Replaces the node of a key, or adds it at the end. -/
def put (es : Entries) (key : String) (node : Node) : Entries :=
  if (es.lookup key).isSome then es.map fun e => if e.1 = key then (key, node) else e
  else es ++ [(key, node)]

/-- Adds a value under a dotted key. The table that gets it has to be made by
a dotted key too; the way there may also lead through parents and through
the last of a list of tables. -/
def addDotted : (path : List String) → Node → Entries → Option Entries
  | [], _, _ => none
  | [key], node, es => if (es.lookup key).isSome then none else some (es ++ [(key, node)])
  | key :: path, node, es =>
    match es.lookup key with
    | none => do return es ++ [(key, .table .dotted (← addDotted path node []))]
    | some (.table .dotted inner) => do
      return es.put key (.table .dotted (← addDotted path node inner))
    | some (.table .parent inner) =>
      if path.length = 1 then none
      else do return es.put key (.table .parent (← addDotted path node inner))
    | some (.tables items) =>
      if path.length = 1 then none
      else do
        let last ← items.getLast?
        return es.put key (.tables (items.dropLast ++ [← addDotted path node last]))
    | some _ => none

/-- Changes the table at the end of a path of headers. Tables on the way are
made as parents where they are missing; in a list of tables the way leads
through the last. -/
def atPath (change : Entries → Option Entries) : (path : List String) → Entries → Option Entries
  | [], es => change es
  | key :: path, es =>
    match es.lookup key with
    | none => do return es ++ [(key, .table .parent (← atPath change path []))]
    | some (.table .inline _) => none
    | some (.table kind inner) => do return es.put key (.table kind (← atPath change path inner))
    | some (.tables items) => do
      let last ← items.getLast?
      return es.put key (.tables (items.dropLast ++ [← atPath change path last]))
    | some _ => none

end Entries

-- ============================================================== values

/-- The items of an array up to its closing bracket. -/
def arrayItems (value : Parser Node) : (fuel : Nat) → Parser (List Node)
  | 0, _ => none
  | fuel + 1, cs => do
    match ← skipFiller (cs.length + 1) cs with
    | ']' :: rest => return ([], rest)
    | cs =>
      let (item, rest) ← value cs
      match ← skipFiller (rest.length + 1) rest with
      | ',' :: rest =>
        let (items, rest) ← arrayItems value fuel rest
        return (item :: items, rest)
      | ']' :: rest => return ([item], rest)
      | _ => none

/-- A key, an equals sign and a value. -/
def keyValue (value : Parser Node) : Parser (List String × Node) := fun cs => do
  let (path, rest) ← key cs
  let (node, rest) ← value (skipBlanks (← expect '=' rest))
  return ((path, node), rest)

/-- The entries of an inline table from the first key up to its closing brace. -/
def inlineEntries (value : Parser Node) : (fuel : Nat) → Entries → Parser Entries
  | 0, _, _ => none
  | fuel + 1, es, cs => do
    let ((path, node), rest) ← keyValue value cs
    let es ← es.addDotted path node
    match skipBlanks rest with
    | ',' :: rest => inlineEntries value fuel es rest
    | '\x7d' :: rest => return (es, rest)
    | _ => none

/-- A value; `inside` reads the values of arrays and inline tables. -/
def valueWith (inside : Option (Parser Node)) (cs : List Char) : Option (Node × List Char) :=
  match cs with
  | '"' :: _ | '\'' :: _ => (string cs).map fun (s, rest) => (.text s, rest)
  | '[' :: rest => do
    let (items, rest) ← arrayItems (← inside) (rest.length + 1) rest
    return (.array items, rest)
  | '\x7b' :: rest => do
    let inside ← inside
    match skipBlanks rest with
    | '\x7d' :: rest => return (.table .inline [], rest)
    | rest =>
      let (es, rest) ← inlineEntries inside (rest.length + 1) [] rest
      return (.table .inline es, rest)
  | 't' :: 'r' :: 'u' :: 'e' :: rest => some (.boolean true, rest)
  | 'f' :: 'a' :: 'l' :: 's' :: 'e' :: rest => some (.boolean false, rest)
  | _ =>
    if startsMoment cs then (moment cs).map (.moment, ·)
    else
      match float cs with
      | some rest => some (.float, rest)
      | none => (integer cs).map fun (n, rest) => (.integer n, rest)

/-- A value with arrays and inline tables nested at most this deep. -/
def value : (depth : Nat) → Parser Node
  | 0 => valueWith none
  | depth + 1 => valueWith (some (value depth))

-- =============================================================== lines

/-- Where the entries that follow belong. -/
structure Section where
  /-- The path of the header; empty before the first. -/
  path : List String
  /-- Whether the header adds to a list of tables. -/
  isItem : Bool
  /-- The entries of the section so far. -/
  entries : Entries

/-- The document so far without its current section, and that section. -/
structure Draft where
  root : Entries
  current : Section

namespace Draft

/-- Nothing read yet. -/
def empty : Draft := ⟨[], ⟨[], false, []⟩⟩

/-- Puts the current section in its place. -/
def close (d : Draft) : Option Entries :=
  match d.current.path.getLast? with
  | none => some d.current.entries
  | some last =>
    Entries.atPath (fun es =>
      if d.current.isItem then
        match es.lookup last with
        | none => some (es ++ [(last, .tables [d.current.entries])])
        | some (.tables items) => some (es.put last (.tables (items ++ [d.current.entries])))
        | some _ => none
      else some (es.put last (.table .header d.current.entries))) d.current.path.dropLast d.root

/-- Starts the section of a header in single brackets. Only a table that
exists as a parent may be named, and its entries are carried over. -/
def openTable (d : Draft) (path : List String) : Option Draft := do
  let root ← d.close
  let last ← path.getLast?
  let rec find : List String → Entries → Option Entries
    | [], es => some es
    | key :: path, es =>
      match es.lookup key with
      | none => some []
      | some (.table .inline _) => none
      | some (.table _ inner) => find path inner
      | some (.tables items) => do find path (← items.getLast?)
      | some _ => none
  let siblings ← find path.dropLast root
  match siblings.lookup last with
  | none => return ⟨root, ⟨path, false, []⟩⟩
  | some (.table .parent inner) => return ⟨root, ⟨path, false, inner⟩⟩
  | some _ => none

/-- Starts the section of a header in double brackets. -/
def openItem (d : Draft) (path : List String) : Option Draft := do
  let root ← d.close
  let last ← path.getLast?
  let root ← Entries.atPath (fun es =>
    match es.lookup last with
    | none | some (.tables _) => some es
    | some _ => none) path.dropLast root
  return ⟨root, ⟨path, true, []⟩⟩

/-- Adds a value to the current section. -/
def add (d : Draft) (path : List String) (node : Node) : Option Draft := do
  return { d with current := { d.current with entries := ← d.current.entries.addDotted path node } }

end Draft

/-- The end of a line behind its contents. -/
def lineEnd (cs : List Char) : Option (List Char) :=
  match skipComment (skipBlanks cs) with
  | [] => some []
  | cs => newline? cs

/-- A header in single or double brackets. -/
def header (d : Draft) : List Char → Option (Draft × List Char)
  | '[' :: '[' :: rest => do
    let (path, rest) ← key rest
    return (← d.openItem path, ← expect ']' (← expect ']' rest))
  | '[' :: rest => do
    let (path, rest) ← key rest
    return (← d.openTable path, ← expect ']' rest)
  | _ => none

/-- The lines of a document. -/
def lines : (fuel : Nat) → Draft → List Char → Option Draft
  | 0, _, _ => none
  | fuel + 1, d, cs =>
    match skipBlanks cs with
    | [] => some d
    | '#' :: rest =>
      match lineEnd ('#' :: rest) with
      | some [] => some d
      | some rest => lines fuel d rest
      | none => none
    | '[' :: rest => do
      let (d, rest) ← header d ('[' :: rest)
      lines fuel d (← lineEnd rest)
    | cs =>
      match newline? cs with
      | some rest => lines fuel d rest
      | none => do
        let ((path, node), rest) ← keyValue (value (nestingLimit - 1)) cs
        lines fuel (← d.add path node) (← lineEnd rest)

/-- Reads a document; a byte order mark in front of it does not count. -/
def parse (s : String) : Option Entries :=
  let cs := match s.toList with
    | '\uFEFF' :: rest => rest
    | cs => cs
  (lines (cs.length + 1) .empty cs).bind Draft.close

end OnceProxy.Toml

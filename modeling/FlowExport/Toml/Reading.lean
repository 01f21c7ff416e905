/-
# Reading TOML documents

`Toml.read?` reads a whole document of TOML 1.0 or refuses it.  A document is a sequence of
lines: blank ones, headers, and key and value pairs, which belong to the table of the last header.

Lists and tables within braces nest up to a fixed depth, and a key has a bounded number of parts;
both bounds are the same.  The reader of values recurses on the depth that is left, and each loop
goes on only while it consumes text.
-/
import FlowExport.Toml.Quoted
import FlowExport.Toml.Scalar
import FlowExport.Toml.Tree

namespace FlowExport.Toml

open FlowExport.Text

/-- The first depth of nesting, and number of parts of a key, that is refused. -/
def depthLimit : Nat := 80

/-! ## 1. Keys -/

/-- A character of a key that is not quoted. -/
def isBare (c : Char) : Bool :=
  c.isAlphanum || c == '_' || c == '-'

/-- One part of a key. -/
def keyPart : Reader String := fun cs =>
  match cs with
  | '"' :: _ => quotedLine cs
  | '\'' :: _ => quotedLine cs
  | _ =>
    let part := cs.takeWhile isBare
    if part.isEmpty then none else some (String.ofList part, cs.dropWhile isBare)

/-- The parts of a key, joined by points, with spaces around each of them. -/
def keyParts (cs : List Char) : Option (List String × List Char) :=
  match keyPart (skipSpaces cs) with
  | none => none
  | some (part, rest) =>
    match skipSpaces rest with
    | '.' :: next =>
      if next.length < cs.length then
        (keyParts next).map fun (parts, rest) => (part :: parts, rest)
      else none
    | rest => some ([part], rest)
termination_by cs.length

/-- **A key**, dotted or not. -/
def key : Reader (List String) := fun cs => do
  let (parts, rest) ← keyParts cs
  if parts.length < depthLimit then some (parts, rest) else none

/-! ## 2. Values -/

/-- The items of a list up to its closing bracket; a comma may follow the last one. -/
def listItems (item : Reader Document) (cs : List Char) : Option (List Document × List Char) :=
  match skipLines cs with
  | none => none
  | some (']' :: rest) => some ([], rest)
  | some start =>
    match item start with
    | none => none
    | some (document, rest) =>
      match skipLines rest with
      | some (']' :: rest) => some ([document], rest)
      | some (',' :: rest) =>
        if rest.length < cs.length then
          (listItems item rest).map fun (items, rest) => (document :: items, rest)
        else none
      | _ => none
termination_by cs.length

/-- A key, an equals sign and a value on one line. -/
def pair (value : Reader Document) : Reader (List String × Document) := fun cs => do
  let (parts, rest) ← key cs
  match rest with
  | '=' :: rest =>
    let (document, rest) ← value (skipSpaces rest)
    some ((parts, document), rest)
  | _ => none

/-- The pairs of a table within braces, up to the closing one; there is at least one. -/
def tablePairs (value : Reader Document) (cs : List Char) :
    Option (List (List String × Document) × List Char) :=
  match pair value cs with
  | none => none
  | some (first, rest) =>
    match skipSpaces rest with
    | '}' :: rest => some ([first], rest)
    | ',' :: rest =>
      if rest.length < cs.length then
        (tablePairs value rest).map fun (pairs, rest) => (first :: pairs, rest)
      else none
    | _ => none
termination_by cs.length

/-- **A value**, with lists and tables nested at most `depth` deep. -/
def value : (depth : Nat) → Reader Document
  | _, '"' :: cs => (quoted ('"' :: cs)).map fun (text, rest) => (.text text, rest)
  | _, '\'' :: cs => (quoted ('\'' :: cs)).map fun (text, rest) => (.text text, rest)
  | 0, '[' :: _ => none
  | depth + 1, '[' :: cs =>
    (listItems (value depth) cs).map fun (items, rest) => (.list items, rest)
  | 0, '{' :: _ => none
  | depth + 1, '{' :: cs =>
    match skipSpaces cs with
    | '}' :: rest => some (.table [], rest)
    | _ => do
      let (pairs, rest) ← tablePairs (value depth) cs
      return (.table (Entries.documents (← Entries.ofPairs pairs)), rest)
  | _, cs => scalar cs

/-! ## 3. Lines -/

/-- What has been read so far: all tables, and the path of the last header. -/
structure State where
  root : Entries
  path : List String

namespace State

/-- Opens the table of a header. -/
def openTable (s : State) (path : List String) : Option State := do
  let last ← path.getLast?
  let root ← s.root.under false (fun _ entries => entries.openTable last) path.dropLast .opened
  return ⟨root, path⟩

/-- Opens one more table of a list. -/
def openElement (s : State) (path : List String) : Option State := do
  let last ← path.getLast?
  let root ← s.root.under false (fun _ entries => entries.openElement last) path.dropLast .opened
  return ⟨root, path⟩

/-- Adds a value to the table of the last header. -/
def addValue (s : State) (key : List String) (value : Document) : Option State := do
  let root ← s.root.under false (fun _ entries => entries.addValue key value) s.path .opened
  return { s with root }

end State

/-- **One header or pair**, to the end of its line. -/
def statement (s : State) (cs : List Char) : Option (State × List Char) :=
  match cs with
  | '[' :: '[' :: cs => do
    let (path, rest) ← key cs
    match rest with
    | ']' :: ']' :: rest => return (← s.openElement path, ← endLine? rest)
    | _ => none
  | '[' :: cs => do
    let (path, rest) ← key cs
    match rest with
    | ']' :: rest => return (← s.openTable path, ← endLine? rest)
    | _ => none
  | cs => do
    let ((key, document), rest) ← pair (value (depthLimit - 1)) cs
    return (← s.addValue key document, ← endLine? rest)

/-- **The lines of a document**, one after the other. -/
def lines (s : State) (cs : List Char) : Option State :=
  match skipSpaces cs with
  | [] => some s
  | start =>
    match endLine? start with
    | some [] => some s
    | some rest => if rest.length < cs.length then lines s rest else none
    | none =>
      match statement s start with
      | none => none
      | some (s, rest) => if rest.length < cs.length then lines s rest else none
termination_by cs.length

/-- The text without a byte order mark at its front. -/
def skipMark : List Char → List Char
  | '\uFEFF' :: cs => cs
  | cs => cs

/-- **Reads a document.** -/
def read? (text : String) : Option Document := do
  let state ← lines ⟨[], []⟩ (skipMark text.toList)
  return .table (Entries.documents state.root)

/-- What TOML accepts where formats differ: lists may be longer than their section, and an empty
list or table stands beside a name. -/
def dialect : Dialect where
  excessItems := true
  unitValue
    | .list items => items.isEmpty
    | .table entries => entries.isEmpty
    | _ => false

end FlowExport.Toml

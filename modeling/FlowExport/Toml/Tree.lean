/-
# How the tables of a TOML document come about

A table is opened by a header of its own, implied by a header that names a table within it, or
built up by dotted keys, and what may be added to it later depends on that:

* a header may open a table that is new or was only implied, and nothing else;
* a dotted key may pass through implied tables and add to dotted ones, but never to a table that
  a header opened;
* a plain key adds only to the table it stands in;
* no key is given twice, and nothing is added to a value that is complete.

A header in double brackets adds one more table to a list of tables; later headers that pass
through the list mean its last table.
-/
import FlowExport.Document

namespace FlowExport.Toml

/-- **How a table came about.** -/
inductive Origin where
  /-- By a header of its own. -/
  | opened
  /-- By a header that names a table within it. -/
  | implied
  /-- By a dotted key. -/
  | dotted
  deriving DecidableEq, Repr

/-- **What stands under a key.** -/
inductive Node where
  /-- A complete value. -/
  | leaf (value : Document)
  /-- A table that may still grow. -/
  | table (origin : Origin) (entries : List (String × Node))
  /-- A list of tables, each opened by a header in double brackets. -/
  | tables (elements : List (List (String × Node)))

/-- The keys of a table with what stands under them. -/
abbrev Entries := List (String × Node)

namespace Entries

/-- Puts a node under a key, in the place of what stood there. -/
def put (key : String) (node : Node) : Entries → Entries
  | [] => [(key, node)]
  | (k, n) :: entries =>
    if k = key then (k, node) :: entries else (k, n) :: put key node entries

/-- **Applies `change` to the table at the end of a path** of keys, creating the tables that are
missing.  `dotted` tells whether the path is part of a dotted key or of a header. -/
def under (dotted : Bool) (change : Origin → Entries → Option Entries) :
    List String → Origin → Entries → Option Entries
  | [], origin, entries => change origin entries
  | key :: path, _, entries =>
    match entries.lookup key with
    | none => do
      let origin := if dotted then Origin.dotted else .implied
      let inner ← under dotted change path origin []
      return entries.put key (.table origin inner)
    | some (.leaf _) => none
    | some (.table origin inner) =>
      if dotted && origin == .opened then none
      else do
        let inner ← under dotted change path origin inner
        return entries.put key (.table origin inner)
    | some (.tables elements) => do
      let inner ← under dotted change path .opened (← elements.getLast?)
      return entries.put key (.tables (elements.dropLast ++ [inner]))

/-- Opens a table by its own header. -/
def openTable (key : String) (entries : Entries) : Option Entries :=
  match entries.lookup key with
  | none => some (entries.put key (.table .opened []))
  | some (.table .implied inner) => some (entries.put key (.table .opened inner))
  | some _ => none

/-- Adds a table to a list of tables. -/
def openElement (key : String) (entries : Entries) : Option Entries :=
  match entries.lookup key with
  | none => some (entries.put key (.tables [[]]))
  | some (.tables elements) => some (entries.put key (.tables (elements ++ [[]])))
  | some _ => none

/-- **Adds a value under a key**, dotted if it has more than one part. -/
def addValue (key : List String) (value : Document) (entries : Entries) : Option Entries := do
  let last ← key.getLast?
  let path := key.dropLast
  let insert := fun (origin : Origin) (entries : Entries) =>
    if (origin == .dotted) == path.isEmpty then none
    else if (entries.lookup last).isSome then none
    else some (entries.put last (.leaf value))
  entries.under true insert path .opened

/-- The table of key and value pairs within braces. -/
def ofPairs (pairs : List (List String × Document)) : Option Entries :=
  pairs.foldlM (fun entries (key, value) => entries.addValue key value) []

end Entries

/-! ## The document that results -/

mutual

/-- What a node says. -/
def Node.document : Node → Document
  | .leaf value => value
  | .table _ entries => .table (Entries.documents entries)
  | .tables elements => .list (Entries.listDocuments elements)

/-- What the entries of a table say. -/
def Entries.documents : List (String × Node) → List (String × Document)
  | [] => []
  | (key, node) :: entries => (key, node.document) :: Entries.documents entries

/-- What each table of a list says. -/
def Entries.listDocuments : List (List (String × Node)) → List Document
  | [] => []
  | entries :: elements => .table (Entries.documents entries) :: Entries.listDocuments elements

end

end FlowExport.Toml

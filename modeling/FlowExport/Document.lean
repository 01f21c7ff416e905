/-
# Documents

Configurations are read from documents of more than one format, so what a document says is kept
apart from how it is written.  A `Document` is that: scalars, lists, and tables of named entries.
No setting is a fraction or a date, so of those only the presence is kept.

The readers below turn a document into a setting of one type, or refuse it.
-/
import FlowExport.Address.Text

namespace FlowExport

/-- **What a document says.** -/
inductive Document where
  | null
  | boolean (value : Bool)
  | integer (value : Int)
  /-- A number that is written with a fraction or an exponent, or that is none. -/
  | fraction
  | text (value : String)
  /-- A date, a time of day, or both. -/
  | moment
  | list (items : List Document)
  | table (entries : List (String × Document))
  deriving Inhabited

/-- **Where formats differ** in what they accept. -/
structure Dialect where
  /-- A section given as a list may hold more items than the section has settings. -/
  excessItems : Bool
  /-- A name from a fixed choice may be given as a table with that one key; this is what may
  stand beside it. -/
  unitValue : Document → Bool

/-- What JSON accepts: lists no longer than their section, and `null` beside a name. -/
def Dialect.json : Dialect where
  excessItems := false
  unitValue
    | .null => true
    | _ => false

namespace Document

/-! ## 1. Scalars -/

/-- A truth value. -/
def bool? : Document → Option Bool
  | boolean value => some value
  | _ => none

/-- A number of at most `limit`. -/
def nat? (limit : Nat) : Document → Option Nat
  | integer value => if 0 ≤ value ∧ value ≤ limit then some value.toNat else none
  | _ => none

/-- A text. -/
def text? : Document → Option String
  | text value => some value
  | _ => none

/-- An address, with nothing around it. -/
def address? (doc : Document) : Option Address := do
  Address.read? (← doc.text?).toList

/-- An address or nothing. -/
def addressOrNull? : Document → Option (Option Address)
  | null => some none
  | doc => doc.address?.map some

/-- A name from a fixed choice. -/
def name? (dialect : Dialect) : Document → Option String
  | text value => some value
  | table [(key, value)] => if dialect.unitValue value then some key else none
  | _ => none

/-! ## 2. Sections -/

/-- **The settings of a section**, by name or by place. -/
inductive Settings where
  | named (entries : List (String × Document))
  | listed (items : List Document)

/-- **A section of `size` settings.**  A table gives them by name and may hold others; a list
gives the first of them in their fixed order; a date holds none of them. -/
def settings? (dialect : Dialect) (size : Nat) : Document → Option Settings
  | table entries => some (.named entries)
  | moment => some (.named [])
  | list items =>
    if items.length ≤ size || dialect.excessItems then some (.listed items) else none
  | _ => none

namespace Settings

/-- The setting with this name and this place in the fixed order. -/
def get? (s : Settings) (name : String) (place : Nat) : Option Document :=
  match s with
  | named entries => entries.lookup name
  | listed items => items[place]?

/-- A setting that has to be there. -/
def need {α : Type} (s : Settings) (name : String) (place : Nat) (read : Document → Option α) :
    Option α := do
  read (← s.get? name place)

/-- A setting that falls back on a default. -/
def orElse {α : Type} (s : Settings) (name : String) (place : Nat) (default : α)
    (read : Document → Option α) : Option α :=
  match s.get? name place with
  | none => some default
  | some doc => read doc

end Settings

end Document

end FlowExport

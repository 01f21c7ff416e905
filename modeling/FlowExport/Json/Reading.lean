/-
# Reading JSON documents

`Json.read?` reads a whole JSON text (RFC 8259) or refuses it.  A number keeps its value only where
it is written as an integer that 64 bits can hold, with or without a sign; every other one, minus
zero among them, counts as a fraction.  Of several values under one key the last one holds.

Lists and tables nest up to a fixed depth: the reader of values recurses on the depth that is
left, and each loop goes on only while it consumes text.
-/
import FlowExport.Document
import FlowExport.Text.Reader

namespace FlowExport.Json

open FlowExport.Text

/-- The first depth of nesting that is refused. -/
def depthLimit : Nat := 128

/-! ## 1. Blanks and numbers -/

/-- A character that may stand between tokens. -/
def isBlank (c : Char) : Bool :=
  c == ' ' || c == '\t' || c == '\n' || c == '\r'

/-- The text without the blanks at its front. -/
def skipBlank (cs : List Char) : List Char :=
  cs.dropWhile isBlank

/-- A decimal digit. -/
def isDecimal (c : Char) : Bool :=
  (digit? c).isSome

/-- What follows an exponent at the front of a text, if that is none or a proper one. -/
def skipExponent? : List Char → Option (List Char)
  | c :: cs =>
    if c = 'e' || c = 'E' then
      let digits := match cs with
        | '+' :: cs => cs
        | '-' :: cs => cs
        | cs => cs
      if digits.head?.any isDecimal then some (digits.dropWhile isDecimal) else none
    else some (c :: cs)
  | [] => some []

/-- What follows the decimals at the front of a text, if those are none or proper ones. -/
def skipDecimals? : List Char → Option (List Char)
  | '.' :: cs => if cs.head?.any isDecimal then some (cs.dropWhile isDecimal) else none
  | cs => some cs

/-- What a number without decimals and exponent says. -/
def wholeNumber (negative : Bool) (magnitude : Nat) : Document :=
  if negative then
    if 0 < magnitude ∧ magnitude ≤ 1 <<< 63 then .integer (-magnitude) else .fraction
  else if magnitude < UInt64.size then .integer magnitude
  else .fraction

/-- **A number.** -/
def number : Reader Document := fun cs =>
  let (negative, start) := match cs with
    | '-' :: cs => (true, cs)
    | cs => (false, cs)
  let digits := start.takeWhile isDecimal
  let tail := start.dropWhile isDecimal
  if digits.isEmpty || (digits.head? == some '0' && 1 < digits.length) then none
  else do
    let rest ← skipExponent? (← skipDecimals? tail)
    let whole := rest.length == tail.length
    some (if whole then wholeNumber negative (spelled 10 (digits.filterMap digit?)) else .fraction,
      rest)

/-! ## 2. Texts -/

/-- The character of a one-letter escape. -/
def escape? : Char → Option Char
  | '"' => some '"'
  | '\\' => some '\\'
  | '/' => some '/'
  | 'b' => some '\x08'
  | 'f' => some '\x0c'
  | 'n' => some '\n'
  | 'r' => some '\r'
  | 't' => some '\t'
  | _ => none

/-- The unit of sixteen bits that four hexadecimal digits spell. -/
def unit? (a b c d : Char) : Option Nat :=
  ([a, b, c, d].mapM hexDigit?).map (spelled 16)

/-- The character of a unit that is no half of a pair. -/
def single? (unit : Nat) : Option Char :=
  if unit.isValidChar then some (Char.ofNat unit) else none

/-- The character of a pair of units. -/
def paired? (high low : Nat) : Option Char :=
  if 0xD800 ≤ high && high < 0xDC00 && 0xDC00 ≤ low && low < 0xE000 then
    some (Char.ofNat (0x10000 + (high - 0xD800) * 0x400 + (low - 0xDC00)))
  else none

/-- **The rest of a text** after its opening quote, after what has been read of it, reversed. -/
def text (read : List Char) : Reader String
  | '"' :: cs => some (String.ofList read.reverse, cs)
  | '\\' :: 'u' :: a :: b :: c :: d :: cs => do
    let unit ← unit? a b c d
    match single? unit with
    | some first => text (first :: read) cs
    | none =>
      match cs with
      | '\\' :: 'u' :: e :: f :: g :: h :: cs =>
        text ((← paired? unit (← unit? e f g h)) :: read) cs
      | _ => none
  | '\\' :: c :: cs => do text ((← escape? c) :: read) cs
  | c :: cs => if 0x20 ≤ c.toNat then text (c :: read) cs else none
  | [] => none

/-! ## 3. Values -/

/-- The items of a list up to its closing bracket; there is at least one. -/
def items (item : Reader Document) (cs : List Char) : Option (List Document × List Char) :=
  match item cs with
  | none => none
  | some (document, rest) =>
    match skipBlank rest with
    | ']' :: rest => some ([document], rest)
    | ',' :: rest =>
      if rest.length < cs.length then
        (items item rest).map fun (documents, rest) => (document :: documents, rest)
      else none
    | _ => none
termination_by cs.length

/-- A key, a colon and a value. -/
def entry (value : Reader Document) : Reader (String × Document) := fun cs =>
  match skipBlank cs with
  | '"' :: cs => do
    let (key, rest) ← text [] cs
    match skipBlank rest with
    | ':' :: rest =>
      let (document, rest) ← value rest
      some ((key, document), rest)
    | _ => none
  | _ => none

/-- The entries of a table up to its closing brace; there is at least one. -/
def entries (value : Reader Document) (cs : List Char) :
    Option (List (String × Document) × List Char) :=
  match entry value cs with
  | none => none
  | some (first, rest) =>
    match skipBlank rest with
    | '}' :: rest => some ([first], rest)
    | ',' :: rest =>
      if rest.length < cs.length then
        (entries value rest).map fun (others, rest) => (first :: others, rest)
      else none
    | _ => none
termination_by cs.length

/-- The entries that no later one of their key replaces. -/
def lastOfEach : List (String × Document) → List (String × Document)
  | [] => []
  | (key, document) :: later =>
    if later.any (·.1 == key) then lastOfEach later else (key, document) :: lastOfEach later

/-- A value that is neither list nor table. -/
def scalar : Reader Document
  | 'n' :: 'u' :: 'l' :: 'l' :: cs => some (.null, cs)
  | 't' :: 'r' :: 'u' :: 'e' :: cs => some (.boolean true, cs)
  | 'f' :: 'a' :: 'l' :: 's' :: 'e' :: cs => some (.boolean false, cs)
  | '"' :: cs => (text [] cs).map fun (content, rest) => (.text content, rest)
  | cs => number cs

/-- **A value**, with lists and tables nested at most `depth` deep. -/
def value : (depth : Nat) → Reader Document
  | 0, cs => scalar (skipBlank cs)
  | depth + 1, cs =>
    match skipBlank cs with
    | '[' :: rest =>
      match skipBlank rest with
      | ']' :: rest => some (.list [], rest)
      | _ => (items (value depth) rest).map fun (documents, rest) => (.list documents, rest)
    | '{' :: rest =>
      match skipBlank rest with
      | '}' :: rest => some (.table [], rest)
      | _ =>
        (entries (value depth) rest).map fun (found, rest) => (.table (lastOfEach found), rest)
    | rest => scalar rest

/-- **Reads a document.** -/
def read? (source : String) : Option Document :=
  match value (depthLimit - 1) source.toList with
  | some (document, rest) => if (skipBlank rest).isEmpty then some document else none
  | none => none

end FlowExport.Json

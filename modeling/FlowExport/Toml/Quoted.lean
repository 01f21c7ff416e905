/-
# Quoted texts of TOML documents

Basic texts stand between double quotes and know escapes, literal texts stand between single
quotes and know none.  Either may be tripled to span lines; then a line break right after the
opening quotes is left out, a carriage return before a line feed is dropped, and up to two quotes
of the kind may stand anywhere, the very end included.  In a basic text of several lines a
backslash at the end of a line takes back all white space up to the next character.
-/
import FlowExport.Toml.Blank
import FlowExport.Text.Decimal

namespace FlowExport.Toml

open FlowExport.Text

/-! ## 1. Escapes -/

/-- The character of a one-letter escape. -/
def escape? : Char → Option Char
  | 'b' => some '\x08'
  | 't' => some '\t'
  | 'n' => some '\n'
  | 'f' => some '\x0c'
  | 'r' => some '\r'
  | '"' => some '"'
  | '\\' => some '\\'
  | _ => none

/-- The character whose number the hexadecimal digits spell, if there is one. -/
def scalar? (digits : List Char) : Option Char := do
  let number := spelled 16 (← digits.mapM hexDigit?)
  if number.isValidChar then some (Char.ofNat number) else none

/-! ## 2. One line -/

/-- The rest of a basic text, after what has been read of it, reversed. -/
def basic (read : List Char) : Reader String
  | '"' :: cs => some (String.ofList read.reverse, cs)
  | '\\' :: 'u' :: a :: b :: c :: d :: cs => do basic ((← scalar? [a, b, c, d]) :: read) cs
  | '\\' :: 'U' :: a :: b :: c :: d :: e :: f :: g :: h :: cs => do
    basic ((← scalar? [a, b, c, d, e, f, g, h]) :: read) cs
  | '\\' :: c :: cs => do basic ((← escape? c) :: read) cs
  | c :: cs => if isPrintable c then basic (c :: read) cs else none
  | [] => none

/-- The rest of a literal text. -/
def literal (cs : List Char) : Option (String × List Char) :=
  let content := cs.takeWhile fun c => isPrintable c && c != '\''
  match cs.drop content.length with
  | '\'' :: rest => some (String.ofList content, rest)
  | _ => none

/-! ## 3. Several lines -/

/-- **The end of a text of several lines**, right after three quotes: up to two more of them
belong to the text. -/
def closing (quote : Char) (read : List Char) (cs : List Char) : String × List Char :=
  let extra := min 2 (cs.takeWhile (· == quote)).length
  (String.ofList (read.reverse ++ List.replicate extra quote), cs.drop extra)

/-- Where the reader of a basic text stands: within the text, behind a backslash and spaces where
a line break has to follow, or behind that line break. -/
inductive LineJoin where
  | within
  | pending
  | skipping
  deriving DecidableEq

/-- The rest of a basic text of several lines. -/
def basicLines (join : LineJoin) (read : List Char) : Reader String
  | '\r' :: '\n' :: cs =>
    if join = .within then basicLines .within ('\n' :: read) cs else basicLines .skipping read cs
  | '\n' :: cs =>
    if join = .within then basicLines .within ('\n' :: read) cs else basicLines .skipping read cs
  | '"' :: '"' :: '"' :: cs => if join = .pending then none else some (closing '"' read cs)
  | '\\' :: 'u' :: a :: b :: c :: d :: cs =>
    if join = .pending then none
    else do basicLines .within ((← scalar? [a, b, c, d]) :: read) cs
  | '\\' :: 'U' :: a :: b :: c :: d :: e :: f :: g :: h :: cs =>
    if join = .pending then none
    else do basicLines .within ((← scalar? [a, b, c, d, e, f, g, h]) :: read) cs
  | '\\' :: '\r' :: '\n' :: cs =>
    if join = .pending then none else basicLines .skipping read cs
  | '\\' :: c :: cs =>
    if join = .pending then none
    else if c = '\n' then basicLines .skipping read cs
    else if isSpace c then basicLines .pending read cs
    else do basicLines .within ((← escape? c) :: read) cs
  | c :: cs =>
    if join ≠ .within && isSpace c then basicLines join read cs
    else if join = .pending then none
    else if isPrintable c then basicLines .within (c :: read) cs
    else none
  | [] => none

/-- The rest of a literal text of several lines. -/
def literalLines (read : List Char) : Reader String
  | '\r' :: '\n' :: cs => literalLines ('\n' :: read) cs
  | '\n' :: cs => literalLines ('\n' :: read) cs
  | '\'' :: '\'' :: '\'' :: cs => some (closing '\'' read cs)
  | c :: cs => if isPrintable c then literalLines (c :: read) cs else none
  | [] => none

/-- The text without a line break at its front. -/
def skipBreak (cs : List Char) : List Char :=
  (newline? cs).getD cs

/-- **A quoted text on one line**, as keys are written too. -/
def quotedLine : Reader String
  | '"' :: cs => basic [] cs
  | '\'' :: cs => literal cs
  | _ => none

/-- **A quoted text.** -/
def quoted : Reader String
  | '"' :: '"' :: '"' :: cs => basicLines .within [] (skipBreak cs)
  | '\'' :: '\'' :: '\'' :: cs => literalLines [] (skipBreak cs)
  | cs => quotedLine cs

end FlowExport.Toml

/-
# What stands between the tokens of a TOML document

Spaces and tabs separate tokens within a line; a line ends with a line feed, with or without a
carriage return before it, or with the document.  A comment runs from `#` to the end of its line
and may hold every character but control characters other than the tab.
-/
import FlowExport.Text.Reader

namespace FlowExport.Toml

/-- Space or tab. -/
def isSpace (c : Char) : Bool :=
  c == ' ' || c == '\t'

/-- A character that may stand in a comment or a one-line text: no control character but the
tab. -/
def isPrintable (c : Char) : Bool :=
  c == '\t' || (0x20 ≤ c.toNat && c.toNat != 0x7F)

/-- The text without the spaces at its front. -/
def skipSpaces (cs : List Char) : List Char :=
  cs.dropWhile isSpace

/-- What follows a line break. -/
def newline? : List Char → Option (List Char)
  | '\n' :: cs => some cs
  | '\r' :: '\n' :: cs => some cs
  | _ => none

/-- The text without a comment at its front. -/
def skipComment : List Char → List Char
  | '#' :: cs => cs.dropWhile isPrintable
  | cs => cs

/-- **The end of a line**: spaces, a comment, and a line break or the end of the document. -/
def endLine? (cs : List Char) : Option (List Char) :=
  match skipComment (skipSpaces cs) with
  | [] => some []
  | cs => newline? cs

/-- **Skips spaces, comments and line breaks** before the next token of a list.  A comment there
has to end with a line break. -/
def skipLines (cs : List Char) : Option (List Char) :=
  match skipSpaces cs with
  | '#' :: comment =>
    match newline? (comment.dropWhile isPrintable) with
    | some line => if line.length < cs.length then skipLines line else none
    | none => none
  | next =>
    match newline? next with
    | some line => if line.length < cs.length then skipLines line else none
    | none => some next
termination_by cs.length

end FlowExport.Toml

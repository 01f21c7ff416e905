/-
# Readers

Documents are read from the front.  A reader takes the text that is left and returns what it has
read with what is left then, or refuses.
-/
namespace FlowExport.Text

/-- **A reader** of the front of a text. -/
abbrev Reader (α : Type) := List Char → Option (α × List Char)

end FlowExport.Text

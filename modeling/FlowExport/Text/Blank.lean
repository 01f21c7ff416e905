/-
# Blank characters: the Unicode property `White_Space`

Lines of observations and addresses typed by a person are cut at white space in the sense of the
Unicode character database, which is wider than ASCII: the no-break spaces, the ideographic space
and the line and paragraph separators all count, the zero-width space does not.

`isBlank` is the property, `trimmed` drops it at both ends of a text, and `words` are the maximal
runs without it.
-/
namespace FlowExport.Text

/-- **White space.**  The twenty-five characters of the property `White_Space`. -/
def isBlank (c : Char) : Bool :=
  let n := c.toNat
  (9 ≤ n && n ≤ 13) || n == 32 || n == 0x85 || n == 0xA0 || n == 0x1680
    || (0x2000 ≤ n && n ≤ 0x200A) || n == 0x2028 || n == 0x2029 || n == 0x202F
    || n == 0x205F || n == 0x3000

/-- Core's own class of white space is part of the property. -/
theorem isBlank_of_isWhitespace {c : Char} (h : c.isWhitespace) : isBlank c := by
  simp only [Char.isWhitespace, Bool.or_eq_true, decide_eq_true_eq] at h
  rcases h with ((h | h) | h) | h <;> subst h <;> decide

/-- The text without the white space at its two ends. -/
def trimmed (cs : List Char) : List Char :=
  ((cs.dropWhile isBlank).reverse.dropWhile isBlank).reverse

/-- Cuts at every blank, empty runs included; the first run is extended by `run`, reversed. -/
def runs (run : List Char) : List Char → List (List Char)
  | [] => [run.reverse]
  | c :: cs => if isBlank c then run.reverse :: runs [] cs else runs (c :: run) cs

/-- **The words of a text**: its maximal runs without white space, in order. -/
def words (cs : List Char) : List (List Char) :=
  (runs [] cs).filter (!·.isEmpty)

/-- A word holds at least one character. -/
theorem ne_nil_of_mem_words {cs word : List Char} (h : word ∈ words cs) : word ≠ [] := by
  have := (List.mem_filter.mp h).2
  rintro rfl
  simp at this

end FlowExport.Text

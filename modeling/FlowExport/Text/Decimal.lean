/-
# Decimal numbers as people type them

`unsigned? limit` reads a whole text as an unsigned decimal number: ASCII digits, at least one,
with any number of leading zeros and at most one `+` in front.  A value above `limit` is no
number of the width asked for and is refused, as is every other character, a sign of its own and
a lone `+` included.
-/
namespace FlowExport.Text

/-- The value of a decimal digit. -/
def digit? (c : Char) : Option Nat :=
  if '0' ≤ c && c ≤ '9' then some (c.toNat - '0'.toNat) else none

/-- The value of a hexadecimal digit, of either case. -/
def hexDigit? (c : Char) : Option Nat :=
  if 'a' ≤ c && c ≤ 'f' then some (c.toNat - 'a'.toNat + 10)
  else if 'A' ≤ c && c ≤ 'F' then some (c.toNat - 'A'.toNat + 10)
  else digit? c

/-- The number that digits spell in a radix, the most significant first. -/
def spelled (radix : Nat) (digits : List Nat) : Nat :=
  digits.foldl (fun acc d => acc * radix + d) 0

/-- Drops one plus sign. -/
def withoutPlus : List Char → List Char
  | '+' :: cs => cs
  | cs => cs

/-- **A whole text as an unsigned decimal number** of at most `limit`. -/
def unsigned? (limit : Nat) (cs : List Char) : Option Nat := do
  let digits ← (withoutPlus cs).mapM digit?
  if digits.isEmpty then none
  else if spelled 10 digits ≤ limit then some (spelled 10 digits)
  else none

/-- What is read is within the limit. -/
theorem unsigned?_le {limit n : Nat} {cs : List Char} (h : unsigned? limit cs = some n) :
    n ≤ limit := by
  unfold unsigned? at h
  simp only [Option.bind_eq_bind, Option.bind_eq_some_iff] at h
  obtain ⟨digits, -, h⟩ := h
  split at h
  · simp at h
  · split at h
    · simp only [Option.some.injEq] at h
      omega
    · simp at h

end FlowExport.Text

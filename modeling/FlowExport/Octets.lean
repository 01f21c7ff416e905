/-
# Octets: big-endian fields over byte lists

Every number on the wire is unsigned and big-endian.  `Octets.ofNat w n` writes `n` into `w`
octets, the high one first, keeping `n` modulo `256 ^ w`; `Octets.toNat` reads any byte list
back as a number.

The second half holds the two shapes in which raw bytes are cut and laid over each other:
`Octets.pieces` cuts a body into records of one width, `Octets.overlay` copies the front of a
field into place and leaves the rest of it as it was.  `total` adds up lengths, and counts.
-/
namespace FlowExport

/-- **Lengths or counts, added up.** -/
def total (lengths : List Nat) : Nat :=
  lengths.foldr (· + ·) 0

theorem length_flatten_eq_total {α : Type} (parts : List (List α)) :
    parts.flatten.length = total (parts.map List.length) := by
  induction parts with
  | nil => rfl
  | cons part parts ih =>
    rw [List.flatten_cons, List.length_append, ih]
    rfl

namespace Octets

/-! ## 1. Numbers -/

/-- **The low `w` octets of `n`**, the highest of them first. -/
def ofNat : (w : Nat) → Nat → List UInt8
  | 0, _ => []
  | w + 1, n => UInt8.ofNat (n >>> (8 * w)) :: ofNat w n

/-- **The number a byte list denotes**, read big-endian; the empty list denotes zero. -/
def toNat (bytes : List UInt8) : Nat :=
  bytes.foldl (fun acc b => acc * 256 + b.toNat) 0

/-- Two octets as a word. -/
def word16 (hi lo : UInt8) : UInt16 :=
  UInt16.ofNat (toNat [hi, lo])

/-- Four octets as a double word. -/
def word32 (a b c d : UInt8) : UInt32 :=
  UInt32.ofNat (toNat [a, b, c, d])

/-- Octets as lower-case hexadecimal digits. -/
def text (bytes : List UInt8) : String :=
  String.ofList (bytes.flatMap fun b =>
    [Nat.digitChar (b.toNat / 16), Nat.digitChar (b.toNat % 16)])

@[simp] theorem length_ofNat (w n : Nat) : (ofNat w n).length = w := by
  induction w with
  | zero => rfl
  | succ w ih => simp [ofNat, ih]

@[simp] theorem toNat_nil : toNat [] = 0 := rfl

/-! ## 2. Records and fields -/

/-- **The first `count` pieces of `width` octets each.** -/
def cut (width : Nat) : (count : Nat) → List UInt8 → List (List UInt8)
  | 0, _ => []
  | count + 1, bytes => bytes.take width :: cut width count (bytes.drop width)

/-- **A body cut into pieces of `width` octets**; a shorter tail is left out, and so is
everything when the width is zero. -/
def pieces (width : Nat) (bytes : List UInt8) : List (List UInt8) :=
  cut width (bytes.length / width) bytes

/-- **`source` laid over the front of `field`.**  The field keeps its length: what does not
fit is cut, what is not covered stays. -/
def overlay (source field : List UInt8) : List UInt8 :=
  source.take field.length ++ field.drop source.length

@[simp] theorem length_overlay (source field : List UInt8) :
    (overlay source field).length = field.length := by
  simp only [overlay, List.length_append, List.length_take, List.length_drop]
  omega

/-- A source of the field's own length replaces it. -/
theorem overlay_eq_self {source field : List UInt8} (h : source.length = field.length) :
    overlay source field = source := by
  simp [overlay, ← h]

end Octets

end FlowExport

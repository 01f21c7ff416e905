/-
# Unsigned fields of any width

A counter goes into a field as wide as its specifier says.  The writer has two ways: it pads a field
of eight octets or more and cuts eight octets down to a narrower one, after it has lowered the value
to what so many octets can hold.  Both come to the same formula (`renderUnsigned_eq`), the octets of
the value or of `256 ^ width - 1`, whichever is less, and in a field without octets that is zero.

`Checked.writeUnsigned` is the writer on the field itself: it splits the field, computes the bound
in 64 bits by a shift, and copies octets into ranges they have to fill exactly.  No width makes any
of this stop (`writeUnsigned_eq`).  So nothing of the field's earlier content is left, the field can
be read back as the value as far as that fits, and fields of one width are ordered by their octets
as the values are (`unsigned_saturates`).
-/
import FlowExport.Proofs.Checked.Reading
import FlowExport.Wire.Element

namespace FlowExport

/-! ## 1. One formula for both ways -/

/-- Eight octets hold every value. -/
theorem toNat_lt_of_eight_le (value : UInt64) {width : Nat} (h : 8 ≤ width) :
    value.toNat < 256 ^ width :=
  calc value.toNat < 256 ^ 8 := value.toNat_lt
    _ ≤ 256 ^ width := Nat.pow_le_pow_right (by omega) h

theorem shiftLeft_eq_pow (width : Nat) : 1 <<< (width * 8) = 256 ^ width := by
  rw [Nat.one_shiftLeft, Nat.mul_comm, Nat.pow_mul]

/-- **A field holds the value, or the largest that fits**: padding and cutting are one formula. -/
theorem renderUnsigned_eq (value : UInt64) (width : Nat) :
    renderUnsigned value width
      = Octets.ofNat width (min value.toNat (256 ^ width - 1)) := by
  unfold renderUnsigned
  split
  · rename_i hwide
    have hlt := toNat_lt_of_eight_le value hwide
    obtain ⟨k, rfl⟩ := Nat.exists_eq_add_of_le' hwide
    rw [Nat.add_sub_cancel, Nat.min_eq_left (by omega), Octets.ofNat_add_of_lt value.toNat_lt]
  · rename_i hnarrow
    obtain ⟨k, hk⟩ := Nat.exists_eq_add_of_le' (Nat.le_of_not_le hnarrow)
    rw [shiftLeft_eq_pow, hk, Nat.add_sub_cancel, Octets.drop_ofNat]

theorem toNat_renderUnsigned (value : UInt64) (width : Nat) :
    Octets.toNat (renderUnsigned value width) = min value.toNat (256 ^ width - 1) := by
  have hpos : 0 < 256 ^ width := Nat.pow_pos (by omega)
  rw [renderUnsigned_eq, Octets.toNat_ofNat, Nat.mod_eq_of_lt (by omega)]

/-! ## 2. The writer on the field itself -/

namespace Checked

/-- Octets copied over a range, if they fill it exactly. -/
def copyOver (octets range : List UInt8) : Option (List UInt8) :=
  if octets.length = range.length then some octets else none

/-- A one shifted to the left in 64 bits, if it is not shifted out. -/
def shiftedOne (places : Nat) : Option UInt64 :=
  if places < 64 then some (1 <<< UInt64.ofNat places) else none

/-- **An unsigned value, written over a field.** -/
def writeUnsigned (value : UInt64) (field : List UInt8) : Option (List UInt8) :=
  let width := field.length
  if 8 ≤ width then do
    let start ← sub width 8
    let front ← slice field 0 start
    let back ← slice field start width
    let octets ← copyOver (Octets.ofNat 8 value.toNat) back
    return front.map (fun _ => 0) ++ octets
  else do
    let bound ← shiftedOne (width * 8)
    let start ← sub 8 width
    let octets ← slice (Octets.ofNat 8 (min value (bound - 1)).toNat) start 8
    copyOver octets field

theorem toNat_min (a b : UInt64) : (min a b).toNat = min a.toNat b.toNat := by
  simp only [min, UInt64.le_iff_toNat_le]
  split <;> rfl

/-- The bound of each of the narrow widths, in 64 bits. -/
theorem toNat_bound : ∀ width < 8,
    ((1 : UInt64) <<< UInt64.ofNat (width * 8) - 1).toNat = 1 <<< (width * 8) - 1 := by
  decide

/-- **The writer never stops**, and leaves nothing of what the field held. -/
theorem writeUnsigned_eq (value : UInt64) (field : List UInt8) :
    writeUnsigned value field = some (renderUnsigned value field.length) := by
  unfold writeUnsigned renderUnsigned
  rcases Nat.lt_or_ge field.length 8 with hnarrow | hwide
  · -- cut down: the bound is a power of two less one, and at most seven octets are shifted
    have hone : shiftedOne (field.length * 8) = some (1 <<< UInt64.ofNat (field.length * 8)) :=
      if_pos (by omega)
    have hbound := toNat_bound field.length hnarrow
    have hcut : ∀ n, slice (Octets.ofNat 8 n) (8 - field.length) 8
        = some ((Octets.ofNat 8 n).drop (8 - field.length)) := by
      intro n
      have hstart : 8 - field.length ≤ (Octets.ofNat 8 n).length := by
        rw [Octets.length_ofNat]
        omega
      simpa only [Octets.length_ofNat] using slice_back hstart
    simp only [if_neg (Nat.not_le.mpr hnarrow), hone, sub_eq (Nat.le_of_lt hnarrow), toNat_min,
      hbound, hcut, Option.bind_eq_bind, Option.bind_some]
    exact if_pos (by rw [List.length_drop, Octets.length_ofNat]; omega)
  · -- padded: the last eight octets are the value, the ones in front are zeros
    have hback : copyOver (Octets.ofNat 8 value.toNat) (field.drop (field.length - 8))
        = some (Octets.ofNat 8 value.toNat) :=
      if_pos (by rw [Octets.length_ofNat, List.length_drop]; omega)
    simp only [if_pos hwide, sub_eq hwide, slice_front (Nat.sub_le _ 8),
      slice_back (Nat.sub_le _ 8), hback, Option.bind_eq_bind, Option.bind_some,
      Option.pure_def, List.map_const', List.length_take, Nat.min_eq_left (Nat.sub_le _ 8)]

end Checked

/-! ## 3. What a field holds afterwards -/

/-- **An unsigned value is written over the whole field, saturating.**  Whatever the field holds,
the writer does not stop, and afterwards the field has as many octets, and these are the value, or
the largest that so many octets can hold; and two values, written over fields of one width, compare
octet by octet as they do after being lowered to that bound. -/
theorem unsigned_saturates {R : Type} (value : R → UInt64) (record : R) (field : List UInt8) :
    let written := (Rendering.unsigned value).render record field
    let largest := 256 ^ field.length - 1
    Checked.writeUnsigned (value record) field = some written ∧
    written.length = field.length ∧
    Octets.toNat written = min (value record).toNat largest ∧
    ∀ (other : R) (field' : List UInt8), field'.length = field.length →
      compare written ((Rendering.unsigned value).render other field')
        = compare (min (value record).toNat largest) (min (value other).toNat largest) := by
  intro written largest
  have hlength : written.length = field.length := length_renderUnsigned _ _
  have hvalue : Octets.toNat written = min (value record).toNat largest :=
    toNat_renderUnsigned _ _
  refine ⟨Checked.writeUnsigned_eq _ _, hlength, hvalue, fun other field' hfield => ?_⟩
  have hother : Octets.toNat ((Rendering.unsigned value).render other field')
      = min (value other).toNat largest :=
    (toNat_renderUnsigned (value other) field'.length).trans (by rw [hfield])
  have hsame : written.length = ((Rendering.unsigned value).render other field').length := by
    rw [hlength, Rendering.length_render, hfield]
  rw [Octets.compare_eq_compare_toNat hsame, hvalue, hother]

/-- Two octets at their bound: the first value that does not fit becomes the last that does, and so
does any above it, over whatever the fields held. -/
theorem unsigned_saturates_twoOctets :
    let written := (Rendering.unsigned id).render 65536 [0xAA, 0xAA]
    [1, 2].length = [0xAA, 0xAA].length ∧
      Checked.writeUnsigned 65536 [0xAA, 0xAA] = some written ∧
      written.length = 2 ∧ Octets.toNat written = 65535 ∧
      compare written ((Rendering.unsigned id).render 18446744073709551615 [1, 2]) = .eq ∧
      compare written ((Rendering.unsigned id).render 65534 [1, 2]) = .gt := by
  intro written
  obtain ⟨hwrite, hlength, hvalue, hcompare⟩ := unsigned_saturates id 65536 [0xAA, 0xAA]
  exact ⟨rfl, hwrite, hlength, hvalue, (hcompare 18446744073709551615 [1, 2] rfl).trans (by decide),
    (hcompare 65534 [1, 2] rfl).trans (by decide)⟩

end FlowExport

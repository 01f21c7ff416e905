/-
# Information elements

An element pairs a field specifier with a rule that renders the field of a record.  The codec
knows nothing else about records, so a new kind of field is a new rule and no change to the codec.

A rule works on a field that is already there, as wide as the specifier says, and may leave part
of it as it was; it cannot change the width (`Rendering.length_render`).
-/
import FlowExport.Wire.FieldSpecifier

namespace FlowExport

/-! ## 1. Unsigned fields -/

/-- **The octets of an unsigned value in a field of `width` octets.**  A field of eight octets or
more is padded in front; a narrower one holds the value or, where that does not fit, the largest
value it can hold. -/
def renderUnsigned (value : UInt64) (width : Nat) : List UInt8 :=
  if 8 ≤ width then List.replicate (width - 8) 0 ++ Octets.ofNat 8 value.toNat
  else (Octets.ofNat 8 (min value.toNat (1 <<< (width * 8) - 1))).drop (8 - width)

@[simp] theorem length_renderUnsigned (value : UInt64) (width : Nat) :
    (renderUnsigned value width).length = width := by
  unfold renderUnsigned
  split
  · simp only [List.length_append, List.length_replicate, Octets.length_ofNat]
    omega
  · simp only [List.length_drop, Octets.length_ofNat]
    omega

/-! ## 2. Rules and elements -/

/-- **A rule that renders one field** of records of type `R` into an existing field. -/
structure Rendering (R : Type) where
  render : R → List UInt8 → List UInt8
  length_render : ∀ record field, (render record field).length = field.length

namespace Rendering

variable {R : Type}

attribute [simp] length_render

/-- Renders an unsigned value over the whole field. -/
def unsigned (value : R → UInt64) : Rendering R :=
  ⟨fun record field => renderUnsigned (value record) field.length, by simp⟩

/-- Copies octets to the front of the field. -/
def copy (octets : R → List UInt8) : Rendering R :=
  ⟨fun record field => Octets.overlay (octets record) field, by simp⟩

/-- The rule that `choose` picks for the record. -/
def choice (choose : R → Rendering R) : Rendering R :=
  ⟨fun record field => (choose record).render record field, by simp⟩

/-- Leaves the field as it is. -/
def keep : Rendering R :=
  ⟨fun _ field => field, by simp⟩

end Rendering

/-- **An information element**: one exportable field of records of type `R`. -/
structure Element (R : Type) where
  specifier : FieldSpecifier
  valid : specifier.Valid
  rendering : Rendering R

namespace Element

variable {R : Type}

/-- An element whose specifier obeys the rules. -/
def make (id size : UInt16) (enterprise : UInt32) (rendering : Rendering R) :
    Except CodecError (Element R) :=
  match h : FieldSpecifier.make id size enterprise with
  | .ok specifier => .ok ⟨specifier, (FieldSpecifier.make_eq_ok_iff.mp h).2, rendering⟩
  | .error e => .error e

/-- The width of the field in octets. -/
def size (e : Element R) : Nat :=
  e.specifier.size.toNat

/-- **The field of a record**, rendered into zeros. -/
def field (e : Element R) (record : R) : List UInt8 :=
  e.rendering.render record (List.replicate e.size 0)

@[simp] theorem length_field (e : Element R) (record : R) : (e.field record).length = e.size := by
  simp [field]

/-- No field is empty. -/
theorem size_pos (e : Element R) : 0 < e.size := by
  refine Nat.pos_of_ne_zero fun h => e.valid.1 ?_
  exact UInt16.toNat_inj.mp h

end Element

end FlowExport

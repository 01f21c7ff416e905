/-
# Compact messages

`CompactMessage.parse` checks a compact message once, to the last set, and keeps the octets of
its sets as they are.  Everything after that reads them lazily and checks nothing again: the sets
are cut by the lengths found in them, the records of a set by dividing its body evenly, its
specifiers by reading until the body ends.

The format has no record width and no sender; a data set is even when its body is a whole number
of non-empty records for its count.
-/
import FlowExport.Wire.Frame
import FlowExport.Wire.Layout

namespace FlowExport

/-! ## 1. Header and sets -/

/-- **The header of a compact message**; `sequence` is the low half of the exporter's number. -/
structure CompactHeader where
  kind : Kind
  sequence : UInt16
  length : UInt16
  deriving DecidableEq, Repr

/-- Reads the header and checks it against the datagram that it opens. -/
def CompactHeader.read (bytes : List UInt8) : Except CodecError CompactHeader :=
  match bytes with
  | first :: s₁ :: s₀ :: l₁ :: l₀ :: _ =>
    if first / 16 ≠ compactNibble then .error (.malformedHeader (.notCompact first))
    else
      match Kind.ofCode? (first % 16) with
      | none => .error (.malformedHeader (.unknownKind (first % 16)))
      | some kind =>
        let length := Octets.word16 l₁ l₀
        if length.toNat < Encoding.compact.headerLength ∨ bytes.length < length.toNat then
          .error (.malformedHeader (.lengthMismatch length bytes.length))
        else .ok ⟨kind, Octets.word16 s₁ s₀, length⟩
  | _ => .error (.truncated Encoding.compact.headerLength bytes.length)

/-- **A set of a compact message**: the template's full id, the number of its fields or records,
and the body. -/
structure CompactSet where
  template : UInt16
  count : UInt8
  body : List UInt8
  deriving DecidableEq, Repr

namespace CompactSet

/-- The set in a frame. -/
def ofFrame (frame : Frame) : CompactSet :=
  ⟨templateOfCompact frame.lead.1, frame.lead.2, frame.body⟩

/-- Whether the body is a whole number of non-empty records for the count. -/
def isEven (s : CompactSet) : Bool :=
  if s.count = 0 then s.body.isEmpty
  else !s.body.isEmpty && s.body.length % s.count.toNat == 0

/-- **Checks the body of a set** against its count: even records, or exactly so many
specifiers. -/
def check (kind : Kind) (s : CompactSet) : Except CodecError Unit :=
  match kind with
  | .data =>
    if s.isEven then .ok ()
    else .error (.malformedSet s.template (.unevenRecords s.body.length s.count))
  | .template =>
    match FieldSpecifier.readMany s.count.toNat s.body with
    | .error e => .error e
    | .ok (_, trailing) =>
      if trailing.isEmpty then .ok ()
      else .error (.malformedSet s.template (.trailingOctets trailing.length s.count))

/-- **The octets of one record** of a data set, zero for an empty set. -/
def recordWidth (s : CompactSet) : Nat :=
  if s.count = 0 then 0 else s.body.length / s.count.toNat

/-- **The records of a data set.** -/
def records (s : CompactSet) : List (List UInt8) :=
  Octets.pieces (max s.recordWidth 1) (if s.count = 0 then [] else s.body)

/-- **The specifiers of a template set.** -/
def specifiers (s : CompactSet) : List FieldSpecifier :=
  FieldSpecifier.readAll s.body

end CompactSet

/-! ## 2. Messages -/

/-- **A compact message** that has been checked: its header and the octets of its sets. -/
structure CompactMessage where
  header : CompactHeader
  payload : List UInt8
  deriving DecidableEq, Repr

namespace CompactMessage

/-- **Reads and checks a compact message.**  What stands in the datagram behind the announced
length is not looked at. -/
def parse (bytes : List UInt8) : Except CodecError CompactMessage := do
  let header ← CompactHeader.read bytes
  let payload := (bytes.take header.length.toNat).drop Encoding.compact.headerLength
  let _ ← Frame.walk (fun lead => templateOfCompact lead.1)
    (fun frame => (CompactSet.ofFrame frame).check header.kind) payload
  return ⟨header, payload⟩

/-- What the message carries. -/
def kind (m : CompactMessage) : Kind :=
  m.header.kind

/-- **The sets of the message**, in order. -/
def sets (m : CompactMessage) : List CompactSet :=
  (Frame.split m.payload).map CompactSet.ofFrame

/-- **The data records in all sets.** -/
def recordCount (m : CompactMessage) : Nat :=
  match m.kind with
  | .data => total (m.sets.map (·.count.toNat))
  | .template => 0

end CompactMessage

end FlowExport

/-
# Full messages

A reader of the full encoding, as a collector has it.  `FullMessage.decode` checks the header
against the datagram, cuts the rest into sets, reads every template set to the last specifier and
keeps the bodies of data sets as they are; sets with any other id are skipped.  What stands in
the datagram behind the announced length is not looked at.

A data body means nothing without its template: `TemplateRecord.records` cuts it into records and
`TemplateRecord.fieldValues` cuts a record into fields.
-/
import FlowExport.Wire.Frame
import FlowExport.Wire.Layout

namespace FlowExport

/-! ## 1. Parts of a message -/

/-- **The header of a full message.** -/
structure FullHeader where
  version : UInt16
  length : UInt16
  time : UInt32
  sequence : UInt32
  domain : UInt32
  deriving DecidableEq, Repr

/-- **A template as a message defines it.** -/
structure TemplateRecord where
  template : UInt16
  fields : List FieldSpecifier
  deriving DecidableEq, Repr

/-- **A set of a full message.** -/
inductive FullSet where
  | templates (records : List TemplateRecord)
  | data (template : UInt16) (body : List UInt8)
  deriving DecidableEq, Repr

/-- **A full message** that has been read. -/
structure FullMessage where
  header : FullHeader
  sets : List FullSet
  deriving DecidableEq, Repr

/-! ## 2. Header -/

/-- Reads the header and checks it against the datagram that it opens. -/
def FullHeader.read (bytes : List UInt8) : Except CodecError FullHeader :=
  match bytes with
  | v₁ :: v₀ :: l₁ :: l₀ :: t₃ :: t₂ :: t₁ :: t₀ :: s₃ :: s₂ :: s₁ :: s₀ ::
      d₃ :: d₂ :: d₁ :: d₀ :: _ =>
    let version := Octets.word16 v₁ v₀
    let length := Octets.word16 l₁ l₀
    if version ≠ protocolVersion then
      .error (.malformedHeader (.unsupportedVersion version))
    else if length.toNat < Encoding.full.headerLength ∨ bytes.length < length.toNat then
      .error (.malformedHeader (.lengthMismatch length bytes.length))
    else
      .ok ⟨version, length, Octets.word32 t₃ t₂ t₁ t₀, Octets.word32 s₃ s₂ s₁ s₀,
        Octets.word32 d₃ d₂ d₁ d₀⟩
  | _ => .error (.truncated Encoding.full.headerLength bytes.length)

/-! ## 3. Templates and the records they describe -/

namespace TemplateRecord

/-- The octets of one record under this template. -/
def recordWidth (t : TemplateRecord) : Nat :=
  total (t.fields.map (·.size.toNat))

/-- **The records of a data body**, which has to be a whole number of them. -/
def records (t : TemplateRecord) (body : List UInt8) : Except CodecError (List (List UInt8)) :=
  if t.recordWidth = 0 ∨ body.length % t.recordWidth ≠ 0 then
    .error (.recordWidthMismatch t.template t.recordWidth body.length)
  else .ok (Octets.pieces t.recordWidth body)

/-- Consecutive slices of a record, one for each field. -/
def slices : List FieldSpecifier → List UInt8 → List (FieldSpecifier × List UInt8)
  | [], _ => []
  | field :: fields, record =>
    (field, record.take field.size.toNat) :: slices fields (record.drop field.size.toNat)

/-- **Each field with its value** in a record. -/
def fieldValues (t : TemplateRecord) (record : List UInt8) :
    List (FieldSpecifier × List UInt8) :=
  slices t.fields record

end TemplateRecord

/-- **The template records of a set body.**  Fewer octets than a template record header are
padding. -/
def TemplateRecord.readAll (bytes : List UInt8) : Except CodecError (List TemplateRecord) :=
  match bytes with
  | i₁ :: i₀ :: c₁ :: c₀ :: rest =>
    let template := Octets.word16 i₁ i₀
    if template < minTemplateId then
      .error (.malformedSet templateSetId (.reservedTemplate template))
    else
      match _h : FieldSpecifier.readMany (Octets.word16 c₁ c₀).toNat rest with
      | .error e => .error e
      | .ok (fields, rest) => do
        let records ← TemplateRecord.readAll rest
        return ⟨template, fields⟩ :: records
  | _ => .ok []
termination_by bytes.length
decreasing_by
  have := FieldSpecifier.length_le_of_readMany _h
  simp only [List.length_cons]
  omega

/-! ## 4. The whole message -/

/-- The set in a frame, if it is of a kind that is read. -/
def FullSet.ofFrame (frame : Frame) : Except CodecError (Option FullSet) :=
  let id := Octets.word16 frame.lead.1 frame.lead.2
  if id = templateSetId then do
    let records ← TemplateRecord.readAll frame.body
    return some (.templates records)
  else if minTemplateId ≤ id then .ok (some (.data id frame.body))
  else .ok none

namespace FullMessage

/-- **Reads a full message.** -/
def decode (bytes : List UInt8) : Except CodecError FullMessage := do
  let header ← FullHeader.read bytes
  let body := (bytes.take header.length.toNat).drop Encoding.full.headerLength
  let sets ← Frame.walk (fun lead => Octets.word16 lead.1 lead.2) FullSet.ofFrame body
  return ⟨header, sets.filterMap id⟩

/-- Every template that the message defines, in order. -/
def templates (m : FullMessage) : List TemplateRecord :=
  m.sets.flatMap fun
    | .templates records => records
    | .data _ _ => []

/-- The bodies of the data sets of a template, in order. -/
def dataBodies (m : FullMessage) (template : UInt16) : List (List UInt8) :=
  m.sets.filterMap fun
    | .templates _ => none
    | .data id body => if id = template then some body else none

end FullMessage

end FlowExport

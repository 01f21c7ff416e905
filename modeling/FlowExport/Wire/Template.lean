/-
# Templates and record sources

A template is the ordered list of the elements exported under one id.  Ids below 256 belong to
the protocol, and a template holds at most 255 elements, because the compact encoding counts
fields in one octet; both bounds are part of the type.

A record source announces how many records it holds before it hands them out.  The announcement
is what a set is sized by, so the two may differ and the writer has to notice.
-/
import FlowExport.Wire.Element

namespace FlowExport

/-- The lowest id of a template for data. -/
def minTemplateId : UInt16 := 256

/-- The set id of template definitions in the full encoding. -/
def templateSetId : UInt16 := 2

/-- The most elements that a template holds. -/
def maxElements : Nat := 255

/-- **A template**: an id and the elements exported under it, in wire order. -/
structure Template (R : Type) where
  id : UInt16
  elements : List (Element R)
  id_ge : minTemplateId ≤ id
  length_le : elements.length ≤ maxElements

namespace Template

variable {R : Type}

/-- A template without elements. -/
def empty (id : UInt16) : Except CodecError (Template R) :=
  if h : minTemplateId ≤ id then .ok ⟨id, [], h, Nat.zero_le _⟩
  else .error (.invalidTemplate id .reservedId)

/-- Appends an element. -/
def add (t : Template R) (e : Element R) : Except CodecError (Template R) :=
  if h : t.elements.length < maxElements then
    .ok ⟨t.id, t.elements ++ [e], t.id_ge, by simpa using Nat.succ_le_of_lt h⟩
  else .error (.invalidTemplate t.id .tooManyElements)

/-- The template of a list of elements. -/
def ofElements (id : UInt16) (elements : List (Element R)) : Except CodecError (Template R) := do
  elements.foldlM add (← empty id)

/-- The specifiers in wire order. -/
def specifiers (t : Template R) : List FieldSpecifier :=
  t.elements.map (·.specifier)

/-- **The octets of one data record.** -/
def recordWidth (t : Template R) : Nat :=
  total (t.elements.map (·.size))

/-- The octets of all specifiers in a template set. -/
def specifiersLength (t : Template R) : Nat :=
  total (t.specifiers.map (·.wireLength))

/-- **The fields of a record**, in wire order, each rendered into zeros. -/
def fields (t : Template R) (record : R) : List (List UInt8) :=
  t.elements.map (·.field record)

/-- The octets of a record. -/
def encodeRecord (t : Template R) (record : R) : List UInt8 :=
  (t.fields record).flatten

@[simp] theorem length_encodeRecord (t : Template R) (record : R) :
    (t.encodeRecord record).length = t.recordWidth := by
  rw [encodeRecord, length_flatten_eq_total, fields, recordWidth, List.map_map]
  exact congrArg total (List.map_congr_left fun e _ => e.length_field record)

end Template

/-- **A source of records**: the number announced in advance, and the records then visited. -/
structure RecordSource (R : Type) where
  announced : Nat
  records : List R

/-- The source of a list, which announces what it holds. -/
def RecordSource.ofList {R : Type} (records : List R) : RecordSource R :=
  ⟨records.length, records⟩

end FlowExport

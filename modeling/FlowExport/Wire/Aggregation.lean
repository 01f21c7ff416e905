/-
# Fan-in of compact messages

An `Aggregation` collects the compact messages of one cycle.  The data sets of one template are
merged by appending their records and adding their counts; record octets are never touched.
Template definitions are retained, one for each id, the last one winning.  Both groups keep the
order in which ids first appeared, have a fixed number of places, and are bounded by the length
of the message they will be written to.

A data message is merged set by set, in place.  `checkpoint` marks the count of every place
before the first set, and a set that is refused takes the whole message back with it: `rollback`
cuts every place to its mark and gives up the places opened since.  A template message is checked
as a whole first (`checkTemplates`) and then retained set by set.
-/
import FlowExport.Wire.CompactMessage
import FlowExport.Wire.Draft

namespace FlowExport

/-- **The merged records of one template**: their width, their number, and their octets; `mark`
is the number at the last checkpoint. -/
structure DataSlot where
  template : UInt16
  width : Nat
  count : Nat
  mark : Nat
  bytes : List UInt8
  deriving DecidableEq, Repr

/-- A place cut back to its mark. -/
def DataSlot.cut (slot : DataSlot) : DataSlot :=
  { slot with count := slot.mark, bytes := slot.bytes.take (slot.mark * slot.width) }

/-- **A retained template definition**: the number of its fields and their specifiers. -/
structure TemplateSlot where
  template : UInt16
  fields : Nat
  specifiers : List UInt8
  deriving DecidableEq, Repr

/-- **The compact sets of one cycle**, grouped by template. -/
structure Aggregation where
  /-- The places for data and for definitions, so many of each. -/
  maxTemplates : Nat
  /-- The length of the longest message that may be written. -/
  maxMessage : Nat
  data : List DataSlot
  /-- The number of data places at the last checkpoint. -/
  marked : Nat
  templates : List TemplateSlot
  deriving DecidableEq, Repr

namespace Aggregation

/-- An aggregation that holds nothing. -/
def empty (maxTemplates maxMessage : Nat) : Aggregation :=
  ⟨maxTemplates, maxMessage, [], 0, []⟩

instance : Inhabited Aggregation := ⟨empty 0 0⟩

/-- The places that a node sets aside. -/
def defaultPlaces : Nat := 4

/-! ## 1. What is pending -/

/-- The records pending. -/
def recordCount (a : Aggregation) : Nat :=
  total (a.data.map (·.count))

/-- Whether no data is pending. -/
def isEmpty (a : Aggregation) : Bool :=
  a.data.isEmpty

/-- The records pending for a template. -/
def recordsFor (a : Aggregation) (template : UInt16) : Nat :=
  ((a.data.find? (·.template == template)).map (·.count)).getD 0

/-- The octets of the set that a body is written to. -/
def setLength (body : List UInt8) : Nat :=
  Encoding.compact.setHeaderLength + body.length

/-- **The length of the data message** that would be written now. -/
def dataMessageLength (a : Aggregation) : Nat :=
  Encoding.compact.headerLength + total (a.data.map fun slot => setLength slot.bytes)

/-- **The length of the template message** that would be written now. -/
def templateMessageLength (a : Aggregation) : Nat :=
  Encoding.compact.headerLength
    + total (a.templates.map fun slot => setLength slot.specifiers)

/-! ## 2. Merging data -/

/-- Marks the present count of every place. -/
def checkpoint (a : Aggregation) : Aggregation :=
  { a with
    marked := a.data.length
    data := a.data.map fun slot => { slot with mark := slot.count } }

/-- **Takes back** what was merged since the checkpoint. -/
def rollback (a : Aggregation) : Aggregation :=
  { a with data := (a.data.take a.marked).map DataSlot.cut }

/-- Appends the records of a set to the place of its template, `needed` being the length of the
data message with them.  Width, count and message length are checked in this order. -/
def appendRecords (s : CompactSet) (slot : DataSlot) (needed : Nat) (a : Aggregation) :
    Except CodecError Unit × Aggregation :=
  let count := slot.count + s.count.toNat
  if slot.width ≠ s.recordWidth then
    (.error (.recordWidthMismatch s.template slot.width s.recordWidth), a)
  else if maxCompactCount < count then
    (.error (.tooManyRecords s.template count maxCompactCount), a)
  else if a.maxMessage < needed then (.error (.bufferOverflow needed a.maxMessage), a)
  else
    (.ok (), { a with
      data := a.data.map fun other =>
        if other.template = s.template then { slot with count, bytes := slot.bytes ++ s.body }
        else other })

/-- **Merges one data set.**  A set without records is passed over.  A template that has no place
yet gets a free one, which stays open when a check fails, until the message is rolled back. -/
def mergeSet (s : CompactSet) (a : Aggregation) : Except CodecError Unit × Aggregation :=
  if s.count = 0 then (.ok (), a)
  else
    match a.data.find? (·.template == s.template) with
    | some slot => a.appendRecords s slot (a.dataMessageLength + s.body.length)
    | none =>
      if a.maxTemplates ≤ a.data.length then (.error (.templateSlotsExhausted s.template), a)
      else
        let slot : DataSlot := ⟨s.template, s.recordWidth, 0, 0, []⟩
        { a with data := a.data ++ [slot] }.appendRecords s slot
          (a.dataMessageLength + setLength s.body)

/-- **Merges sets in order**, up to the first that is refused. -/
def mergeSets : List CompactSet → Aggregation → Except CodecError Unit × Aggregation
  | [], a => (.ok (), a)
  | s :: sets, a =>
    match a.mergeSet s with
    | (.error e, a) => (.error e, a)
    | (.ok (), a) => mergeSets sets a

/-! ## 3. Retaining templates -/

/-- **Whether every definition of a message can be retained**, given the free places and the
length that the template message has so far.  Of several definitions of one id only the last is
counted; one that replaces a retained definition first gives its octets back.  The length with
all of them is the result. -/
def checkTemplates (retained : List TemplateSlot) :
    List CompactSet → (free length : Nat) → Except CodecError Nat
  | [], _, length => .ok length
  | s :: later, free, length =>
    if later.any (·.template == s.template) then checkTemplates retained later free length
    else
      match retained.find? (·.template == s.template) with
      | some slot =>
        checkTemplates retained later free
          (length - setLength slot.specifiers + setLength s.body)
      | none =>
        match free with
        | 0 => .error (.templateSlotsExhausted s.template)
        | free + 1 => checkTemplates retained later free (length + setLength s.body)

/-- **Retains one definition**: in the place of an earlier one of its id, or in a new place. -/
def retain (s : CompactSet) (a : Aggregation) : Except CodecError Unit × Aggregation :=
  let slot : TemplateSlot := ⟨s.template, s.count.toNat, s.body⟩
  if a.templates.any (·.template == s.template) then
    (.ok (), { a with
      templates := a.templates.map fun other =>
        if other.template = s.template then slot else other })
  else if a.maxTemplates ≤ a.templates.length then
    (.error (.templateSlotsExhausted s.template), a)
  else (.ok (), { a with templates := a.templates ++ [slot] })

/-- Retains definitions in order, up to the first that finds no place. -/
def retainAll : List CompactSet → Aggregation → Except CodecError Unit × Aggregation
  | [], a => (.ok (), a)
  | s :: sets, a =>
    match a.retain s with
    | (.error e, a) => (.error e, a)
    | (.ok (), a) => retainAll sets a

/-! ## 4. Whole messages -/

/-- **Merges a checked message** and returns the number of records merged. -/
def merge (m : CompactMessage) (a : Aggregation) : Except CodecError Nat × Aggregation :=
  match m.kind with
  | .template =>
    match checkTemplates a.templates m.sets (a.maxTemplates - a.templates.length)
        a.templateMessageLength with
    | .error e => (.error e, a)
    | .ok length =>
      if a.maxMessage < length then (.error (.bufferOverflow length a.maxMessage), a)
      else
        match a.retainAll m.sets with
        | (.error e, a) => (.error e, a)
        | (.ok (), a) => (.ok 0, a)
  | .data =>
    match a.checkpoint.mergeSets m.sets with
    | (.error e, a) => (.error e, a.rollback)
    | (.ok (), a) => (.ok m.recordCount, a)

/-- **Writes the merged data**, one set for each template. -/
def writeData (a : Aggregation) : Draft.Step Unit :=
  Draft.fillAll (a.data.map fun slot => Draft.addRaw slot.template slot.count slot.bytes)

/-- **Writes the retained definitions**, one set each. -/
def writeTemplates (a : Aggregation) : Draft.Step Unit :=
  Draft.fillAll
    (a.templates.map fun slot => Draft.addRaw slot.template slot.fields slot.specifiers)

/-- Gives up everything that is pending. -/
def reset (a : Aggregation) : Aggregation :=
  { a with data := [], marked := 0, templates := [] }

end Aggregation

end FlowExport

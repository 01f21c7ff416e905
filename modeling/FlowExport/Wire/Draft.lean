/-
# Messages under construction

A `Draft` is one message being written into a buffer: its header stands already, its sets are
added one after the other, and `finish` fills in the total length.  A set is opened with a length
of zero, filled, and closed by writing its length over the zero.

Each operation returns the draft in either case.  Templates and record sets are added in one go
(`addTemplate`, `addData`, `addRaw`); a set whose body is known only piece by piece is opened,
extended and then closed or abandoned by hand.  `fillAll` runs several operations up to the first
that fails, and `compose` is a whole message: begin, fill, finish.
-/
import FlowExport.Wire.Layout

namespace FlowExport

/-- **A message under construction.** -/
structure Draft where
  buffer : Buffer
  encoding : Encoding
  kind : Kind
  /-- The sequence number in the header. -/
  sequence : UInt32
  /-- The sets closed so far. -/
  sets : Nat
  /-- The data records in them. -/
  records : Nat
  deriving Inhabited

/-- A set that is being filled: where its header stands, and the count announced in it. -/
structure OpenSet where
  start : Nat
  count : Nat
  deriving Repr, Inhabited

/-- **An operation on a draft**: its outcome, and the draft after it. -/
abbrev Draft.Step (α : Type) := Draft → Except CodecError α × Draft

namespace Draft

/-! ## 1. Header and sets -/

/-- **Begins a message** in a cleared buffer.  The exporter's number is claimed only once the
whole header fits. -/
def begin (buffer : Buffer) (exporter : Exporter) (encoding : Encoding) (kind : Kind)
    (time : UInt32) : Except CodecError Unit × Draft × Exporter :=
  match buffer.clear.appendAll (headerChunks exporter time kind encoding) with
  | (.ok (), buffer) => (.ok (), ⟨buffer, encoding, kind, exporter.sequence, 0, 0⟩,
      exporter.advance)
  | (.error e, buffer) => (.error e, ⟨buffer, encoding, kind, exporter.sequence, 0, 0⟩, exporter)

/-- Appends chunks to the message, up to the first that does not fit. -/
def write (chunks : List (List UInt8)) : Step Unit := fun d =>
  let (outcome, buffer) := d.buffer.appendAll chunks
  (outcome, { d with buffer })

/-- Cuts the message back to `length` octets. -/
def truncate (d : Draft) (length : Nat) : Draft :=
  { d with buffer := d.buffer.truncate length }

/-- **Opens a set**; `count` is the number of its fields or records.  Nothing is left behind when
the header does not fit. -/
def openSet (template : UInt16) (count : Nat) : Step OpenSet := fun d =>
  let start := d.buffer.length
  match setHeaderChunks d.encoding d.kind template count with
  | .error e => (.error e, d)
  | .ok chunks =>
    match d.write chunks with
    | (.ok (), d) => (.ok ⟨start, count⟩, d)
    | (.error e, d) => (.error e, d.truncate start)

/-- **Closes a set** by writing its length into its header, if that can be announced. -/
def closeSet (start : Nat) : Step Unit := fun d =>
  let length := d.buffer.length - start
  if maxLength < length then (.error (.bufferOverflow length maxLength), d)
  else
    match d.buffer.patch (start + 2) (Octets.ofNat 2 length) with
    | (.ok (), buffer) => (.ok (), { d with buffer, sets := d.sets + 1 })
    | (.error e, buffer) => (.error e, { d with buffer })

/-- Refuses sets of the other kind. -/
def expectKind (kind : Kind) (d : Draft) : Except CodecError Unit :=
  if kind = d.kind then .ok () else .error (.kindMismatch kind d.kind)

/-! ## 2. Sets of templates and records -/

variable {R : Type}

/-- **Adds the definition of a template.**  A definition that does not fit is taken out again. -/
def addTemplate (template : Template R) : Step Unit := fun d =>
  match d.expectKind .template with
  | .error e => (.error e, d)
  | .ok () =>
    match d.openSet template.id template.elements.length with
    | (.error e, d) => (.error e, d)
    | (.ok set, d) =>
      match d.write (template.specifiers.flatMap (·.chunks)) with
      | (.error e, d) => (.error e, d.truncate set.start)
      | (.ok (), d) =>
        match d.closeSet set.start with
        | (.error e, d) => (.error e, d.truncate set.start)
        | (.ok (), d) => (.ok (), d)

/-- **Adds one set with every record of a source** and returns their number.  The set has to fit
before it is opened; a source that visits another number of records than it announced is found
out when it is done, and the set is taken out again. -/
def addData (template : Template R) (source : RecordSource R) : Step Nat := fun d =>
  match d.expectKind .data with
  | .error e => (.error e, d)
  | .ok () =>
    let announced := source.announced
    let needed := d.encoding.setHeaderLength + announced * template.recordWidth
    if d.buffer.remaining < needed then
      (.error (.bufferOverflow (d.buffer.length + needed) d.buffer.capacity), d)
    else
      match d.openSet template.id announced with
      | (.error e, d) => (.error e, d)
      | (.ok set, d) =>
        match d.write ((source.records.take announced).flatMap template.fields) with
        | (.error e, d) => (.error e, d.truncate set.start)
        | (.ok (), d) =>
          let produced := source.records.length
          if produced ≠ announced then
            (.error (.recordCountMismatch template.id announced produced),
              d.truncate set.start)
          else
            match d.closeSet set.start with
            | (.error e, d) => (.error e, d)
            | (.ok (), d) => (.ok announced, { d with records := d.records + announced })

/-! ## 3. Sets of octets that are encoded already -/

/-- Appends octets to the set that is open. -/
def extend (bytes : List UInt8) : Step Unit :=
  write [bytes]

/-- **Closes a set** that was opened and extended by hand. -/
def close (set : OpenSet) : Step Unit := fun d =>
  match d.closeSet set.start with
  | (.error e, d) => (.error e, d)
  | (.ok (), d) =>
    match d.kind with
    | .template => (.ok (), d)
    | .data => (.ok (), { d with records := d.records + set.count })

/-- Takes out a set that is not closed yet. -/
def abandon (set : OpenSet) (d : Draft) : Draft :=
  d.truncate set.start

/-- **Adds a set with a body given in pieces.**  A body that does not fit is taken out again. -/
def addPieces (template : UInt16) (count : Nat) (pieces : List (List UInt8)) : Step Unit := fun d =>
  match d.openSet template count with
  | (.error e, d) => (.error e, d)
  | (.ok set, d) =>
    match d.write pieces with
    | (.error e, d) => (.error e, d.abandon set)
    | (.ok (), d) => d.close set

/-- **Adds a set with a body copied as it is.** -/
def addRaw (template : UInt16) (count : Nat) (body : List UInt8) : Step Unit :=
  addPieces template count [body]

/-! ## 4. Whole messages -/

/-- **Finishes the message**: writes its length into its header and hands out its octets. -/
def finish : Step (List UInt8) := fun d =>
  let length := d.buffer.length
  if maxLength < length then (.error (.bufferOverflow length maxLength), d)
  else
    match d.buffer.patch d.encoding.lengthOffset (Octets.ofNat 2 length) with
    | (.ok (), buffer) => (.ok buffer.toList, { d with buffer })
    | (.error e, buffer) => (.error e, { d with buffer })

/-- **One operation after the other**, up to the first that fails. -/
def fillAll : List (Step Unit) → Step Unit
  | [], d => (.ok (), d)
  | step :: steps, d =>
    match step d with
    | (.error e, d) => (.error e, d)
    | (.ok (), d) => fillAll steps d

/-- **A message written in one go.**  Whether it succeeds or not, the buffer keeps what was
written, and a number that was claimed stays claimed. -/
def compose (buffer : Buffer) (exporter : Exporter) (encoding : Encoding) (kind : Kind)
    (time : UInt32) (fill : Step Unit) : Except CodecError (List UInt8) × Buffer × Exporter :=
  match begin buffer exporter encoding kind time with
  | (.error e, d, exporter) => (.error e, d.buffer, exporter)
  | (.ok (), d, exporter) =>
    match fill d with
    | (.error e, d) => (.error e, d.buffer, exporter)
    | (.ok (), d) =>
      let (outcome, d) := d.finish
      (outcome, d.buffer, exporter)

/-- The one set of a message about one template: its definition or its records. -/
def addSet (template : Template R) (source : RecordSource R) : Kind → Step Unit
  | .template => addTemplate template
  | .data => fun d =>
    let (outcome, d) := d.addData template source
    (outcome.map fun _ => (), d)

/-- **A message about one template**, in one go. -/
def encodeMessage (buffer : Buffer) (exporter : Exporter) (encoding : Encoding) (kind : Kind)
    (time : UInt32) (template : Template R) (source : RecordSource R) :
    Except CodecError (List UInt8) × Buffer × Exporter :=
  compose buffer exporter encoding kind time (addSet template source kind)

end Draft

end FlowExport

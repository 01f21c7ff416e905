/-
# Expanding compact messages to full ones

A gateway turns every compact message into a full one.  Only headers change: bodies are copied as
they are, so no template has to be known.  The compact format names no sender, so a gateway that
knows the sender appends it as one more field, sixteen octets at the end of every record and its
specifier at the end of every template.

`expandedLength` gives the length of the result from the sets alone.
-/
import FlowExport.Address
import FlowExport.Wire.CompactMessage
import FlowExport.Wire.Draft

namespace FlowExport

/-- **The specifier of the source field**: the mesh address of the node a message came from. -/
def sourceSpecifier : FieldSpecifier :=
  ⟨32771, 16, FieldSpecifier.meshEnterprise⟩

namespace CompactSet

/-- **Adds a set to a full message**, with the source field where a source is given. -/
def expand (kind : Kind) (source : Option Address) (s : CompactSet) : Draft.Step Unit :=
  match kind, source with
  | .template, none => Draft.addPieces s.template s.count.toNat [s.body]
  | .template, some _ =>
    Draft.addPieces s.template (s.count.toNat + 1) [s.body, sourceSpecifier.encode]
  | .data, none => Draft.addRaw s.template s.count.toNat s.body
  | .data, some address =>
    Draft.addPieces s.template s.count.toNat
      (s.records.flatMap fun record => [record, address.octets])

/-- The octets of the set in a full message. -/
def expandedLength (kind : Kind) (tagged : Bool) (s : CompactSet) : Nat :=
  match kind with
  | .template =>
    Encoding.full.templateSetHeaderLength + s.body.length
      + if tagged then sourceSpecifier.wireLength else 0
  | .data =>
    Encoding.full.setHeaderLength + s.body.length
      + if tagged then s.count.toNat * sourceSpecifier.size.toNat else 0

end CompactSet

namespace CompactMessage

/-- **Writes the message in full** into a buffer, under the exporter's next number. -/
def expand (m : CompactMessage) (buffer : Buffer) (exporter : Exporter) (time : UInt32)
    (source : Option Address) : Except CodecError (List UInt8) × Buffer × Exporter :=
  Draft.compose buffer exporter .full m.kind time
    (Draft.fillAll (m.sets.map (·.expand m.kind source)))

/-- **The length of the message in full**, with or without a source field. -/
def expandedLength (m : CompactMessage) (tagged : Bool) : Nat :=
  total (m.sets.map (·.expandedLength m.kind tagged)) + Encoding.full.headerLength

end CompactMessage

end FlowExport

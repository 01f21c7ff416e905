/-
# The template of flow records

A flow is exported as its destination, its bytes and its packets.  The destination is the full
address or, to save octets, only the node id; the two counters have four octets each and hold the
largest value of that width where the count is larger.
-/
import FlowExport.Flow.Table

namespace FlowExport

namespace FlowElement

/-- The full address of the destination. -/
def destination : Element FlowRecord :=
  ⟨⟨28, 16, 0⟩, by decide, .copy (·.destination.octets)⟩

/-- The node id of the destination. -/
def destinationNode : Element FlowRecord :=
  ⟨⟨32770, 2, FieldSpecifier.meshEnterprise⟩, by decide,
    .copy fun r => Octets.ofNat 2 r.destination.nodeId.toNat⟩

/-- The bytes towards the destination. -/
def octetCount : Element FlowRecord :=
  ⟨⟨1, 4, 0⟩, by decide, .unsigned (·.bytes)⟩

/-- The packets towards the destination. -/
def packetCount : Element FlowRecord :=
  ⟨⟨2, 4, 0⟩, by decide, .unsigned (·.packets)⟩

end FlowElement

/-- **The flow template**: destination, bytes, packets. -/
def flowTemplate (id : UInt16) (compactDestination : Bool) :
    Except CodecError (Template FlowRecord) :=
  Template.ofElements id
    [if compactDestination then FlowElement.destinationNode else FlowElement.destination,
      FlowElement.octetCount, FlowElement.packetCount]

end FlowExport

/-
# Aggregators

The children of an aggregator send compact messages.  Their sets are merged as they arrive; what
is malformed or does not fit is dropped and counted.  On every tick the node writes its own
templates and records as a compact message, merges it like a child's, and forwards everything as
at most one template message and one data message.

Its own message is written into a buffer of its own and is never sent, so it takes no sequence
number from the exporter.
-/
import FlowExport.Node.LocalExport
import FlowExport.Node.Outlet
import FlowExport.Wire.Aggregation

namespace FlowExport

/-- **An aggregator.** -/
structure AggregatorNode (τ : Type) where
  outlet : Outlet τ
  own : LocalExport
  /-- Where the node's own message is written. -/
  scratch : Buffer
  aggregation : Aggregation
  schedule : Schedule

namespace AggregatorNode

variable {τ : Type} [Transport τ]

/-- An aggregator that reports to the node above, `parent`. -/
def build (settings : ExportSettings) (parent : Endpoint) (transport : τ) :
    Except NodeError (AggregatorNode τ) := do
  let own ← LocalExport.build settings .compact
  return { outlet := .ofTransport transport parent settings.domain settings.maxMessage
           own
           scratch := .ofCapacity settings.maxMessage
           aggregation := .empty Aggregation.defaultPlaces settings.maxMessage
           schedule := .ofTicks settings.refreshTicks }

/-- Counts a dropped payload. -/
def drop (n : AggregatorNode τ) : AggregatorNode τ :=
  { n with outlet := { n.outlet with counters := n.outlet.counters.drop } }

/-- **Merges a payload** and returns the number of its records. -/
def mergePayload (n : AggregatorNode τ) (payload : List UInt8) :
    Except CodecError Nat × AggregatorNode τ :=
  match CompactMessage.parse payload with
  | .error e => (.error e, n)
  | .ok message =>
    let (outcome, aggregation) := n.aggregation.merge message
    (outcome, { n with aggregation })

/-- **Merges the node's own templates or records** like a child's payload. -/
def mergeOwn (n : AggregatorNode τ) (kind : Kind) (time : UInt32) :
    Except CodecError Nat × AggregatorNode τ :=
  let process : Exporter := { domain := n.outlet.exporter.domain }
  let (written, scratch, _) :=
    Draft.compose n.scratch process .compact kind time (n.own.write n.outlet.counters kind)
  let n := { n with scratch }
  match written with
  | .error e => (.error e, n)
  | .ok payload => n.mergePayload payload

/-- **Sends what has been merged**, templates or records. -/
def forward (n : AggregatorNode τ) (kind : Kind) (time : UInt32) : AggregatorNode τ :=
  let fill := match kind with
    | .template => n.aggregation.writeTemplates
    | .data => n.aggregation.writeData
  let (_, outlet) := n.outlet.emit .compact kind time fill
  { n with outlet }

/-- Merges the node's own templates if they are due. -/
def addTemplates (n : AggregatorNode τ) (time : UInt32) : AggregatorNode τ :=
  let n' := if n.schedule.isDue then (n.mergeOwn .template time).2 else n
  { n' with schedule := n.schedule.advance }

/-- Merges the node's own records if there are any; records that do not fit are dropped. -/
def addData (n : AggregatorNode τ) (time : UInt32) : AggregatorNode τ :=
  if n.own.hasData then
    match n.mergeOwn .data time with
    | (.ok _, n) => n
    | (.error _, n) => n.drop
  else n

/-- Forwards what is pending and gives it up. -/
def forwardAll (n : AggregatorNode τ) (time : UInt32) : AggregatorNode τ :=
  let n := if n.aggregation.templates.isEmpty then n else n.forward .template time
  let n := if n.aggregation.isEmpty then n else n.forward .data time
  { n with aggregation := n.aggregation.reset }

/-- **One export.** -/
def tick (n : AggregatorNode τ) (time : UInt32) : AggregatorNode τ :=
  let n := (n.addTemplates time).addData time
  { n with own := n.own.flush }.forwardAll time

/-- **One datagram from a child.** -/
def receive (n : AggregatorNode τ) (payload : List UInt8) : AggregatorNode τ :=
  match n.mergePayload payload with
  | (.ok _, n) => n
  | (.error _, n) => n.drop

/-- **One observation.** -/
def observe (n : AggregatorNode τ) (destination : Address) (bytes : UInt64) :
    FlowOutcome × AggregatorNode τ :=
  let (outcome, own, counters) := n.own.observe n.outlet.counters destination bytes
  (outcome, { n with own, outlet := { n.outlet with counters } })

end AggregatorNode

end FlowExport

/-
# Standard nodes

A leaf counts traffic into its flow table.  On every tick it exports the table in its configured
encoding, templates first where they are due, and starts the next cycle with an empty table,
whether or not the messages were taken.  Datagrams that reach it are ignored.
-/
import FlowExport.Node.LocalExport
import FlowExport.Node.Outlet

namespace FlowExport

/-- **A standard node.** -/
structure StandardNode (τ : Type) where
  outlet : Outlet τ
  encoding : Encoding
  own : LocalExport
  schedule : Schedule

namespace StandardNode

variable {τ : Type} [Transport τ]

/-- A standard node that reports to the node above, `parent`. -/
def build (settings : ExportSettings) (parent : Endpoint) (transport : τ) :
    Except NodeError (StandardNode τ) := do
  let own ← LocalExport.build settings settings.encoding
  return { outlet := .ofTransport transport parent settings.domain settings.maxMessage
           encoding := settings.encoding
           own
           schedule := .ofTicks settings.refreshTicks }

/-- Writes the node's own templates or records and sends them; a message that cannot be written
is given up. -/
def sendOwn (n : StandardNode τ) (kind : Kind) (time : UInt32) : StandardNode τ :=
  let (_, outlet) := n.outlet.emit n.encoding kind time (n.own.write n.outlet.counters kind)
  { n with outlet }

/-- Sends the templates if they are due. -/
def sendTemplates (n : StandardNode τ) (time : UInt32) : StandardNode τ :=
  let n' := if n.schedule.isDue then n.sendOwn .template time else n
  { n' with schedule := n.schedule.advance }

/-- Sends the records if there are any. -/
def sendData (n : StandardNode τ) (time : UInt32) : StandardNode τ :=
  if n.own.hasData then n.sendOwn .data time else n

/-- **One export.** -/
def tick (n : StandardNode τ) (time : UInt32) : StandardNode τ :=
  let n := (n.sendTemplates time).sendData time
  { n with own := n.own.flush }

/-- **One observation.** -/
def observe (n : StandardNode τ) (destination : Address) (bytes : UInt64) :
    FlowOutcome × StandardNode τ :=
  let (outcome, own, counters) := n.own.observe n.outlet.counters destination bytes
  (outcome, { n with own, outlet := { n.outlet with counters } })

end StandardNode

end FlowExport

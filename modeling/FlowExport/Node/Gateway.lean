/-
# Gateways

A gateway expands every compact message that arrives to a full one, tagged with the sender, and
sends it on to the collector by itself, stamped with the clock of the moment.  What is malformed
or does not fit a full message is dropped and counted.  A gateway keeps no flow table, so every
observation is rejected.
-/
import FlowExport.Node.Outlet
import FlowExport.Wire.Expansion
import FlowExport.Config.Basic

namespace FlowExport

/-- **A gateway.** -/
structure GatewayNode (τ : Type) where
  outlet : Outlet τ

namespace GatewayNode

variable {τ : Type} [Transport τ]

/-- A gateway that reports to `collector`; its buffer holds the longest message there is. -/
def build (settings : ExportSettings) (collector : Endpoint) (transport : τ) : GatewayNode τ :=
  ⟨.ofTransport transport collector settings.domain maxLength⟩

/-- Counts a dropped payload. -/
def drop (n : GatewayNode τ) : GatewayNode τ :=
  ⟨{ n.outlet with counters := n.outlet.counters.drop }⟩

/-- **One datagram from the mesh.** -/
def receive (n : GatewayNode τ) (clock : UInt32) (payload : List UInt8) (sender : Address) :
    GatewayNode τ :=
  match CompactMessage.parse payload with
  | .error _ => n.drop
  | .ok message =>
    match n.outlet.post (message.expand n.outlet.buffer n.outlet.exporter clock (some sender)) with
    | (.ok (), outlet) => ⟨outlet⟩
    | (.error _, outlet) => GatewayNode.drop ⟨outlet⟩

end GatewayNode

end FlowExport

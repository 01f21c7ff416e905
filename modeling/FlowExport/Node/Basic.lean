/-
# Nodes

A node plays one of three roles, fixed when it is built, and reacts to three kinds of event: the
export period is over, a datagram has arrived from the mesh, a packet has been observed.  Each
event is handled to its end before the next, so `Node.handle` is a function from a node to a node.

`Node.build` makes the node of a configuration as it is; `Node.start` validates it first.
-/
import FlowExport.Node.Aggregator
import FlowExport.Node.Gateway
import FlowExport.Node.Standard

namespace FlowExport

/-- **An event.** -/
inductive NodeEvent where
  /-- The export period is over; the time is in seconds since 1970. -/
  | tick (time : UInt32)
  /-- A datagram has arrived. -/
  | datagram (payload : List UInt8) (sender : Address)
  /-- A packet has been observed. -/
  | traffic (destination : Address) (bytes : UInt64)
  deriving DecidableEq

/-- **A node**, by its role. -/
inductive Node (τ : Type) where
  | standard (node : StandardNode τ)
  | aggregator (node : AggregatorNode τ)
  | gateway (node : GatewayNode τ)

namespace Node

variable {τ : Type} [Transport τ]

/-- The role that the node plays. -/
def role : Node τ → Role
  | standard _ => .standard
  | aggregator _ => .aggregator
  | gateway _ => .gateway

/-- Where the node's messages leave. -/
def outlet : Node τ → Outlet τ
  | standard node => node.outlet
  | aggregator node => node.outlet
  | gateway node => node.outlet

/-- The node with another transport in its outlet. -/
def withTransport (transport : τ) : Node τ → Node τ
  | standard node => .standard { node with outlet := { node.outlet with transport } }
  | aggregator node => .aggregator { node with outlet := { node.outlet with transport } }
  | gateway node => .gateway { node with outlet := { node.outlet with transport } }

/-- The node's flow table, if its role has one. -/
def table? : Node τ → Option FlowTable
  | standard node => some node.own.table
  | aggregator node => some node.own.table
  | gateway _ => none

/-- The receiver of a node that is no gateway. -/
def parentOf (config : Config) : Except NodeError Endpoint :=
  match config.transport.parent with
  | some address => .ok ⟨address, config.transport.parentPort⟩
  | none => .error (.parentMissing config.node.role)

/-- The collector of a gateway. -/
def collectorOf (config : Config) : Except NodeError Endpoint :=
  match config.transport.collector with
  | some address => .ok ⟨address, config.transport.collectorPort⟩
  | none => .error .collectorMissing

/-- **Builds the node of a configuration.** -/
def build (config : Config) (transport : τ) : Except NodeError (Node τ) :=
  match config.node.role with
  | .standard => do
    let parent ← parentOf config
    return .standard (← StandardNode.build config.exporting parent transport)
  | .aggregator => do
    let parent ← parentOf config
    return .aggregator (← AggregatorNode.build config.exporting parent transport)
  | .gateway => do
    let collector ← collectorOf config
    return .gateway (GatewayNode.build config.exporting collector transport)

/-- **Builds the node of a valid configuration.** -/
def start (config : Config) (transport : τ) : Except NodeError (Node τ) :=
  match config.validate with
  | .error fault => .error (.invalidConfig fault)
  | .ok () => build config transport

/-- **Handles one event**; what became of an observation is returned.  A gateway stamps its
messages with `clock`. -/
def handle (clock : UInt32) (event : NodeEvent) (n : Node τ) : Option FlowOutcome × Node τ :=
  match n, event with
  | standard node, .tick time => (none, .standard (node.tick time))
  | standard node, .datagram _ _ => (none, .standard node)
  | standard node, .traffic destination bytes =>
    let (outcome, node) := node.observe destination bytes
    (some outcome, .standard node)
  | aggregator node, .tick time => (none, .aggregator (node.tick time))
  | aggregator node, .datagram payload _ => (none, .aggregator (node.receive payload))
  | aggregator node, .traffic destination bytes =>
    let (outcome, node) := node.observe destination bytes
    (some outcome, .aggregator node)
  | gateway node, .tick _ => (none, .gateway node)
  | gateway node, .datagram payload sender =>
    (none, .gateway (node.receive clock payload sender))
  | gateway node, .traffic _ _ => (some .rejected, .gateway node)

/-- Handles events in order, all at one reading of the clock. -/
def handleAll (clock : UInt32) (events : List NodeEvent) (n : Node τ) : Node τ :=
  events.foldl (fun n event => (n.handle clock event).2) n

end Node

end FlowExport

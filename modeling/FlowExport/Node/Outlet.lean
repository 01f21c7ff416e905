/-
# Where a node's messages leave

A transport takes one datagram at a time or refuses it, and nothing is sent twice: a datagram
that is refused is lost and counted.  `Transport` is all that a node knows of it; a `Recorder` is
a transport that keeps what it takes.

An `Outlet` holds what every role needs to send: the transport and the receiver, the exporter
that numbers the messages, the buffer they are written into, and the counters.
-/
import FlowExport.Address.Text
import FlowExport.Flow.Counters
import FlowExport.Wire.Draft

namespace FlowExport

/-! ## 1. Transports -/

/-- **A receiver**: a mesh address and a port. -/
structure Endpoint where
  address : Address
  port : UInt16
  deriving DecidableEq, Inhabited

/-- An endpoint as text, the address in brackets. -/
def Endpoint.text (e : Endpoint) : String :=
  s!"[{e.address.text}]:{e.port.toNat}"

/-- **A datagram** on its way to a receiver. -/
structure Datagram where
  payload : List UInt8
  destination : Endpoint
  deriving DecidableEq, Inhabited

/-- **A transport** takes a datagram or refuses it. -/
class Transport (τ : Type) where
  send : τ → Datagram → Bool × τ

/-- A transport that keeps what it takes, and refuses everything while it is failing. -/
structure Recorder where
  sent : List Datagram := []
  failing : Bool := false
  deriving DecidableEq, Inhabited

namespace Recorder

/-- Takes out what has been kept. -/
def drain (r : Recorder) : List Datagram × Recorder :=
  (r.sent, { r with sent := [] })

instance : Transport Recorder where
  send r datagram :=
    if r.failing then (false, r) else (true, { r with sent := r.sent ++ [datagram] })

end Recorder

/-! ## 2. Outlets -/

/-- **What a node needs to send.** -/
structure Outlet (τ : Type) where
  transport : τ
  destination : Endpoint
  exporter : Exporter
  buffer : Buffer
  counters : Counters

namespace Outlet

variable {τ : Type} [Transport τ]

/-- An outlet of a new exporting process. -/
def ofTransport (transport : τ) (destination : Endpoint) (domain : UInt32) (capacity : Nat) :
    Outlet τ :=
  ⟨transport, destination, { domain }, .ofCapacity capacity, {}⟩

/-- **Hands a message to the transport** and counts the outcome. -/
def send (o : Outlet τ) (payload : List UInt8) : Outlet τ :=
  let (taken, transport) := Transport.send o.transport ⟨payload, o.destination⟩
  { o with transport, counters := o.counters.send taken }

/-- **Sends what has been written**, if it has; the buffer and the exporter are those after
writing in either case. -/
def post (o : Outlet τ) (written : Except CodecError (List UInt8) × Buffer × Exporter) :
    Except CodecError Unit × Outlet τ :=
  let (outcome, buffer, exporter) := written
  let o := { o with buffer, exporter }
  match outcome with
  | .ok payload => (.ok (), o.send payload)
  | .error e => (.error e, o)

/-- **Writes a message and sends it.** -/
def emit (o : Outlet τ) (encoding : Encoding) (kind : Kind) (time : UInt32)
    (fill : Draft.Step Unit) : Except CodecError Unit × Outlet τ :=
  o.post (Draft.compose o.buffer o.exporter encoding kind time fill)

end Outlet

end FlowExport

/-
# One export cycle

A cycle is what happens between two exports: a node observes traffic, given here as lines of text,
then the export period is over and the node sends.  Blank lines and comments are passed over;
lines that hold no observation are returned, so that they can be reported.
-/
import FlowExport.Node.Basic
import FlowExport.Observation

namespace FlowExport

/-- **What came of a cycle**: the datagrams sent, and the lines that could not be read. -/
structure Cycle where
  sent : List Datagram
  unread : List String
  deriving DecidableEq, Inhabited

namespace Cycle

/-- The observations on the lines that are no comments, in order; a line that holds none stands
for itself, without the blanks around it. -/
def observations (lines : List String) : List (String ⊕ Observation) :=
  (lines.filter (!Observation.isSkipped ·)).map fun line =>
    match Observation.ofLine? line with
    | some o => .inr o
    | none => .inl (String.ofList (Text.trimmed line.toList))

/-- **Runs a cycle** that ends at `time`. -/
def run (node : Node Recorder) (lines : List String) (time : UInt32) : Cycle :=
  let read := observations lines
  let traffic := read.filterMap fun
    | .inl _ => none
    | .inr o => some (NodeEvent.traffic o.destination o.bytes)
  let node := node.handleAll time (traffic ++ [.tick time])
  { sent := node.outlet.transport.drain.1
    unread := read.filterMap (·.getLeft?) }

end Cycle

/-- A datagram on one line: its receiver, and its payload in hexadecimal. -/
def Datagram.text (d : Datagram) : String :=
  d.destination.text ++ " " ++ Octets.text d.payload

end FlowExport

/-
# Observations on input lines

A node can be fed observations of traffic as lines of text: the address of a destination and the
size of a packet in bytes, separated by white space, and nothing else.
-/
import FlowExport.Address.Text

namespace FlowExport

/-- **An observed packet**: its destination and its size. -/
structure Observation where
  destination : Address
  bytes : UInt64
  deriving DecidableEq, Inhabited

/-- **The observation on a line.** -/
def Observation.ofLine? (line : String) : Option Observation :=
  match Text.words line.toList with
  | [destination, bytes] => do
    let destination ← Address.read? destination
    let bytes ← Text.unsigned? (UInt64.size - 1) bytes
    return ⟨destination, UInt64.ofNat bytes⟩
  | _ => none

/-- Whether a line of input holds no observation on purpose: it is blank or a comment. -/
def Observation.isSkipped (line : String) : Bool :=
  match Text.trimmed line.toList with
  | [] => true
  | c :: _ => c == '#'

end FlowExport

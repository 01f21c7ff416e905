/-
# The exporting process

An exporting process has an observation domain and numbers its messages.  The number advances by
one for every message of either kind and wraps at 2³²; it is claimed when a message begins, so a
message that is later given up leaves a gap.
-/
namespace FlowExport

/-- The protocol version in full headers. -/
def protocolVersion : UInt16 := 10

/-- **An exporting process**: its observation domain, and the number of its next message. -/
structure Exporter where
  domain : UInt32 := 1
  sequence : UInt32 := 1
  deriving DecidableEq, Repr, Inhabited

namespace Exporter

/-- The process after it has claimed a number. -/
def advance (x : Exporter) : Exporter :=
  { x with sequence := x.sequence + 1 }

/-- **Claims the next sequence number.** -/
def claim (x : Exporter) : UInt32 × Exporter :=
  (x.sequence, x.advance)

/-- The first `count` numbers claimed, and the process after them. -/
def claimMany : (count : Nat) → Exporter → List UInt32 × Exporter
  | 0, x => ([], x)
  | count + 1, x =>
    let (number, x) := x.claim
    let (numbers, x) := claimMany count x
    (number :: numbers, x)

end Exporter

end FlowExport

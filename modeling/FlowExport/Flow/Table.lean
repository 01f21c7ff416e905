/-
# The flow table

Between two exports a node counts the traffic towards each destination.  The table tracks a fixed
number of destinations: the first ones seen are kept for the whole cycle, a new destination that
finds the table full is rejected, and no tracked one is ever given up for another.  Counters
saturate.  Records keep the order in which their destinations first appeared, which is the order
they are exported in.
-/
import FlowExport.Address.Text
import FlowExport.Wire.Template

namespace FlowExport

/-- The most destinations that a table tracks: what one octet can count. -/
def maxFlowCapacity : Nat := 255

/-- The destinations that a table tracks unless told otherwise. -/
def defaultFlowCapacity : Nat := 10

/-- Adds up to the largest value of a counter and no further. -/
def saturatingAdd (a b : UInt64) : UInt64 :=
  UInt64.ofNat (min (a.toNat + b.toNat) (UInt64.size - 1))

theorem toNat_saturatingAdd (a b : UInt64) :
    (saturatingAdd a b).toNat = min (a.toNat + b.toNat) (UInt64.size - 1) := by
  rw [saturatingAdd, UInt64.toNat_ofNat', UInt64.size]
  omega

/-- **The traffic towards one destination** in the current cycle. -/
structure FlowRecord where
  destination : Address
  bytes : UInt64
  packets : UInt64
  deriving DecidableEq, Inhabited

/-- The record after one more packet. -/
def FlowRecord.add (r : FlowRecord) (bytes : UInt64) : FlowRecord :=
  { r with bytes := saturatingAdd r.bytes bytes, packets := saturatingAdd r.packets 1 }

/-- **What became of an observation.** -/
inductive FlowOutcome where
  /-- The destination was tracked already. -/
  | updated
  /-- The destination is tracked from now on. -/
  | created
  /-- The table is full; the observation is lost. -/
  | rejected
  deriving DecidableEq, Repr, Inhabited

/-- Whether an observation was lost. -/
def FlowOutcome.isRejected (o : FlowOutcome) : Bool :=
  o == .rejected

/-- **Why a flow table refuses.** -/
inductive FlowError where
  /-- A new destination found the table full. -/
  | tableFull (destination : Address) (capacity : Nat)
  /-- No table tracks so many destinations. -/
  | invalidCapacity (capacity : Nat)
  deriving DecidableEq

/-- The sentence reported for a refusal. -/
def FlowError.message : FlowError → String
  | tableFull destination capacity =>
    s!"Flow table full ({capacity} flows): {destination.text} not tracked"
  | invalidCapacity capacity => s!"Invalid flow table capacity: {capacity}"

/-- **A flow table**: at most `capacity` records, in order of first appearance. -/
structure FlowTable where
  capacity : Nat
  records : List FlowRecord
  capacity_pos : 0 < capacity
  capacity_le : capacity ≤ maxFlowCapacity
  length_le : records.length ≤ capacity

namespace FlowTable

/-- An empty table for so many destinations, one at least and 255 at most. -/
def ofCapacity (capacity : Nat) : Except FlowError FlowTable :=
  if h : 0 < capacity ∧ capacity ≤ maxFlowCapacity then
    .ok ⟨capacity, [], h.1, h.2, Nat.zero_le _⟩
  else .error (.invalidCapacity capacity)

/-- The empty table of the default capacity. -/
def default : FlowTable :=
  ⟨defaultFlowCapacity, [], by decide, by decide, Nat.zero_le _⟩

instance : Inhabited FlowTable := ⟨default⟩

/-- The record of a destination, if it is tracked. -/
def get? (t : FlowTable) (destination : Address) : Option FlowRecord :=
  t.records.find? (·.destination == destination)

/-- Whether a destination is tracked. -/
def tracks (t : FlowTable) (destination : Address) : Bool :=
  t.records.any (·.destination == destination)

/-- **Counts one packet** towards a destination. -/
def update (t : FlowTable) (destination : Address) (bytes : UInt64) : FlowOutcome × FlowTable :=
  if t.tracks destination then
    (.updated, { t with
      records := t.records.map fun r =>
        if r.destination = destination then r.add bytes else r
      length_le := by simpa using t.length_le })
  else if h : t.records.length < t.capacity then
    (.created, { t with
      records := t.records ++ [⟨destination, bytes, 1⟩]
      length_le := by simpa using Nat.succ_le_of_lt h })
  else (.rejected, t)

/-- **Counts one packet**, a rejection being an error. -/
def tryUpdate (t : FlowTable) (destination : Address) (bytes : UInt64) :
    Except FlowError FlowOutcome × FlowTable :=
  match t.update destination bytes with
  | (.rejected, t) => (.error (.tableFull destination t.capacity), t)
  | (outcome, t) => (.ok outcome, t)

/-- Whether no destination is tracked. -/
def isEmpty (t : FlowTable) : Bool :=
  t.records.isEmpty

/-- Gives up every record. -/
def flush (t : FlowTable) : FlowTable :=
  { t with records := [], length_le := Nat.zero_le _ }

/-- **The records as a source**, in order. -/
def source (t : FlowTable) : RecordSource FlowRecord :=
  .ofList t.records

end FlowTable

end FlowExport

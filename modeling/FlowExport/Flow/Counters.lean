/-
# Counters of the exporting process

A node counts what it observes, sends and drops, from its start on; the counters wrap at 2³².  It
may report them to the node above as one record of a template of their own.
-/
import FlowExport.Wire.Template

namespace FlowExport

/-- **The counters of a node.** -/
structure Counters where
  /-- Observations of traffic. -/
  observed : UInt32 := 0
  /-- Observations lost to a full table. -/
  rejected : UInt32 := 0
  /-- Messages handed to the transport. -/
  sent : UInt32 := 0
  /-- Messages the transport did not take. -/
  failed : UInt32 := 0
  /-- Payloads that were malformed or did not fit. -/
  dropped : UInt32 := 0
  deriving DecidableEq, Repr, Inhabited

namespace Counters

/-- Counts one observation. -/
def observe (c : Counters) (rejected : Bool) : Counters :=
  { c with
    observed := c.observed + 1
    rejected := if rejected then c.rejected + 1 else c.rejected }

/-- Counts one attempt to send. -/
def send (c : Counters) (taken : Bool) : Counters :=
  if taken then { c with sent := c.sent + 1 } else { c with failed := c.failed + 1 }

/-- Counts one dropped payload. -/
def drop (c : Counters) : Counters :=
  { c with dropped := c.dropped + 1 }

/-- **The counters as a source**: one record. -/
def source (c : Counters) : RecordSource Counters :=
  .ofList [c]

end Counters

/-- The template id of counter records. -/
def reportTemplateId : UInt16 := 257

namespace CounterElement

/-- Observations of traffic. -/
def observed : Element Counters :=
  ⟨⟨32800, 4, FieldSpecifier.meshEnterprise⟩, by decide, .unsigned (·.observed.toUInt64)⟩

/-- Observations lost to a full table. -/
def rejected : Element Counters :=
  ⟨⟨32801, 4, FieldSpecifier.meshEnterprise⟩, by decide, .unsigned (·.rejected.toUInt64)⟩

/-- Messages handed to the transport. -/
def sent : Element Counters :=
  ⟨⟨32802, 4, FieldSpecifier.meshEnterprise⟩, by decide, .unsigned (·.sent.toUInt64)⟩

/-- Messages the transport did not take. -/
def failed : Element Counters :=
  ⟨⟨32803, 4, FieldSpecifier.meshEnterprise⟩, by decide, .unsigned (·.failed.toUInt64)⟩

/-- Payloads that were malformed or did not fit. -/
def dropped : Element Counters :=
  ⟨⟨32804, 4, FieldSpecifier.meshEnterprise⟩, by decide, .unsigned (·.dropped.toUInt64)⟩

end CounterElement

/-- **The template of counter records.** -/
def reportTemplate (id : UInt16) : Except CodecError (Template Counters) :=
  Template.ofElements id
    [CounterElement.observed, CounterElement.rejected, CounterElement.sent,
      CounterElement.failed, CounterElement.dropped]

end FlowExport

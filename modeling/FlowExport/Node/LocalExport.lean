/-
# What a node exports of its own

A standard node and an aggregator both keep a flow table, the template that exports it, and, where
the configuration asks for it, the template of their counters.  Building them checks that a full
table with the counters fits one message of the configured size, so that no export of a running
node can fail for lack of room.

Templates are sent on the first tick and then on every so many ticks; `Schedule` counts them.
-/
import FlowExport.Config.Basic
import FlowExport.Flow.Counters
import FlowExport.Flow.Template
import FlowExport.Wire.Draft

namespace FlowExport

/-! ## 1. Why a node cannot be built -/

/-- **Why a node cannot be built.** -/
inductive NodeError where
  /-- A full export would not fit a message of the configured size. -/
  | bufferOverflow (needed capacity : Nat)
  | codec (error : CodecError)
  | flow (error : FlowError)
  /-- The template id of the flows is the one of the counters. -/
  | reportIdReserved
  | collectorMissing
  /-- There is no node above to report to. -/
  | parentMissing (role : Role)
  /-- The configuration breaks a rule. -/
  | invalidConfig (fault : ConfigFault)
  deriving DecidableEq

/-- The sentence reported where a node cannot be built. -/
def NodeError.message : NodeError → String
  | bufferOverflow needed capacity =>
    s!"Buffer overflow: {needed} bytes needed, {capacity} available"
  | codec error => s!"Codec error: {error.message}"
  | flow error => s!"Flow error: {error.message}"
  | reportIdReserved =>
    "Configuration error: template id 257 is reserved for exporter statistics"
  | collectorMissing => "Configuration error: gateway requires a collector"
  | parentMissing role => s!"Configuration error: {role.name} role requires an upstream"
  | invalidConfig fault => s!"Core error: {fault.message}"

/-! ## 2. The schedule of templates -/

/-- **When templates are due.** -/
structure Schedule where
  every : Nat
  ticks : Nat
  deriving DecidableEq, Repr

namespace Schedule

/-- A schedule that starts now; every tick at the most. -/
def ofTicks (every : UInt32) : Schedule :=
  ⟨max every.toNat 1, 0⟩

/-- Whether templates are due on this tick. -/
def isDue (s : Schedule) : Bool :=
  s.ticks % s.every == 0

/-- The schedule after one tick. -/
def advance (s : Schedule) : Schedule :=
  { s with ticks := s.ticks + 1 }

end Schedule

/-! ## 3. The node's own export -/

/-- **A node's own flows and the templates that export them.** -/
structure LocalExport where
  table : FlowTable
  flows : Template FlowRecord
  report : Option (Template Counters)

namespace LocalExport

/-- The length of the template message. -/
def templateMessageLength (l : LocalExport) (encoding : Encoding) : Nat :=
  encoding.templateMessageLength
    (l.flows.specifiersLength :: l.report.toList.map (·.specifiersLength))

/-- **The length of the longest data message**: a full table and the counters. -/
def dataMessageLength (l : LocalExport) (encoding : Encoding) : Nat :=
  encoding.dataMessageLength
    ((l.table.capacity, l.flows.recordWidth) :: l.report.toList.map (1, ·.recordWidth))

/-- The tables and templates of a configuration, whether or not they fit. -/
def ofSettings (settings : ExportSettings) : Except NodeError LocalExport := do
  if settings.reportsCounters && settings.templateId == reportTemplateId then
    throw .reportIdReserved
  let table ← (FlowTable.ofCapacity settings.flowCapacity).mapError .flow
  let flows ← (flowTemplate settings.templateId settings.compactDestination).mapError .codec
  let report ←
    if settings.reportsCounters then
      (reportTemplate reportTemplateId).map some |>.mapError .codec
    else .ok none
  return { table, flows, report }

/-- **A node's own export**, if a full one fits a message. -/
def build (settings : ExportSettings) (encoding : Encoding) : Except NodeError LocalExport := do
  let l ← ofSettings settings
  let needed := max (l.templateMessageLength encoding) (l.dataMessageLength encoding)
  if settings.maxMessage < needed then throw (.bufferOverflow needed settings.maxMessage)
  return l

/-- Whether a data message would carry anything. -/
def hasData (l : LocalExport) : Bool :=
  !l.table.isEmpty || l.report.isSome

/-- **Adds the definitions** of the flows and of the counters. -/
def writeTemplates (l : LocalExport) : Draft.Step Unit :=
  Draft.fillAll
    (Draft.addTemplate l.flows :: l.report.toList.map fun t => Draft.addTemplate t)

/-- **Adds the records** of the flows, if there are any, and of the counters. -/
def writeData (l : LocalExport) (counters : Counters) : Draft.Step Unit :=
  Draft.fillAll
    ((if l.table.isEmpty then [] else [Draft.addSet l.flows l.table.source .data])
      ++ l.report.toList.map fun t => Draft.addSet t counters.source .data)

/-- Adds the definitions or the records. -/
def write (l : LocalExport) (counters : Counters) : Kind → Draft.Step Unit
  | .template => l.writeTemplates
  | .data => l.writeData counters

/-- **Counts one packet** in the table and among the observations. -/
def observe (l : LocalExport) (counters : Counters) (destination : Address) (bytes : UInt64) :
    FlowOutcome × LocalExport × Counters :=
  let (outcome, table) := l.table.update destination bytes
  (outcome, { l with table }, counters.observe outcome.isRejected)

/-- Gives up the records of the table. -/
def flush (l : LocalExport) : LocalExport :=
  { l with table := l.table.flush }

end LocalExport

end FlowExport

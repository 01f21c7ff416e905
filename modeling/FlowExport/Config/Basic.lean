/-
# The configuration of a node

A configuration says who a node is, what it exports, where it sends, and how it logs.  Every
setting but the node's address and role has a default.

`Config.validate` checks the ranges that the encodings and the pipelines rely on, one rule after
the other, and reports the first that is broken: a flow table whose count fits one octet, a
template id that the encodings in use can carry, a message size that a header can announce, and
somewhere to send to.
-/
import FlowExport.Address
import FlowExport.Flow.Table
import FlowExport.Wire.Layout

namespace FlowExport

/-- **What a node does** with reports. -/
inductive Role where
  /-- A leaf that exports its own flows. -/
  | standard
  /-- Merges the reports of its children with its own. -/
  | aggregator
  /-- Expands reports for the collector. -/
  | gateway
  deriving DecidableEq, Repr, Inhabited

namespace Role

/-- The name of a role in configurations. -/
def name : Role → String
  | standard => "standard"
  | aggregator => "aggregator"
  | gateway => "gateway"

/-- The role of a name. -/
def ofName? : String → Option Role
  | "standard" => some standard
  | "aggregator" => some aggregator
  | "gateway" => some gateway
  | _ => none

theorem ofName?_name (r : Role) : ofName? r.name = some r := by
  cases r <;> rfl

end Role

/-- Who a node is. -/
structure NodeSettings where
  address : Address
  role : Role
  deriving DecidableEq, Inhabited

/-- What a node exports, and how. -/
structure ExportSettings where
  /-- The seconds between two exports. -/
  interval : UInt64 := 60
  encoding : Encoding := .compact
  /-- The destinations that the flow table tracks. -/
  flowCapacity : Nat := defaultFlowCapacity
  templateId : UInt16 := minTemplateId
  domain : UInt32 := 1
  /-- Templates are sent on the first export and then on every so many. -/
  refreshTicks : UInt32 := 10
  /-- Destinations are exported as node ids. -/
  compactDestination : Bool := false
  /-- The node reports its own counters. -/
  reportsCounters : Bool := false
  /-- The longest message that the node writes. -/
  maxMessage : Nat := 1280
  deriving DecidableEq, Repr, Inhabited

/-- Where a node listens and sends to. -/
structure TransportSettings where
  listenPort : UInt16 := 1230
  /-- The node above, which a gateway has none of. -/
  parent : Option Address := none
  parentPort : UInt16 := 1230
  collector : Option Address := none
  collectorPort : UInt16 := 4739
  deriving DecidableEq, Inhabited

/-- How a node logs. -/
structure LoggingSettings where
  level : String := "info"
  json : Bool := false
  deriving DecidableEq, Repr, Inhabited

/-- Whether warnings are logged: at every level but the two above them. -/
def LoggingSettings.logsWarnings (s : LoggingSettings) : Bool :=
  s.level != "off" && s.level != "error"

/-- **A configuration.** -/
structure Config where
  node : NodeSettings
  exporting : ExportSettings := {}
  transport : TransportSettings := {}
  logging : LoggingSettings := {}
  deriving DecidableEq, Inhabited

/-- **Why a configuration is rejected.** -/
inductive ConfigFault where
  | flowCapacityOutOfRange (capacity : Nat)
  | intervalZero
  | refreshZero
  | templateIdReserved (id : UInt16)
  | templateIdNotCompact (id : UInt16)
  | maxMessageOutOfRange (size : Nat)
  | collectorMissing
  | parentMissing (role : Role)
  deriving DecidableEq, Repr

/-- The part of a report that tells which rule is broken. -/
def ConfigFault.reason : ConfigFault → String
  | flowCapacityOutOfRange capacity => s!"flow_capacity must be within 1..=255, got {capacity}"
  | intervalZero => "interval_secs must be positive"
  | refreshZero => "template_refresh_ticks must be positive"
  | templateIdReserved id => s!"template_id must be at least 256, got {id.toNat}"
  | templateIdNotCompact id =>
    s!"template_id {id.toNat} cannot be carried by the compact encoding (max 511)"
  | maxMessageOutOfRange size => s!"max_message_size must be within 64..=65535, got {size}"
  | collectorMissing => "gateway role requires transport.collector"
  | parentMissing role => s!"{role.name} role requires transport.upstream"

/-- The sentence reported for a rejected configuration. -/
def ConfigFault.message (fault : ConfigFault) : String :=
  "Configuration error: " ++ fault.reason

/-- The shortest limit on messages that is allowed. -/
def minMaxMessage : Nat := 64

namespace Config

/-- Whether a node writes or merges compact messages. -/
def usesCompact (c : Config) : Bool :=
  c.node.role != .standard || c.exporting.encoding == .compact

/-- Whether a role has the address that it sends to. -/
def checkReceiver (c : Config) : Except ConfigFault Unit :=
  match c.node.role with
  | .gateway => if c.transport.collector.isNone then .error .collectorMissing else .ok ()
  | role => if c.transport.parent.isNone then .error (.parentMissing role) else .ok ()

/-- **Checks a configuration**, rule by rule. -/
def validate (c : Config) : Except ConfigFault Unit :=
  let settings := c.exporting
  if settings.flowCapacity = 0 ∨ maxFlowCapacity < settings.flowCapacity then
    .error (.flowCapacityOutOfRange settings.flowCapacity)
  else if settings.interval = 0 then .error .intervalZero
  else if settings.refreshTicks = 0 then .error .refreshZero
  else if settings.templateId < minTemplateId then
    .error (.templateIdReserved settings.templateId)
  else if c.usesCompact ∧ maxCompactId < settings.templateId then
    .error (.templateIdNotCompact settings.templateId)
  else if settings.maxMessage < minMaxMessage ∨ maxLength < settings.maxMessage then
    .error (.maxMessageOutOfRange settings.maxMessage)
  else c.checkReceiver

end Config

end FlowExport

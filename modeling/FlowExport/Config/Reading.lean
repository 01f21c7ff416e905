/-
# Reading configurations

`Config.ofDocument?` takes the settings out of a document and gives the missing ones their
defaults; entries it does not know are passed over.  A setting of the wrong type, a number out of
its range, an unknown name, or an address with anything around it makes the whole document
unreadable, and so does a missing address or role of the node.

`Config.ofToml` reads, takes and validates a TOML document, `Config.ofFile` the content of a file;
`Config.ofJson?` takes the settings out of a JSON document and leaves their validation to the
caller.
-/
import FlowExport.Config.Basic
import FlowExport.Json.Reading
import FlowExport.Toml.Reading

namespace FlowExport

namespace Config

/-! ## 1. Settings from a document -/

/-- A number of 16 bits. -/
def word? (doc : Document) : Option UInt16 :=
  (doc.nat? (UInt16.size - 1)).map UInt16.ofNat

/-- A number of 32 bits. -/
def doubleWord? (doc : Document) : Option UInt32 :=
  (doc.nat? (UInt32.size - 1)).map UInt32.ofNat

/-- A number of 64 bits. -/
def size? (doc : Document) : Option Nat :=
  doc.nat? (UInt64.size - 1)

/-- Who a node is: address, role. -/
def nodeOf? (dialect : Dialect) (doc : Document) : Option NodeSettings := do
  let s ← doc.settings? dialect 2
  let address ← s.need "address" 0 Document.address?
  let role ← s.need "role" 1 fun doc => (doc.name? dialect).bind Role.ofName?
  return { address, role }

/-- What a node exports. -/
def exportingOf? (dialect : Dialect) (doc : Document) : Option ExportSettings := do
  let s ← doc.settings? dialect 9
  let d : ExportSettings := {}
  let interval ← s.orElse "interval_secs" 0 d.interval fun doc => (size? doc).map UInt64.ofNat
  let encoding ← s.orElse "encoding" 1 d.encoding fun doc =>
    (doc.name? dialect).bind Encoding.ofName?
  let flowCapacity ← s.orElse "flow_capacity" 2 d.flowCapacity size?
  let templateId ← s.orElse "template_id" 3 d.templateId word?
  let domain ← s.orElse "domain_id" 4 d.domain doubleWord?
  let refreshTicks ← s.orElse "template_refresh_ticks" 5 d.refreshTicks doubleWord?
  let compactDestination ← s.orElse "compact_destination" 6 d.compactDestination Document.bool?
  let reportsCounters ← s.orElse "export_stats" 7 d.reportsCounters Document.bool?
  let maxMessage ← s.orElse "max_message_size" 8 d.maxMessage size?
  return { interval, encoding, flowCapacity, templateId, domain, refreshTicks,
           compactDestination, reportsCounters, maxMessage }

/-- Where a node listens and sends to. -/
def transportOf? (dialect : Dialect) (doc : Document) : Option TransportSettings := do
  let s ← doc.settings? dialect 5
  let d : TransportSettings := {}
  let listenPort ← s.orElse "listen_port" 0 d.listenPort word?
  let parent ← s.orElse "upstream" 1 d.parent Document.addressOrNull?
  let parentPort ← s.orElse "upstream_port" 2 d.parentPort word?
  let collector ← s.orElse "collector" 3 d.collector Document.addressOrNull?
  let collectorPort ← s.orElse "collector_port" 4 d.collectorPort word?
  return { listenPort, parent, parentPort, collector, collectorPort }

/-- How a node logs. -/
def loggingOf? (dialect : Dialect) (doc : Document) : Option LoggingSettings := do
  let s ← doc.settings? dialect 2
  let d : LoggingSettings := {}
  let level ← s.orElse "level" 0 d.level Document.text?
  let json ← s.orElse "json" 1 d.json Document.bool?
  return { level, json }

/-- **The configuration in a document.** -/
def ofDocument? (dialect : Dialect) (doc : Document) : Option Config := do
  let s ← doc.settings? dialect 4
  let node ← s.need "node" 0 (nodeOf? dialect)
  let exporting ← s.orElse "export" 1 {} (exportingOf? dialect)
  let transport ← s.orElse "transport" 2 {} (transportOf? dialect)
  let logging ← s.orElse "logging" 3 {} (loggingOf? dialect)
  return { node, exporting, transport, logging }

/-! ## 2. Whole configurations -/

/-- **Why there is no configuration.** -/
inductive LoadError where
  /-- There is no file, or it holds no text. -/
  | unreadable
  /-- The document is malformed, or a setting in it is. -/
  | malformed
  /-- The configuration breaks a rule. -/
  | rejected (fault : ConfigFault)
  deriving DecidableEq, Repr

/-- The sentence reported where there is no configuration. -/
def LoadError.message : LoadError → String
  | unreadable => "IO error: the file cannot be read"
  | malformed => "Configuration parse error: the document is malformed"
  | rejected fault => fault.message

/-- **The valid configuration in a TOML document.** -/
def ofToml (text : String) : Except LoadError Config :=
  match (Toml.read? text).bind (ofDocument? Toml.dialect) with
  | none => .error .malformed
  | some config =>
    match config.validate with
    | .error fault => .error (.rejected fault)
    | .ok () => .ok config

/-- **The configuration in a JSON document**, valid or not. -/
def ofJson? (text : String) : Option Config :=
  (Json.read? text).bind (ofDocument? .json)

/-- **The valid configuration in a file**, given its content if there is one; the content has to
be UTF-8. -/
def ofFile (content : Option ByteArray) : Except LoadError Config :=
  match content.bind String.fromUTF8? with
  | none => .error .unreadable
  | some text => ofToml text

end Config

end FlowExport

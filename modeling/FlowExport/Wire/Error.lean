/-
# Failures of the codec

Writing, reading, merging and expanding messages fail for the causes listed here.  A cause keeps
the numbers that make it one; the sentence reported for it is put together in one place,
`CodecError.message`.
-/
import FlowExport.Wire.Encoding

namespace FlowExport

/-- What is wrong with a message header. -/
inductive HeaderFault where
  /-- The first octet of the message opens no compact message. -/
  | notCompact (first : UInt8)
  /-- The code in the first octet names no kind of message. -/
  | unknownKind (code : UInt8)
  /-- The protocol version is not the one that is read. -/
  | unsupportedVersion (version : UInt16)
  /-- The announced length is shorter than a header or longer than the datagram. -/
  | lengthMismatch (length : UInt16) (datagram : Nat)
  deriving DecidableEq, Repr

/-- What is wrong with a set. -/
inductive SetFault where
  /-- The announced length is shorter than a set header or longer than what is left. -/
  | lengthMismatch (length : UInt16) (left : Nat)
  /-- The body is no whole number of records for the announced count. -/
  | unevenRecords (body : Nat) (count : UInt8)
  /-- Octets follow the announced number of field specifiers. -/
  | trailingOctets (trailing : Nat) (fields : UInt8)
  /-- A template record defines an id that data may not use. -/
  | reservedTemplate (id : UInt16)
  deriving DecidableEq, Repr

/-- What is wrong with the description of an information element. -/
inductive ElementFault where
  /-- The width is zero or the mark of variable length. -/
  | unsupportedSize (size : UInt16)
  /-- The enterprise bit of the id and the enterprise number contradict each other. -/
  | enterpriseMismatch (bit : Bool) (enterprise : UInt32)
  deriving DecidableEq, Repr

/-- What is wrong with a template. -/
inductive TemplateFault where
  /-- The id belongs to the protocol's own sets. -/
  | reservedId
  /-- The template holds as many elements as one octet can count. -/
  | tooManyElements
  deriving DecidableEq, Repr

/-- **Why an operation of the codec fails.** -/
inductive CodecError where
  /-- A write would end beyond the room there is. -/
  | bufferOverflow (needed capacity : Nat)
  /-- The input ends within a structure. -/
  | truncated (expected actual : Nat)
  | malformedHeader (fault : HeaderFault)
  | malformedSet (set : UInt16) (fault : SetFault)
  | invalidElement (id : UInt16) (fault : ElementFault)
  | invalidTemplate (id : UInt16) (fault : TemplateFault)
  /-- Records of two widths cannot share a set. -/
  | recordWidthMismatch (template : UInt16) (expected actual : Nat)
  /-- A compact set counts its records in one octet. -/
  | tooManyRecords (template : UInt16) (count limit : Nat)
  /-- A source visits another number of records than it announced. -/
  | recordCountMismatch (template : UInt16) (announced produced : Nat)
  /-- A set belongs to a message of the other kind. -/
  | kindMismatch (set message : Kind)
  /-- The template id has no compact form. -/
  | templateNotCompact (template : UInt16)
  /-- No further template can be tracked. -/
  | templateSlotsExhausted (template : UInt16)
  deriving DecidableEq, Repr

/-- An octet as `0x` and two lower-case hexadecimal digits. -/
def octetText (b : UInt8) : String :=
  let digits := Nat.toDigits 16 b.toNat
  "0x" ++ String.ofList (List.replicate (2 - digits.length) '0' ++ digits)

/-- The part of a report that tells what is wrong with a header. -/
def HeaderFault.reason : HeaderFault → String
  | notCompact first => s!"not a compact message (first byte {octetText first})"
  | unknownKind code => s!"unknown message kind {code.toNat}"
  | unsupportedVersion version => s!"unsupported version {version.toNat}"
  | lengthMismatch length datagram =>
    s!"length {length.toNat} does not fit datagram of {datagram} bytes"

/-- The part of a report that tells what is wrong with a set. -/
def SetFault.reason : SetFault → String
  | lengthMismatch length left => s!"length {length.toNat} with {left} bytes left"
  | unevenRecords body count => s!"{body} bytes cannot hold {count.toNat} records"
  | trailingOctets trailing fields =>
    s!"{trailing} trailing bytes after {fields.toNat} fields"
  | reservedTemplate id => s!"template id {id.toNat} is reserved"

/-- The part of a report that tells what is wrong with an element. -/
def ElementFault.reason : ElementFault → String
  | unsupportedSize size => s!"unsupported octet size {size.toNat}"
  | enterpriseMismatch bit enterprise =>
    let state := if bit then "set" else "clear"
    s!"enterprise bit {state} but enterprise id {enterprise.toNat}"

/-- The part of a report that tells what is wrong with a template. -/
def TemplateFault.reason : TemplateFault → String
  | reservedId => "ids below 256 are reserved"
  | tooManyElements => "more than 255 elements"

/-- **The sentence reported for a failure.** -/
def CodecError.message : CodecError → String
  | bufferOverflow needed capacity =>
    s!"Buffer overflow: {needed} bytes needed, {capacity} available"
  | truncated expected actual =>
    s!"Truncated input: expected {expected} bytes, found {actual}"
  | malformedHeader fault => s!"Malformed header: {fault.reason}"
  | malformedSet set fault => s!"Malformed set {set.toNat}: {fault.reason}"
  | invalidElement id fault => s!"Invalid information element {id.toNat}: {fault.reason}"
  | invalidTemplate id fault => s!"Invalid template {id.toNat}: {fault.reason}"
  | recordWidthMismatch template expected actual =>
    s!"Record width mismatch for template {template.toNat}: expected {expected}, got {actual}"
  | tooManyRecords template count limit =>
    s!"Too many records for template {template.toNat}: {count} (max {limit})"
  | recordCountMismatch template announced produced =>
    s!"Record count changed during encode of template {template.toNat}: announced {announced}, "
      ++ s!"produced {produced}"
  | kindMismatch set message => s!"Cannot add a {set.name} set to a {message.name} message"
  | templateNotCompact template =>
    s!"Template id {template.toNat} is outside the compact range 256..=511"
  | templateSlotsExhausted template =>
    s!"Template slots exhausted: cannot track template {template.toNat}"

end FlowExport

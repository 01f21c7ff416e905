/-
# Headers and lengths

    full     header   version 2 | length 2 | export time 4 | sequence 4 | domain 4
             set      set id 2 | set length 2 | body
    compact  header   0xA and kind 1 | sequence, low half 2 | length 2
             set      template id less 256, 1 | count 1 | set length 2 | body

A full template set holds, in front of the specifiers, the id and the number of fields of the one
template it defines; the compact set header has both already.  `templateMessageLength` and
`dataMessageLength` give the length of a whole message from its parts alone.
-/
import FlowExport.Wire.Template
import FlowExport.Wire.Exporter

namespace FlowExport

/-- The high four bits of the first octet of a compact message. -/
def compactNibble : UInt8 := 0xA

/-- The largest count that a compact set carries. -/
def maxCompactCount : Nat := 255

/-- The largest template id that a compact set carries. -/
def maxCompactId : UInt16 := 511

/-- The largest length that a set or a message can announce. -/
def maxLength : Nat := 65535

namespace Encoding

/-- The octets of a message header. -/
def headerLength : Encoding → Nat
  | full => 16
  | compact => 5

/-- The octets of a set header. -/
def setHeaderLength : Encoding → Nat
  | full => 4
  | compact => 4

/-- The octets in front of the specifiers of a template set. -/
def templateSetHeaderLength : Encoding → Nat
  | full => 8
  | compact => 4

/-- Where the length of a message stands in its header. -/
def lengthOffset : Encoding → Nat
  | full => 2
  | compact => 3

/-- **The length of a template message** with sets of these specifier lengths. -/
def templateMessageLength (e : Encoding) (specifiers : List Nat) : Nat :=
  e.headerLength + total (specifiers.map (e.templateSetHeaderLength + ·))

/-- **The length of a data message** with sets of so many records of such a width. -/
def dataMessageLength (e : Encoding) (sets : List (Nat × Nat)) : Nat :=
  e.headerLength + total (sets.map fun set => e.setHeaderLength + set.1 * set.2)

end Encoding

/-! ## Compact set ids -/

/-- **The compact set id of a template**: its id less 256, where that is one octet. -/
def compactSetId (template : UInt16) : Except CodecError UInt8 :=
  if minTemplateId ≤ template ∧ template ≤ maxCompactId then
    .ok (UInt8.ofNat (template.toNat - 256))
  else .error (.templateNotCompact template)

/-- The template of a compact set id. -/
def templateOfCompact (set : UInt8) : UInt16 :=
  UInt16.ofNat (256 + set.toNat)

@[simp] theorem toNat_templateOfCompact (set : UInt8) :
    (templateOfCompact set).toNat = 256 + set.toNat := by
  have h : set.toNat < 256 := set.toNat_lt
  rw [templateOfCompact, UInt16.toNat_ofNat']
  omega

theorem templateOfCompact_of_compactSetId {template : UInt16} {set : UInt8}
    (h : compactSetId template = .ok set) : templateOfCompact set = template := by
  unfold compactSetId at h
  split at h
  · rename_i hr
    simp only [Except.ok.injEq] at h
    subst h
    have h₁ : 256 ≤ template.toNat := UInt16.le_iff_toNat_le.mp hr.1
    have h₂ : template.toNat ≤ 511 := UInt16.le_iff_toNat_le.mp hr.2
    apply UInt16.toNat_inj.mp
    rw [toNat_templateOfCompact, UInt8.toNat_ofNat']
    omega
  · simp at h

/-- The parts of a message header, with the length still zero. -/
def headerChunks (exporter : Exporter) (time : UInt32) (kind : Kind) :
    Encoding → List (List UInt8)
  | .full =>
    [Octets.ofNat 2 protocolVersion.toNat, Octets.ofNat 2 0, Octets.ofNat 4 time.toNat,
      Octets.ofNat 4 exporter.sequence.toNat, Octets.ofNat 4 exporter.domain.toNat]
  | .compact =>
    [[compactNibble * 16 + kind.code], Octets.ofNat 2 exporter.sequence.toNat, Octets.ofNat 2 0]

/-- **The parts of a set header**, with the length still zero; `count` is the number of fields or
of records.  A compact set can carry neither a count above 255 nor an id above 511. -/
def setHeaderChunks (encoding : Encoding) (kind : Kind) (template : UInt16) (count : Nat) :
    Except CodecError (List (List UInt8)) :=
  match encoding, kind with
  | .full, .template =>
    .ok [Octets.ofNat 2 templateSetId.toNat, Octets.ofNat 2 0, Octets.ofNat 2 template.toNat,
      Octets.ofNat 2 count]
  | .full, .data => .ok [Octets.ofNat 2 template.toNat, Octets.ofNat 2 0]
  | .compact, _ =>
    if maxCompactCount < count then .error (.tooManyRecords template count maxCompactCount)
    else (compactSetId template).map fun set =>
      [[set], Octets.ofNat 1 count, Octets.ofNat 2 0]

end FlowExport

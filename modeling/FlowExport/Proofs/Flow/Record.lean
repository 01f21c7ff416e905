/-
# Exported records

The records of the two templates of a node are known octet for octet: a flow is its destination
and its two counters, cut off at the largest value of four octets (`FlowRecord.octets`), a record
of counters is the five of them (`Counters.octets`).  `Template.writesRecords` and
`Template.writesDefinition` hand both to the writer of messages.
-/
import FlowExport.Flow.Counters
import FlowExport.Flow.Template
import FlowExport.Proofs.Wire.Reading
import FlowExport.Proofs.Wire.Template

namespace FlowExport

/-! ## 1. What a template has the writer add -/

namespace Template

variable {R : Type}

/-- **The records of a template**, as a writer of messages wants them. -/
theorem writesRecords {encoding : Encoding} {t : Template R} {records : List R}
    (hc : encoding.Carries t.id records.length) (hne : t.elements ≠ []) :
    Draft.WritesRecords encoding (Draft.addSet t (.ofList records) .data) t.id
      (records.map t.encodeRecord) := by
  have hw := Draft.writes_addSet_data t records hc
  rw [List.flatMap_def] at hw
  exact ⟨by rwa [List.length_map], t.id_ge, by rwa [List.length_map],
    t.recordWidth, recordWidth_pos hne, fun r hr => length_of_mem_encoded hr⟩

/-- **The definition of a template**, as a writer of messages wants it. -/
theorem writesDefinition {encoding : Encoding} {t : Template R}
    (hc : encoding.Carries t.id t.elements.length) :
    Draft.WritesDefinition encoding (Draft.addTemplate t) t.id t.specifiers := by
  have hlen := t.length_specifiers
  refine ⟨?_, t.id_ge, by rwa [hlen], fun s hs => valid_of_mem_specifiers hs, ?_⟩
  · rw [hlen]
    exact Draft.writes_addTemplate t hc
  · rw [hlen]
    exact t.length_le

end Template

/-! ## 2. Records, octet for octet -/

theorem renderUnsigned_four (value : UInt64) :
    renderUnsigned value 4 = Octets.ofNat 4 (min value.toNat (2 ^ 32 - 1)) := rfl

/-- **The octets of a flow**: the destination or its node id, then bytes and packets, each the
largest value of four octets where it is larger. -/
def FlowRecord.octets (compactDestination : Bool) (r : FlowRecord) : List UInt8 :=
  (if compactDestination then Octets.ofNat 2 r.destination.nodeId.toNat
    else r.destination.octets)
    ++ Octets.ofNat 4 (min r.bytes.toNat (2 ^ 32 - 1))
    ++ Octets.ofNat 4 (min r.packets.toNat (2 ^ 32 - 1))

/-- **The octets of a record of counters.** -/
def Counters.octets (c : Counters) : List UInt8 :=
  Octets.ofNat 4 c.observed.toNat ++ Octets.ofNat 4 c.rejected.toNat
    ++ Octets.ofNat 4 c.sent.toNat ++ Octets.ofNat 4 c.failed.toNat
    ++ Octets.ofNat 4 c.dropped.toNat

theorem renderUnsigned_counter (value : UInt32) :
    renderUnsigned value.toUInt64 4 = Octets.ofNat 4 value.toNat := by
  have h : value.toNat < 2 ^ 32 := value.toNat_lt
  rw [renderUnsigned_four, UInt32.toNat_toUInt64, Nat.min_eq_left (by omega)]

/-- The elements of the flow template. -/
def flowElements (compactDestination : Bool) : List (Element FlowRecord) :=
  [if compactDestination then FlowElement.destinationNode else FlowElement.destination,
    FlowElement.octetCount, FlowElement.packetCount]

/-- The elements of the template of counters. -/
def reportElements : List (Element Counters) :=
  [CounterElement.observed, CounterElement.rejected, CounterElement.sent,
    CounterElement.failed, CounterElement.dropped]

theorem encodeRecord_flow {t : Template FlowRecord} {compactDestination : Bool}
    (h : t.elements = flowElements compactDestination) (r : FlowRecord) :
    t.encodeRecord r = r.octets compactDestination := by
  have hcopy : ∀ (source : List UInt8) (n : Nat), source.length = n →
      Octets.overlay source (List.replicate n 0) = source := by
    intro source n hn
    exact Octets.overlay_eq_self (by rw [hn, List.length_replicate])
  rw [Template.encodeRecord, Template.fields, h]
  cases compactDestination with
  | true =>
    have hd : FlowElement.destinationNode.field r = Octets.ofNat 2 r.destination.nodeId.toNat :=
      hcopy _ 2 (Octets.length_ofNat _ _)
    simp only [flowElements, FlowRecord.octets, if_true, List.map_cons, List.map_nil, hd]
    rw [List.flatten_cons, List.append_assoc]
    rfl
  | false =>
    have hd : FlowElement.destination.field r = r.destination.octets :=
      hcopy _ 16 r.destination.length_octets
    simp only [flowElements, FlowRecord.octets, Bool.false_eq_true, if_false, List.map_cons,
      List.map_nil, hd]
    rw [List.flatten_cons, List.append_assoc]
    rfl

theorem encodeRecord_report {t : Template Counters} (h : t.elements = reportElements)
    (c : Counters) : t.encodeRecord c = c.octets := by
  have hf : t.fields c = [renderUnsigned c.observed.toUInt64 4,
      renderUnsigned c.rejected.toUInt64 4, renderUnsigned c.sent.toUInt64 4,
      renderUnsigned c.failed.toUInt64 4, renderUnsigned c.dropped.toUInt64 4] := by
    rw [Template.fields, h]
    rfl
  rw [Template.encodeRecord, hf]
  simp only [renderUnsigned_counter, Counters.octets, List.flatten_cons, List.flatten_nil,
    List.append_nil, List.append_assoc]

end FlowExport

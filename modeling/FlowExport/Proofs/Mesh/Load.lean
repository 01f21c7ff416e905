/-
# What records weigh

The load of a destination is what is counted of it, bytes or packets, added up over records.  A
record is met in four forms on its way: as an entry of a flow table, as the octets of a compact
message, among the octets merged under its template, and tagged with its sender in a full message.
Each form is read here by itself (`FlowTable.load`, `flowsIn`, `valuesOf`, `collectedFlows`), and
the load is the same in all of them: writing a table loses nothing while the counters fit their
fields (`recordLoad_octets`), reading a message gives what was written (`flowsIn_records`), and a
tag adds nothing (`collectedFlows_expanded`).

One packet adds its own load to a table that does not reject it (`FlowTable.load_update`).
-/
import FlowExport.Proofs.Node.Aggregator
import FlowExport.Proofs.Node.Gateway

namespace FlowExport

/-- **What is counted of the traffic** towards a destination. -/
inductive Measure where
  | bytes
  | packets
  deriving DecidableEq, Repr

/-- The one of two counts that is meant. -/
def Measure.of (bytes packets : Nat) : Measure → Nat
  | .bytes => bytes
  | .packets => packets

/-- The load of one packet. -/
def packetLoad (μ : Measure) (d destination : Address) (bytes : UInt64) : Nat :=
  if destination = d then μ.of bytes.toNat 1 else 0

/-- What an observation adds: the load of its packet, unless it is rejected. -/
def observedLoad (μ : Measure) (d destination : Address) (bytes : UInt64)
    (outcome : FlowOutcome) : Nat :=
  if outcome.isRejected then 0 else packetLoad μ d destination bytes

/-! ## 1. Flow tables -/

namespace FlowRecord

/-- What a record counts towards a destination. -/
def load (μ : Measure) (d : Address) (r : FlowRecord) : Nat :=
  if r.destination = d then μ.of r.bytes.toNat r.packets.toNat else 0

/-- The counters fit the fields that they are exported in. -/
def Fits (r : FlowRecord) : Prop :=
  r.bytes.toNat < 2 ^ 32 ∧ r.packets.toNat < 2 ^ 32

instance (r : FlowRecord) : Decidable r.Fits :=
  inferInstanceAs (Decidable (_ ∧ _))

/-- One more packet is counted in full while the counters fit. -/
theorem load_add (μ : Measure) (d : Address) {r : FlowRecord} {bytes : UInt64}
    (h : (r.add bytes).Fits) :
    (r.add bytes).load μ d = r.load μ d + packetLoad μ d r.destination bytes := by
  obtain ⟨hb, hp⟩ := h
  have hsize : UInt64.size = 2 ^ 64 := rfl
  simp only [add, toNat_saturatingAdd, UInt64.toNat_one] at hb hp
  by_cases hd : r.destination = d
  · have hd' : (r.add bytes).destination = d := hd
    rw [load, load, packetLoad, if_pos hd, if_pos hd', if_pos hd]
    cases μ <;> simp only [Measure.of, add, toNat_saturatingAdd, UInt64.toNat_one] <;> omega
  · have hd' : (r.add bytes).destination ≠ d := hd
    rw [load, load, packetLoad, if_neg hd, if_neg hd', if_neg hd]

end FlowRecord

namespace FlowTable

/-- **What a table holds for a destination.** -/
def load (μ : Measure) (d : Address) (t : FlowTable) : Nat :=
  (t.records.map (·.load μ d)).sum

/-- Every record fits. -/
def Fits (t : FlowTable) : Prop :=
  ∀ r ∈ t.records, r.Fits

instance (t : FlowTable) : Decidable t.Fits :=
  inferInstanceAs (Decidable (∀ r ∈ t.records, r.Fits))

/-- No destination has two records. -/
def Distinct (t : FlowTable) : Prop :=
  (t.records.map (·.destination)).Nodup

section Empty

variable {t : FlowTable} (h : t.records = [])

include h

theorem load_of_empty (μ : Measure) (d : Address) : t.load μ d = 0 := by
  rw [load, h]
  rfl

theorem distinct_of_empty : t.Distinct := by
  rw [Distinct, h]
  exact List.nodup_nil

end Empty

variable {t : FlowTable} (h : t.Distinct) (destination : Address) (bytes : UInt64)

include h

/-- What an update of a tracked destination does: one record counts, all others stay. -/
theorem update_tracked (ht : t.tracks destination = true) :
    ∃ before r after, t.records = before ++ r :: after ∧ r.destination = destination ∧
      (t.update destination bytes).1 = .updated ∧
      (t.update destination bytes).2.records = before ++ r.add bytes :: after := by
  obtain ⟨r, hr⟩ := Option.isSome_iff_exists.mp
    ((List.find?_isSome (p := fun r : FlowRecord => r.destination == destination)).mpr
      (List.any_eq_true.mp ht))
  obtain ⟨before, after, heq, hd, hbefore, hafter, -⟩ := split_of_find h hr r
  have hkeep : ∀ rs : List FlowRecord, (∀ r ∈ rs, r.destination ≠ destination) →
      (rs.map fun r => if r.destination = destination then r.add bytes else r) = rs :=
    fun rs hrs => (List.map_congr_left fun r hr => if_neg (hrs r hr)).trans (List.map_id _)
  refine ⟨before, r, after, heq, hd, ?_, ?_⟩
  · simp only [update, ht, if_true]
  · simp only [update, ht, if_true, heq, List.map_append, List.map_cons, hd, hkeep before hbefore,
      hkeep after hafter]

theorem distinct_update : (t.update destination bytes).2.Distinct := by
  cases ht : t.tracks destination with
  | true =>
    obtain ⟨before, r, after, heq, -, -, hu⟩ := update_tracked h destination bytes ht
    unfold Distinct at h ⊢
    rw [heq, List.map_append, List.map_cons] at h
    rw [hu, List.map_append, List.map_cons]
    exact h
  | false =>
    have hnew : destination ∉ t.records.map (·.destination) := by
      intro hm
      obtain ⟨r, hr, hd⟩ := List.mem_map.mp hm
      have : t.tracks destination = true := List.any_eq_true.mpr ⟨r, hr, by simpa using hd⟩
      simp [ht] at this
    unfold Distinct at h ⊢
    simp only [update, ht, Bool.false_eq_true, if_false]
    split
    · rw [List.map_append, List.map_singleton, List.nodup_append]
      refine ⟨h, List.pairwise_singleton _ _, ?_⟩
      rintro a ha b hb rfl
      rw [List.mem_singleton.mp hb] at ha
      exact hnew ha
    · exact h

/-- **A packet that is not rejected adds its load**, while the counters fit. -/
theorem load_update (μ : Measure) (d : Address) (hf : (t.update destination bytes).2.Fits) :
    (t.update destination bytes).2.load μ d = t.load μ d
      + observedLoad μ d destination bytes (t.update destination bytes).1 := by
  cases ht : t.tracks destination with
  | true =>
    obtain ⟨before, r, after, heq, hd, ho, hu⟩ := update_tracked h destination bytes ht
    have hr : (r.add bytes).Fits := hf _ (by rw [hu]; simp)
    rw [load, load, hu, heq, ho]
    simp only [List.map_append, List.map_cons, List.sum_append, List.sum_cons,
      FlowRecord.load_add μ d hr, hd]
    rw [observedLoad, if_neg (by decide)]
    omega
  | false =>
    unfold load
    simp only [update, ht, Bool.false_eq_true, if_false]
    split
    · have ho : ¬ FlowOutcome.created.isRejected := by decide
      rw [List.map_append, List.sum_append, List.map_singleton, List.sum_singleton, observedLoad,
        if_neg ho]
      rfl
    · have ho : FlowOutcome.rejected.isRejected := by decide
      rw [observedLoad, if_pos ho, Nat.add_zero]

end FlowTable

/-! ## 2. Octets -/

/-- **What the octets of a record count towards a destination**: sixteen octets of the
destination, four of the bytes, four of the packets; what follows is not looked at. -/
def recordLoad (μ : Measure) (d : Address) (record : List UInt8) : Nat :=
  if record.take 16 = d.octets then
    μ.of (Octets.toNat ((record.drop 16).take 4)) (Octets.toNat ((record.drop 20).take 4))
  else 0

/-- **The load of records.** -/
def recordsLoad (μ : Measure) (d : Address) (records : List (List UInt8)) : Nat :=
  (records.map (recordLoad μ d)).sum

/-- The octets of a flow record with the whole destination. -/
def flowWidth : Nat := 24

/-- The octets of a flow record that is tagged with its sender. -/
def collectedWidth : Nat := 40

/-- Every record is as wide as a flow record. -/
def Wide (records : List (List UInt8)) : Prop :=
  ∀ r ∈ records, r.length = flowWidth

theorem Wide.nil : Wide [] :=
  fun _ hr => absurd hr List.not_mem_nil

theorem Wide.append {a b : List (List UInt8)} (ha : Wide a) (hb : Wide b) : Wide (a ++ b) :=
  fun r hr => (List.mem_append.mp hr).elim (ha r) (hb r)

theorem Wide.perm {a b : List (List UInt8)} (h : Wide a) (hp : a.Perm b) : Wide b :=
  fun r hr => h r (hp.mem_iff.mpr hr)

theorem recordsLoad_append (μ : Measure) (d : Address) (a b : List (List UInt8)) :
    recordsLoad μ d (a ++ b) = recordsLoad μ d a + recordsLoad μ d b := by
  rw [recordsLoad, List.map_append, List.sum_append]
  rfl

theorem recordsLoad_perm (μ : Measure) (d : Address) {a b : List (List UInt8)} (h : a.Perm b) :
    recordsLoad μ d a = recordsLoad μ d b :=
  (h.map _).sum_nat

theorem length_flowOctets (r : FlowRecord) : (r.octets false).length = flowWidth := by
  simp [FlowRecord.octets, flowWidth]

theorem wide_table (t : FlowTable) : Wide (t.records.map (·.octets false)) := by
  intro r hr
  obtain ⟨record, -, rfl⟩ := List.mem_map.mp hr
  exact length_flowOctets record

/-- **A record that fits is written in full.** -/
theorem recordLoad_octets (μ : Measure) (d : Address) {r : FlowRecord} (h : r.Fits) :
    recordLoad μ d (r.octets false) = r.load μ d := by
  obtain ⟨hb, hp⟩ := h
  have hocts : r.octets false = r.destination.octets
      ++ (Octets.ofNat 4 r.bytes.toNat ++ Octets.ofNat 4 r.packets.toNat) := by
    have h₁ : min r.bytes.toNat (2 ^ 32 - 1) = r.bytes.toNat := by omega
    have h₂ : min r.packets.toNat (2 ^ 32 - 1) = r.packets.toNat := by omega
    rw [FlowRecord.octets, h₁, h₂, List.append_assoc]
    rfl
  have htake : (r.octets false).take 16 = r.destination.octets := by
    rw [hocts, List.take_left' r.destination.length_octets]
  have hbytes : ((r.octets false).drop 16).take 4 = Octets.ofNat 4 r.bytes.toNat := by
    rw [hocts, List.drop_left' r.destination.length_octets,
      List.take_left' (Octets.length_ofNat _ _)]
  have hpackets : ((r.octets false).drop 20).take 4 = Octets.ofNat 4 r.packets.toNat := by
    have hlen : (r.destination.octets ++ Octets.ofNat 4 r.bytes.toNat).length = 20 := by simp
    rw [hocts, ← List.append_assoc, List.drop_left' hlen,
      List.take_of_length_le (by simp)]
  have hsame : r.destination.octets = d.octets ↔ r.destination = d := by
    constructor
    · intro he
      cases hr : r.destination
      cases hd : d
      rw [hr, hd] at he
      simpa using he
    · exact congrArg _
  rw [recordLoad, htake, hbytes, hpackets, Octets.toNat_ofNat, Octets.toNat_ofNat,
    Nat.mod_eq_of_lt (by omega), Nat.mod_eq_of_lt (by omega), FlowRecord.load]
  simp only [hsame]

/-- What stands behind a record does not count. -/
theorem recordLoad_append (μ : Measure) (d : Address) {record : List UInt8}
    (h : record.length = flowWidth) (tail : List UInt8) : recordLoad μ d (record ++ tail) = recordLoad μ d record := by
  rw [flowWidth] at h
  have htake : (record ++ tail).take 16 = record.take 16 :=
    List.take_append_of_le_length (by omega)
  have hbytes : ((record ++ tail).drop 16).take 4 = (record.drop 16).take 4 := by
    rw [List.drop_append_of_le_length (by omega),
      List.take_append_of_le_length (by rw [List.length_drop]; omega)]
  have hpackets : ((record ++ tail).drop 20).take 4 = (record.drop 20).take 4 := by
    rw [List.drop_append_of_le_length (by omega),
      List.take_append_of_le_length (by rw [List.length_drop]; omega)]
  rw [recordLoad, recordLoad, htake, hbytes, hpackets]

/-- **A table that fits is written in full.** -/
theorem recordsLoad_table (μ : Measure) (d : Address) {t : FlowTable} (h : t.Fits) :
    recordsLoad μ d (t.records.map (·.octets false)) = t.load μ d := by
  rw [recordsLoad, List.map_map, FlowTable.load]
  refine congrArg List.sum (List.map_congr_left fun r hr => ?_)
  exact recordLoad_octets μ d (h r hr)

/-! ## 3. Messages -/

/-- **The flow records in a compact message**, as the aggregator has them: those of its data sets
of the flow template. -/
def flowsIn (template : UInt16) (payload : List UInt8) : List (List UInt8) :=
  match CompactMessage.parse payload with
  | .ok m => valuesOf template m.items
  | .error _ => []

/-- **The flow records in a full message**, as the collector has them, each tagged with its
sender. -/
def collectedFlows (template : UInt16) (payload : List UInt8) : List (List UInt8) :=
  match FullMessage.decode payload with
  | .ok m => (m.dataBodies template).flatMap (Octets.pieces collectedWidth)
  | .error _ => []

/-- Sets without records have no values. -/
theorem valuesOf_items (template : UInt16) (sets : List CompactSet) :
    valuesOf template (CompactSet.items sets) = valuesOf template (sets.map (·.item)) := by
  induction sets with
  | nil => rfl
  | cons s sets ih =>
    rw [Aggregation.items_cons, valuesOf_append, ih, List.map_cons, valuesOf_cons]
    refine congrArg (· ++ _) ?_
    by_cases hc : s.count = 0
    · have hnone : CompactSet.items [s] = [] := by simp [CompactSet.items, hc]
      have hrecords : s.item.2 = [] := CompactSet.records_eq_nil hc
      rw [hnone, hrecords, ite_self]
      rfl
    · rw [Aggregation.items_singleton hc, valuesOf_singleton]

theorem flowsIn_data {payload : List UInt8} {m : CompactMessage}
    (hp : CompactMessage.parse payload = .ok m) (hk : m.kind = .data) (template : UInt16) :
    flowsIn template payload = valuesOf template (m.sets.map (·.item)) := by
  simp only [flowsIn, hp, CompactMessage.items, hk, valuesOf_items]

theorem flowsIn_template {payload : List UInt8} {m : CompactMessage}
    (hp : CompactMessage.parse payload = .ok m) (hk : m.kind = .template) (template : UInt16) :
    flowsIn template payload = [] := by
  simp only [flowsIn, hp, CompactMessage.items, hk]
  rfl

/-- **A data message has the flow records that were written into it.** -/
theorem flowsIn_records {payload : List UInt8} {number : UInt32}
    {sets : List (UInt16 × List (List UInt8))}
    (h : Encoding.compact.ReadsRecords payload number sets) (template : UInt16) :
    flowsIn template payload = valuesOf template sets := by
  obtain ⟨m, hp, hk, -, hsets⟩ := h
  rw [flowsIn_data hp hk, ← hsets]
  rfl

/-- A template message has none. -/
theorem flowsIn_definitions {payload : List UInt8} {number : UInt32}
    {definitions : List (UInt16 × List FieldSpecifier)}
    (h : Encoding.compact.ReadsDefinitions payload number definitions) (template : UInt16) :
    flowsIn template payload = [] := by
  obtain ⟨m, hp, hk, -, -⟩ := h
  exact flowsIn_template hp hk template

/-- **What a node exports of its flows** are the records of its table. -/
theorem valuesOf_recordSets {settings : ExportSettings} {encoding : Encoding} {l : LocalExport}
    (h : l.Built settings encoding) (flows : List FlowRecord) (counters : Counters) :
    valuesOf settings.templateId (settings.recordSets flows counters)
      = flows.map (·.octets settings.compactDestination) := by
  have hreport : valuesOf settings.templateId (if settings.reportsCounters then
      [(reportTemplateId, [counters.octets])] else []) = [] := by
    split
    · rename_i hr
      rw [valuesOf_singleton, if_neg fun heq => h.distinct hr heq.symm]
    · rfl
  rw [ExportSettings.recordSets, valuesOf_append, hreport, List.append_nil]
  cases flows with
  | nil => rfl
  | cons r flows =>
    rw [List.isEmpty_cons, if_neg (by simp), valuesOf_singleton, if_pos rfl]

/-- The bodies of a template in an expanded message are those of its sets, tagged. -/
theorem dataBodies_expanded {full : FullMessage} {sets : List CompactSet} {sender : Address}
    (h : full.sets = sets.map (·.expandedSet .data (some sender))) (template : UInt16) :
    full.dataBodies template = (sets.filter (·.template = template)).map fun s =>
      s.records.flatMap (· ++ sender.octets) := by
  rw [FullMessage.dataBodies, h]
  clear h
  induction sets with
  | nil => rfl
  | cons s sets ih =>
    rw [List.map_cons, List.filter_cons]
    by_cases ht : s.template = template
    · rw [if_pos (by simpa using ht), List.map_cons, ← ih]
      simp only [CompactSet.expandedSet, List.filterMap_cons, ht, if_true]
      rfl
    · rw [if_neg (by simpa using ht), ← ih]
      simp only [CompactSet.expandedSet, List.filterMap_cons, ht, if_false]

/-- **The collector has the flow records of the compact message**, tagged. -/
theorem collectedFlows_expanded {payload bytes : List UInt8} {m : CompactMessage}
    {full : FullMessage} {sender : Address} {template : UInt16}
    (hp : CompactMessage.parse payload = .ok m)
    (hw : Wide (flowsIn template payload))
    (hd : FullMessage.decode bytes = .ok full)
    (hs : full.sets = m.sets.map (·.expandedSet m.kind (some sender))) :
    collectedFlows template bytes = (flowsIn template payload).map (· ++ sender.octets) := by
  simp only [collectedFlows, hd]
  cases hk : m.kind with
  | template =>
    have hnone : full.dataBodies template = [] := by
      rw [hk] at hs
      rw [FullMessage.dataBodies, hs, List.filterMap_map, List.filterMap_eq_nil_iff]
      intro s _
      rfl
    rw [hnone, flowsIn_template hp hk]
    rfl
  | data =>
    rw [hk] at hs
    rw [flowsIn_data hp hk] at hw ⊢
    rw [dataBodies_expanded hs]
    have hmem : ∀ s ∈ m.sets.filter (·.template = template), ∀ r ∈ s.records,
        r.length = flowWidth := by
      intro s hs r hr
      obtain ⟨hs, ht⟩ := List.mem_filter.mp hs
      refine hw r (List.mem_flatMap.mpr ⟨s.item, List.mem_filter.mpr ⟨?_, ht⟩, hr⟩)
      exact List.mem_map.mpr ⟨s, hs, rfl⟩
    have hvalues : valuesOf template (m.sets.map (·.item))
        = (m.sets.filter (·.template = template)).flatMap (·.records) := by
      rw [valuesOf, List.filter_map, List.flatMap_map]
      rfl
    rw [hvalues]
    generalize m.sets.filter (·.template = template) = sets at hmem ⊢
    rw [List.flatMap_map, List.map_flatMap, List.flatMap_def, List.flatMap_def]
    refine congrArg List.flatten (List.map_congr_left fun s hs => ?_)
    rw [List.flatMap_def]
    refine Octets.pieces_flatten (by decide) ?_
    intro r hr
    obtain ⟨record, hrecord, rfl⟩ := List.mem_map.mp hr
    rw [List.length_append, hmem s hs record hrecord, sender.length_octets]
    rfl

/-- **The load at the collector** is the load of the compact message. -/
theorem recordsLoad_tagged (μ : Measure) (d sender : Address) {records : List (List UInt8)}
    (h : Wide records) :
    recordsLoad μ d (records.map (· ++ sender.octets)) = recordsLoad μ d records := by
  rw [recordsLoad, List.map_map]
  refine congrArg List.sum (List.map_congr_left fun r hr => ?_)
  exact recordLoad_append μ d (h r hr) sender.octets

end FlowExport

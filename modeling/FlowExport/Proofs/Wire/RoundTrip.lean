/-
# What was written is read back

A message is begun in any buffer, sets are added by any calls, some of which fail, and the message
is finished.  A reader of its encoding, who knows nothing of the calls, then finds exactly the sets
of those that succeeded, in order: definitions with their specifiers, and data as the rules of the
elements rendered it into zeros.

In the full encoding a body is cut by the template (`FullMessage.decode_written`); the compact one
has no widths, and a body is cut by dividing it by the number of its records
(`CompactMessage.parse_written`).
-/
import FlowExport.Proofs.Wire.Calls
import FlowExport.Proofs.Wire.CompactMessage
import FlowExport.Proofs.Wire.FullMessage
import FlowExport.Proofs.Wire.Template
import Mathlib.Data.List.Forall2

namespace FlowExport

open Draft (Call attempt octetsOf)

/-! ## 1. Calls to read back -/

/-- A template of two fields, a number in two octets and one octet that no rule touches. -/
def twoFields : Template UInt64 where
  id := 256
  elements := [⟨⟨1, 2, 0⟩, by decide, .unsigned id⟩, ⟨⟨2, 1, 0⟩, by decide, .keep⟩]
  id_ge := by decide
  length_le := by decide

/-- Three calls for a data message: a source that holds less than it announces, a definition, and
two records. -/
def threeCalls : List Call :=
  [.add twoFields ⟨2, [5]⟩, .define twoFields, .add twoFields (.ofList [5, 7])]

/-- A data message that is begun in a small buffer. -/
def begun (encoding : Encoding) : Draft :=
  (Draft.begin (.ofCapacity 40) {} encoding .data 0).2.1

/-! ## 2. The full encoding -/

/-- **What the set of a call is in a full message.**  A definition is one template record.  Data is
what the rules render into zeros, and under its template, if that has elements, it is cut into one
row for each record, every field with its specifier. -/
def Draft.Call.ReadsFull : Call → FullSet → Prop
  | .define t, set => set = .templates [⟨t.id, t.specifiers⟩]
  | .add t source, set => ∃ body, set = .data t.id body ∧
      body = source.records.flatMap (fun record =>
        t.elements.flatMap fun e => e.rendering.render record (List.replicate e.size 0)) ∧
      (t.elements ≠ [] → ∃ rows, (TemplateRecord.ofTemplate t).records body = .ok rows ∧
        rows.map (TemplateRecord.ofTemplate t).fieldValues
          = source.records.map fun record => t.elements.map fun e =>
              (e.specifier, e.rendering.render record (List.replicate e.size 0)))

namespace FullMessage

/-- The set of a call. -/
def setOf : Call → FullSet
  | .define t => .templates [⟨t.id, t.specifiers⟩]
  | .add t source => .data t.id (source.records.flatMap t.encodeRecord)

theorem ofFrame_frame (c : Call) : FullSet.ofFrame (c.frame .full) = .ok (some (setOf c)) := by
  cases c with
  | define t =>
    have hmax : t.specifiers.length ≤ maxLength := by
      have := t.length_le
      rw [t.length_specifiers, maxLength]
      rw [maxElements] at this
      omega
    have h := FullSet.ofFrame_template t.id_ge
      (fun s hs => Template.valid_of_mem_specifiers hs) hmax
    rw [t.length_specifiers] at h
    exact h
  | add t source => exact FullSet.ofFrame_data source.records.length _ t.id_ge

theorem readsFull_setOf (c : Call) : c.ReadsFull (setOf c) := by
  cases c with
  | define t => exact rfl
  | add t source =>
    refine ⟨_, rfl, rfl, fun h => ?_⟩
    have hrows := TemplateRecord.records_flatMap_encodeRecord t h source.records
    refine ⟨_, hrows, ?_⟩
    rw [List.map_map]
    exact List.map_congr_left fun record _ => TemplateRecord.fieldValues_encodeRecord t record

theorem decode_octetsOf (x : Exporter) (kind : Kind) (time : UInt32) {accepted : List Call}
    (hl : Encoding.full.headerLength + (octetsOf .full accepted).length ≤ maxLength) :
    decode (x.message .full kind time (octetsOf .full accepted))
      = .ok ⟨⟨protocolVersion, UInt16.ofNat (16 + (octetsOf .full accepted).length), time,
          x.sequence, x.domain⟩, accepted.map setOf⟩ := by
  have hframes : (accepted.map (·.frame .full)).map FullSet.ofFrame
      = (accepted.map fun c => some (setOf c)).map .ok := by
    rw [List.map_map, List.map_map]
    exact List.map_congr_left fun c _ => ofFrame_frame c
  have hsets : (accepted.map fun c => some (setOf c)).filterMap id = accepted.map setOf := by
    rw [List.filterMap_map]
    exact congrFun List.filterMap_eq_map _
  rw [octetsOf, decode_message x kind time hl hframes, hsets]

/-- **A full message is decoded into what was written**, whatever the buffer held and whichever of
the calls failed. -/
theorem decode_written {buffer : Buffer} {x x' : Exporter} {kind : Kind} {time : UInt32}
    {calls : List Call} {d d' : Draft} {bytes : List UInt8}
    (hb : Draft.begin buffer x .full kind time = (.ok (), d, x'))
    (hf : (attempt calls d).2.finish = (.ok bytes, d')) :
    ∃ m, decode bytes = .ok m ∧ m.header.version = 10 ∧
      m.header.length.toNat = bytes.length ∧ m.header.time = time ∧
      m.header.sequence = x.sequence ∧ m.header.domain = x.domain ∧
      List.Forall₂ Call.ReadsFull (attempt calls d).1 m.sets := by
  obtain ⟨rfl, hl, -⟩ := Draft.finish_attempt hb hf
  refine ⟨_, decode_octetsOf x kind time hl, rfl, ?_, rfl, rfl, rfl, ?_⟩
  · rw [Exporter.length_message]
    rw [maxLength] at hl
    exact UInt16.toNat_ofNat'.trans (Nat.mod_eq_of_lt (Nat.lt_succ_of_le hl))
  · rw [List.forall₂_map_right_iff]
    exact List.forall₂_same.mpr fun c _ => readsFull_setOf c

/-- Of the three calls the last succeeds, and its records are decoded. -/
theorem decode_written_threeCalls :
    Draft.begin (.ofCapacity 40) {} .full .data 0
        = (.ok (), begun .full, ({} : Exporter).advance) ∧
      ∃ bytes d', (attempt threeCalls (begun .full)).2.finish = (.ok bytes, d') ∧
        ∃ m, decode bytes = .ok m ∧ m.sets = [.data 256 [0, 5, 0, 0, 7, 0]] := by
  have hb : Draft.begin (.ofCapacity 40) {} .full .data 0
      = (.ok (), begun .full, ({} : Exporter).advance) := rfl
  have hf : (attempt threeCalls (begun .full)).2.finish = (.ok _, _) := rfl
  obtain ⟨m, hm, -, -, -, -, -, hsets⟩ := decode_written hb hf
  refine ⟨hb, _, _, hf, m, hm, ?_⟩
  obtain ⟨set, rest, ⟨body, rfl, hbody, -⟩, hrest, heq⟩ := List.forall₂_cons_left_iff.mp hsets
  rw [heq, List.forall₂_nil_left_iff.mp hrest, hbody]
  rfl

end FullMessage

/-! ## 3. The compact encoding -/

/-- **What the set of a call is in a compact message**: its template, the number of its fields or
records, and its specifiers, or its records, rendered into zeros and all of the width found. -/
def Draft.Call.ReadsCompact : Call → CompactSet → Prop
  | .define t, set => set.template = t.id ∧ set.count.toNat = t.elements.length ∧
      set.specifiers = t.specifiers
  | .add t source, set => set.template = t.id ∧ set.count.toNat = source.records.length ∧
      set.records = source.records.map (fun record =>
        t.elements.flatMap fun e => e.rendering.render record (List.replicate e.size 0)) ∧
      ∀ record ∈ set.records, record.length = set.recordWidth

/-- Whether the records of the set have octets. -/
def Draft.Call.HasFields : Call → Prop
  | .define _ => True
  | .add t _ => t.elements ≠ []

namespace CompactMessage

/-- The set of a call. -/
def setOf (c : Call) : CompactSet :=
  ⟨c.template, UInt8.ofNat c.count, c.body⟩

section Set

variable {c : Call} (hc : Encoding.compact.Carries c.template c.count)

include hc

theorem ofFrame_frame : CompactSet.ofFrame (c.frame .compact) = setOf c :=
  CompactSet.ofFrame_ofSet c.kind c.body hc

theorem toNat_count_setOf : (setOf c).count.toNat = c.count := by
  have hle := (hc rfl).1
  rw [maxCompactCount] at hle
  rw [setOf, UInt8.toNat_ofNat']
  omega

variable (hfields : c.HasFields)

include hfields

/-- What is written passes the check of the reader. -/
theorem check_setOf : (setOf c).check c.kind = .ok () := by
  have hle := (hc rfl).1
  cases c with
  | define t =>
    have h : (CompactSet.mk t.id (UInt8.ofNat t.specifiers.length)
        (t.specifiers.flatMap (·.encode))).check .template = .ok () :=
      CompactSet.check_template (fun s hs => Template.valid_of_mem_specifiers hs)
        (by rw [t.length_specifiers]; exact hle)
    rw [t.length_specifiers] at h
    exact h
  | add t source =>
    have hwidth : ∀ r ∈ source.records.map t.encodeRecord, r.length = t.recordWidth :=
      fun r hr => Template.length_of_mem_encoded hr
    have h : (CompactSet.mk t.id (UInt8.ofNat (source.records.map t.encodeRecord).length)
        (source.records.map t.encodeRecord).flatten).check .data = .ok () :=
      CompactSet.check_data (Template.recordWidth_pos hfields) hwidth
        (by rw [List.length_map]; exact hle)
    rw [List.length_map, ← List.flatMap_def] at h
    exact h

theorem readsCompact_setOf : c.ReadsCompact (setOf c) := by
  have hle := (hc rfl).1
  have hcount := toNat_count_setOf hc
  have hcheck := check_setOf hc hfields
  cases c with
  | define t =>
    refine ⟨rfl, hcount, ?_⟩
    exact FieldSpecifier.readAll_flatMap_encode fun s hs => Template.valid_of_mem_specifiers hs
  | add t source =>
    have hwidth : ∀ r ∈ source.records.map t.encodeRecord, r.length = t.recordWidth :=
      fun r hr => Template.length_of_mem_encoded hr
    have hrecords : (CompactSet.mk t.id (UInt8.ofNat (source.records.map t.encodeRecord).length)
        (source.records.map t.encodeRecord).flatten).records = source.records.map t.encodeRecord :=
      CompactSet.records_flatten (Template.recordWidth_pos hfields) hwidth
        (by rw [List.length_map]; exact hle)
    rw [List.length_map, ← List.flatMap_def] at hrecords
    exact ⟨rfl, hcount, hrecords,
      fun r hr => CompactSet.length_of_mem_records (CompactSet.isEven_of_check hcheck) hr⟩

end Set

theorem parse_octetsOf (x : Exporter) (kind : Kind) (time : UInt32) {accepted : List Call}
    (hl : Encoding.compact.headerLength + (octetsOf .compact accepted).length ≤ maxLength)
    (hall : ∀ c ∈ accepted, c.kind = kind ∧ Encoding.compact.Carries c.template c.count ∧
      c.HasFields) :
    ∃ m, parse (x.message .compact kind time (octetsOf .compact accepted)) = .ok m ∧
      m.header = ⟨kind, UInt16.ofNat x.sequence.toNat,
        UInt16.ofNat (5 + (octetsOf .compact accepted).length)⟩ ∧
      m.sets = accepted.map setOf := by
  have hcheck : ∀ f ∈ accepted.map (·.frame .compact),
      (CompactSet.ofFrame f).check kind = .ok () := by
    intro f hf
    obtain ⟨c, hc, rfl⟩ := List.mem_map.mp hf
    obtain ⟨rfl, hcarries, hfields⟩ := hall c hc
    rw [ofFrame_frame hcarries]
    exact check_setOf hcarries hfields
  refine ⟨_, parse_message x kind time hl hcheck, rfl, ?_⟩
  rw [sets_mk _ (Frame.length_le_of_flatMap hl), List.map_map]
  exact List.map_congr_left fun c hc => ofFrame_frame (hall c hc).2.1

/-- **A compact message is parsed into what was written**, whatever the buffer held and whichever of
the calls failed, if no data set has a template without elements. -/
theorem parse_written {buffer : Buffer} {x x' : Exporter} {kind : Kind} {time : UInt32}
    {calls : List Call} {d d' : Draft} {bytes : List UInt8}
    (hb : Draft.begin buffer x .compact kind time = (.ok (), d, x'))
    (hfields : ∀ c ∈ calls, c.HasFields)
    (hf : (attempt calls d).2.finish = (.ok bytes, d')) :
    ∃ m, parse bytes = .ok m ∧ m.kind = kind ∧
      m.header.sequence.toNat = x.sequence.toNat % 65536 ∧
      m.header.length.toNat = bytes.length ∧
      List.Forall₂ Call.ReadsCompact (attempt calls d).1 m.sets ∧
      m.recordCount = Draft.recordsOf kind (total ((attempt calls d).1.map (·.count))) := by
  obtain ⟨rfl, hl, hall⟩ := Draft.finish_attempt hb hf
  obtain ⟨m, hparse, hheader, hsets⟩ := parse_octetsOf x kind time hl
    (fun c hc => ⟨(hall c hc).2.1, (hall c hc).2.2, hfields c (hall c hc).1⟩)
  have hkind : m.kind = kind := by rw [CompactMessage.kind, hheader]
  refine ⟨m, hparse, hkind, ?_, ?_, ?_, ?_⟩
  · rw [hheader]
    exact UInt16.toNat_ofNat'
  · rw [hheader, Exporter.length_message]
    rw [maxLength] at hl
    exact UInt16.toNat_ofNat'.trans (Nat.mod_eq_of_lt (Nat.lt_succ_of_le hl))
  · rw [hsets, List.forall₂_map_right_iff]
    refine List.forall₂_same.mpr fun c hc => ?_
    exact readsCompact_setOf (hall c hc).2.2 (hfields c (hall c hc).1)
  · rw [recordCount, hkind]
    cases kind with
    | template => rfl
    | data =>
      change total (m.sets.map (·.count.toNat)) = total _
      rw [hsets, List.map_map]
      exact congrArg total (List.map_congr_left fun c hc => toNat_count_setOf (hall c hc).2.2)

/-- Of the three calls the last succeeds, and its records are found by their number. -/
theorem parse_written_threeCalls :
    Draft.begin (.ofCapacity 40) {} .compact .data 0
        = (.ok (), begun .compact, ({} : Exporter).advance) ∧
      (∀ c ∈ threeCalls, c.HasFields) ∧
      ∃ bytes d', (attempt threeCalls (begun .compact)).2.finish = (.ok bytes, d') ∧
        ∃ m, parse bytes = .ok m ∧ m.recordCount = 2 ∧
          m.sets.map (·.records) = [[[0, 5, 0], [0, 7, 0]]] := by
  have hb : Draft.begin (.ofCapacity 40) {} .compact .data 0
      = (.ok (), begun .compact, ({} : Exporter).advance) := rfl
  have hfields : ∀ c ∈ threeCalls, c.HasFields := by
    simp [threeCalls, Draft.Call.HasFields, twoFields]
  have hf : (attempt threeCalls (begun .compact)).2.finish = (.ok _, _) := rfl
  obtain ⟨m, hm, -, -, -, hsets, hcount⟩ := parse_written hb hfields hf
  refine ⟨hb, hfields, _, _, hf, m, hm, hcount, ?_⟩
  obtain ⟨set, rest, ⟨-, -, hrecords, -⟩, hrest, heq⟩ := List.forall₂_cons_left_iff.mp hsets
  rw [heq, List.forall₂_nil_left_iff.mp hrest, List.map_singleton, hrecords]
  rfl

end CompactMessage

end FlowExport

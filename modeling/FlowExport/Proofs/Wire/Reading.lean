/-
# Messages as readers have them

`Encoding.ReadsRecords` and `Encoding.ReadsDefinitions` say what a reader of either encoding finds
in a message: its number, of which a compact header keeps the low half, and its sets, each with
its template and its records or specifiers.  A message composed of steps that write such sets, of
which `Draft.WritesRecords` and `Draft.WritesDefinition` are the conditions, is written wherever
it fits, and is then read as these sets (`compose_records`, `compose_definitions`).
-/
import FlowExport.Proofs.Wire.CompactMessage
import FlowExport.Proofs.Wire.FullMessage

namespace FlowExport

namespace Encoding

/-- **A data message, read**: its number, and the template and the records of each set. -/
def ReadsRecords (encoding : Encoding) (payload : List UInt8) (number : UInt32)
    (sets : List (UInt16 × List (List UInt8))) : Prop :=
  match encoding with
  | .compact => ∃ m, CompactMessage.parse payload = .ok m ∧ m.kind = .data ∧
      m.header.sequence = UInt16.ofNat number.toNat ∧
      (m.sets.map fun s => (s.template, s.records)) = sets
  | .full => ∃ m, FullMessage.decode payload = .ok m ∧ m.header.sequence = number ∧
      m.sets = sets.map fun s => .data s.1 s.2.flatten

/-- **A template message, read**: its number, and the template and the specifiers of each set. -/
def ReadsDefinitions (encoding : Encoding) (payload : List UInt8) (number : UInt32)
    (definitions : List (UInt16 × List FieldSpecifier)) : Prop :=
  match encoding with
  | .compact => ∃ m, CompactMessage.parse payload = .ok m ∧ m.kind = .template ∧
      m.header.sequence = UInt16.ofNat number.toNat ∧
      (m.sets.map fun s => (s.template, s.specifiers)) = definitions
  | .full => ∃ m, FullMessage.decode payload = .ok m ∧ m.header.sequence = number ∧
      m.sets = definitions.map fun d => .templates [⟨d.1, d.2⟩]

/-- **The number of a message**: the header has it, or its low half. -/
def ReadsNumber (encoding : Encoding) (payload : List UInt8) (number : Nat) : Prop :=
  match encoding with
  | .compact => ∃ m, CompactMessage.parse payload = .ok m ∧
      m.header.sequence = UInt16.ofNat number
  | .full => ∃ m, FullMessage.decode payload = .ok m ∧ m.header.sequence = UInt32.ofNat number

variable {encoding : Encoding} {payload : List UInt8} {n : Nat}

theorem ofNat_toNat_ofNat (n : Nat) : UInt16.ofNat (UInt32.ofNat n).toNat = UInt16.ofNat n := by
  apply UInt16.toNat_inj.mp
  rw [UInt16.toNat_ofNat', UInt32.toNat_ofNat', UInt16.toNat_ofNat']
  omega

theorem ReadsRecords.number {sets : List (UInt16 × List (List UInt8))}
    (h : encoding.ReadsRecords payload (UInt32.ofNat n) sets) :
    encoding.ReadsNumber payload n := by
  cases encoding with
  | compact =>
    obtain ⟨m, hp, -, hs, -⟩ := h
    exact ⟨m, hp, hs.trans (ofNat_toNat_ofNat n)⟩
  | full =>
    obtain ⟨m, hd, hs, -⟩ := h
    exact ⟨m, hd, hs⟩

theorem ReadsDefinitions.number {definitions : List (UInt16 × List FieldSpecifier)}
    (h : encoding.ReadsDefinitions payload (UInt32.ofNat n) definitions) :
    encoding.ReadsNumber payload n := by
  cases encoding with
  | compact =>
    obtain ⟨m, hp, -, hs, -⟩ := h
    exact ⟨m, hp, hs.trans (ofNat_toNat_ofNat n)⟩
  | full =>
    obtain ⟨m, hd, hs, -⟩ := h
    exact ⟨m, hd, hs⟩

end Encoding

namespace Draft

/-! ## 1. Records -/

/-- **A step that adds records** of one width under a template. -/
structure WritesRecords (encoding : Encoding) (step : Step Unit) (template : UInt16)
    (records : List (List UInt8)) : Prop where
  writes : Writes encoding .data step ()
    (Frame.ofSet encoding .data template records.length records.flatten) records.length
  id_ge : minTemplateId ≤ template
  carries : encoding.Carries template records.length
  width : ∃ w, 0 < w ∧ ∀ r ∈ records, r.length = w

section Records

variable {ι : Type} {encoding : Encoding} {step : ι → Step Unit} {template : ι → UInt16}
  {records : ι → List (List UInt8)} {xs : List ι}

/-- The length of a data message from its sets. -/
theorem length_records_frames (encoding : Encoding) (template : ι → UInt16)
    (records : ι → List (List UInt8)) (xs : List ι) :
    ((xs.map fun i => Frame.ofSet encoding .data (template i) (records i).length
        (records i).flatten).flatMap Frame.encode).length
      = (xs.map fun i => encoding.setHeaderLength + (records i).flatten.length).sum := by
  induction xs with
  | nil => rfl
  | cons i xs ih =>
    rw [List.map_cons, List.flatMap_cons, List.length_append, ih, length_encode_ofSet,
      List.map_cons, List.sum_cons]

/-- **Records are read as they were written.** -/
theorem readsRecords_message
    (hw : ∀ i ∈ xs, WritesRecords encoding (step i) (template i) (records i)) (x : Exporter)
    (time : UInt32) (hl : encoding.headerLength
      + (xs.map fun i => encoding.setHeaderLength + (records i).flatten.length).sum ≤ maxLength) :
    encoding.ReadsRecords (x.message encoding .data time
        ((xs.map fun i => Frame.ofSet encoding .data (template i) (records i).length
          (records i).flatten).flatMap Frame.encode)) x.sequence
      (xs.map fun i => (template i, records i)) := by
  rw [← length_records_frames encoding template records xs] at hl
  cases encoding with
  | compact =>
    have hset : ∀ i ∈ xs, CompactSet.ofFrame (Frame.ofSet .compact .data (template i)
        (records i).length (records i).flatten)
          = ⟨template i, UInt8.ofNat (records i).length, (records i).flatten⟩ :=
      fun i hi => CompactSet.ofFrame_ofSet _ _ (hw i hi).carries
    have hsmall := Frame.length_le_of_flatMap hl
    refine ⟨_, CompactMessage.parse_message x .data time hl ?_, rfl, rfl, ?_⟩
    · intro f hf
      obtain ⟨i, hi, rfl⟩ := List.mem_map.mp hf
      obtain ⟨w, hpos, hlen⟩ := (hw i hi).width
      rw [hset i hi]
      exact CompactSet.check_data hpos hlen ((hw i hi).carries rfl).1
    · rw [CompactMessage.sets_mk _ hsmall, List.map_map, List.map_map]
      refine List.map_congr_left fun i hi => ?_
      obtain ⟨w, hpos, hlen⟩ := (hw i hi).width
      change ((CompactSet.ofFrame _).template, (CompactSet.ofFrame _).records) = _
      rw [hset i hi, CompactSet.records_flatten hpos hlen ((hw i hi).carries rfl).1]
  | full =>
    have hmap : (xs.map fun i => Frame.ofSet .full .data (template i) (records i).length
        (records i).flatten).map FullSet.ofFrame
          = (xs.map fun i => some (FullSet.data (template i) (records i).flatten)).map .ok := by
      rw [List.map_map, List.map_map]
      exact List.map_congr_left fun i hi => FullSet.ofFrame_data _ _ (hw i hi).id_ge
    refine ⟨_, FullMessage.decode_message x .data time hl hmap, rfl, ?_⟩
    simp only [List.filterMap_map, List.map_map]
    simp [Function.comp_def]

/-- **A data message that fits is written, and read as its sets.** -/
theorem compose_records
    (hw : ∀ i ∈ xs, WritesRecords encoding (step i) (template i) (records i))
    (buffer : Buffer) (x : Exporter) (time : UInt32) (hmax : buffer.capacity ≤ maxLength)
    (hroom : encoding.headerLength
      + (xs.map fun i => encoding.setHeaderLength + (records i).flatten.length).sum
        ≤ buffer.capacity) :
    ∃ payload buffer', compose buffer x encoding .data time (fillAll (xs.map step))
        = (.ok payload, buffer', x.advance) ∧
      buffer'.capacity = buffer.capacity ∧ payload.length ≤ buffer.capacity ∧
      encoding.ReadsRecords payload x.sequence (xs.map fun i => (template i, records i)) := by
  have hlen := length_records_frames encoding template records xs
  obtain ⟨buffer', hc, hcap⟩ := compose_ok (fun i hi => (hw i hi).writes) buffer x time
    (by rw [hlen]; exact hroom) (by rw [hlen]; omega)
  refine ⟨_, buffer', hc, hcap, ?_, readsRecords_message hw x time (by omega)⟩
  rw [Exporter.length_message, hlen]
  exact hroom

end Records

/-! ## 2. Definitions -/

/-- **A step that adds a definition** of a template by specifiers that obey the rules. -/
structure WritesDefinition (encoding : Encoding) (step : Step Unit) (template : UInt16)
    (specifiers : List FieldSpecifier) : Prop where
  writes : Writes encoding .template step ()
    (Frame.ofSet encoding .template template specifiers.length (specifiers.flatMap (·.encode))) 0
  id_ge : minTemplateId ≤ template
  carries : encoding.Carries template specifiers.length
  valid : ∀ s ∈ specifiers, s.Valid
  length_le : specifiers.length ≤ maxElements

section Definitions

variable {ι : Type} {encoding : Encoding} {step : ι → Step Unit} {template : ι → UInt16}
  {specifiers : ι → List FieldSpecifier} {xs : List ι}

/-- The length of a template message from its sets. -/
theorem length_definitions_frames (encoding : Encoding) (template : ι → UInt16)
    (specifiers : ι → List FieldSpecifier) (xs : List ι) :
    ((xs.map fun i => Frame.ofSet encoding .template (template i) (specifiers i).length
        ((specifiers i).flatMap (·.encode))).flatMap Frame.encode).length
      = (xs.map fun i => encoding.templateSetHeaderLength
          + ((specifiers i).flatMap (·.encode)).length).sum := by
  induction xs with
  | nil => rfl
  | cons i xs ih =>
    rw [List.map_cons, List.flatMap_cons, List.length_append, ih, length_encode_ofSet,
      List.map_cons, List.sum_cons]

/-- **Definitions are read as they were written.** -/
theorem readsDefinitions_message
    (hw : ∀ i ∈ xs, WritesDefinition encoding (step i) (template i) (specifiers i))
    (x : Exporter) (time : UInt32) (hl : encoding.headerLength
      + (xs.map fun i => encoding.templateSetHeaderLength
          + ((specifiers i).flatMap (·.encode)).length).sum ≤ maxLength) :
    encoding.ReadsDefinitions (x.message encoding .template time
        ((xs.map fun i => Frame.ofSet encoding .template (template i) (specifiers i).length
          ((specifiers i).flatMap (·.encode))).flatMap Frame.encode)) x.sequence
      (xs.map fun i => (template i, specifiers i)) := by
  rw [← length_definitions_frames encoding template specifiers xs] at hl
  cases encoding with
  | compact =>
    have hset : ∀ i ∈ xs, CompactSet.ofFrame (Frame.ofSet .compact .template (template i)
        (specifiers i).length ((specifiers i).flatMap (·.encode)))
          = ⟨template i, UInt8.ofNat (specifiers i).length,
            (specifiers i).flatMap (·.encode)⟩ :=
      fun i hi => CompactSet.ofFrame_ofSet _ _ (hw i hi).carries
    have hsmall := Frame.length_le_of_flatMap hl
    refine ⟨_, CompactMessage.parse_message x .template time hl ?_, rfl, rfl, ?_⟩
    · intro f hf
      obtain ⟨i, hi, rfl⟩ := List.mem_map.mp hf
      rw [hset i hi]
      exact CompactSet.check_template (hw i hi).valid ((hw i hi).carries rfl).1
    · rw [CompactMessage.sets_mk _ hsmall, List.map_map, List.map_map]
      refine List.map_congr_left fun i hi => ?_
      change ((CompactSet.ofFrame _).template, (CompactSet.ofFrame _).specifiers) = _
      rw [hset i hi, CompactSet.specifiers, FieldSpecifier.readAll_flatMap_encode (hw i hi).valid]
  | full =>
    have hmap : (xs.map fun i => Frame.ofSet .full .template (template i) (specifiers i).length
        ((specifiers i).flatMap (·.encode))).map FullSet.ofFrame
          = (xs.map fun i => some (FullSet.templates [⟨template i, specifiers i⟩])).map .ok := by
      rw [List.map_map, List.map_map]
      refine List.map_congr_left fun i hi => ?_
      have hcount : (specifiers i).length ≤ maxLength := by
        have := (hw i hi).length_le
        rw [maxElements] at this
        rw [maxLength]
        omega
      rw [Function.comp_apply, Function.comp_apply,
        FullSet.ofFrame_template (hw i hi).id_ge (hw i hi).valid hcount]
    refine ⟨_, FullMessage.decode_message x .template time hl hmap, rfl, ?_⟩
    simp only [List.filterMap_map, List.map_map]
    simp [Function.comp_def]

/-- **A template message that fits is written, and read as its definitions.** -/
theorem compose_definitions
    (hw : ∀ i ∈ xs, WritesDefinition encoding (step i) (template i) (specifiers i))
    (buffer : Buffer) (x : Exporter) (time : UInt32) (hmax : buffer.capacity ≤ maxLength)
    (hroom : encoding.headerLength
      + (xs.map fun i => encoding.templateSetHeaderLength
          + ((specifiers i).flatMap (·.encode)).length).sum ≤ buffer.capacity) :
    ∃ payload buffer', compose buffer x encoding .template time (fillAll (xs.map step))
        = (.ok payload, buffer', x.advance) ∧
      buffer'.capacity = buffer.capacity ∧ payload.length ≤ buffer.capacity ∧
      encoding.ReadsDefinitions payload x.sequence
        (xs.map fun i => (template i, specifiers i)) := by
  have hlen := length_definitions_frames encoding template specifiers xs
  obtain ⟨buffer', hc, hcap⟩ := compose_ok (fun i hi => (hw i hi).writes) buffer x time
    (by rw [hlen]; exact hroom) (by rw [hlen]; omega)
  refine ⟨_, buffer', hc, hcap, ?_, readsDefinitions_message hw x time (by omega)⟩
  rw [Exporter.length_message, hlen]
  exact hroom

end Definitions

end Draft

end FlowExport

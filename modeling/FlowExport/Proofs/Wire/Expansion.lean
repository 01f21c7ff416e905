/-
# Expansion, exactly

The set of a compact message becomes one frame of a full one (`CompactSet.expandedFrame`), whose
length is what `expandedLength` announces (`length_encode_expandedFrame`).  So a message is
expanded exactly where its announced length fits, whatever the capacity (`expand_eq_ok_iff`):
`expand_ok` gives the result, which a reader of full messages decodes into one set for each
(`decode_expand`), and `expand_error` says that a message that does not fit has used up its number.

The announced length is computed before anything is written, from the counts of the sets and the
lengths of their bodies alone; the result takes neither more nor less (`expand_iff_room`).
-/
import FlowExport.Proofs.Wire.CompactMessage
import FlowExport.Proofs.Wire.Composition
import FlowExport.Proofs.Wire.FullMessage
import FlowExport.Wire.Expansion

namespace FlowExport

theorem valid_sourceSpecifier : sourceSpecifier.Valid := by
  decide

/-! ## 1. One set -/

namespace CompactSet

/-- The field that a source adds to a template. -/
def sourceFields (source : Option Address) : List FieldSpecifier :=
  match source with
  | none => []
  | some _ => [sourceSpecifier]

/-- A record with the source at its end. -/
def tagged (source : Option Address) (record : List UInt8) : List UInt8 :=
  match source with
  | none => record
  | some address => record ++ address.octets

/-- **The body of a set in a full message**: specifiers followed by the one of the source, or
records each followed by the source. -/
def expandedBody (kind : Kind) (source : Option Address) (s : CompactSet) : List UInt8 :=
  match kind with
  | .template => s.body ++ (sourceFields source).flatMap (·.encode)
  | .data => s.records.flatMap (tagged source)

/-- **The frame of a set in a full message.** -/
def expandedFrame (kind : Kind) (source : Option Address) (s : CompactSet) : Frame :=
  .ofSet .full kind s.template (s.count.toNat + match kind with
    | .template => (sourceFields source).length
    | .data => 0) (s.expandedBody kind source)

/-- **What a reader of full messages makes of a set.** -/
def expandedSet (kind : Kind) (source : Option Address) (s : CompactSet) : FullSet :=
  match kind with
  | .template => .templates [⟨s.template, s.specifiers ++ sourceFields source⟩]
  | .data => .data s.template (s.expandedBody .data source)

theorem carries_full (template : UInt16) (count : Nat) : Encoding.full.Carries template count :=
  fun h => nomatch h

theorem flatMap_tagged_none (records : List (List UInt8)) :
    records.flatMap (tagged none) = records.flatten := by
  rw [← List.flatMap_id]
  rfl

theorem flatten_tagged_some (address : Address) (records : List (List UInt8)) :
    (records.flatMap fun record => [record, address.octets]).flatten
      = records.flatMap (tagged (some address)) := by
  induction records with
  | nil => rfl
  | cons r records ih =>
    rw [List.flatMap_cons, List.flatten_append, ih, List.flatMap_cons]
    simp [tagged]

section Set

variable {kind : Kind} {s : CompactSet} (h : s.check kind = .ok ()) (source : Option Address)

include h

/-- A set is expanded as a set of encoded octets, its body put together from pieces. -/
theorem expand_eq_addPieces :
    ∃ count pieces, s.expand kind source = Draft.addPieces s.template count pieces ∧
      Frame.ofSet .full kind s.template count pieces.flatten = s.expandedFrame kind source ∧
      Draft.recordsOf kind count = Draft.recordsOf kind s.count.toNat := by
  cases kind with
  | template =>
    cases source with
    | none =>
      refine ⟨_, [s.body], rfl, ?_, rfl⟩
      simp [expandedFrame, expandedBody, sourceFields]
    | some address =>
      refine ⟨_, [s.body, sourceSpecifier.encode], rfl, ?_, rfl⟩
      simp [expandedFrame, expandedBody, sourceFields]
  | data =>
    cases source with
    | none =>
      refine ⟨_, [s.body], rfl, ?_, rfl⟩
      rw [expandedFrame, expandedBody, flatMap_tagged_none, flatten_records (isEven_of_check h)]
      simp
    | some address =>
      refine ⟨_, s.records.flatMap fun record => [record, address.octets], rfl, ?_, rfl⟩
      rw [flatten_tagged_some]
      rfl

/-- **Expanding a set writes its frame.** -/
theorem writes_expand :
    Draft.Writes .full kind (s.expand kind source) () (s.expandedFrame kind source)
      (Draft.recordsOf kind s.count.toNat) := by
  obtain ⟨count, pieces, he, hf, hr⟩ := expand_eq_addPieces h source
  rw [he, ← hf, ← hr]
  exact Draft.writes_addPieces kind pieces (carries_full s.template count)

theorem appends_expand :
    Draft.Appends .full kind (s.expand kind source) (s.expandedFrame kind source) := by
  obtain ⟨count, pieces, he, hf, -⟩ := expand_eq_addPieces h source
  rw [he, ← hf]
  exact Draft.appends_addPieces .full kind s.template count pieces

end Set

theorem length_flatMap_tagged (source : Option Address) (records : List (List UInt8)) :
    (records.flatMap (tagged source)).length
      = records.flatten.length + records.length * (if source.isSome then 16 else 0) := by
  induction records with
  | nil => simp
  | cons r records ih =>
    rw [List.flatMap_cons, List.length_append, ih, List.flatten_cons, List.length_append,
      List.length_cons, Nat.succ_mul]
    cases source with
    | none => simp [tagged]
    | some address =>
      simp only [tagged, List.length_append, Address.length_octets, Option.isSome_some, if_true]
      omega

/-- **The announced length of a set is that of its frame.** -/
theorem length_encode_expandedFrame {kind : Kind} {s : CompactSet} (h : s.check kind = .ok ())
    (source : Option Address) :
    (s.expandedFrame kind source).encode.length = s.expandedLength kind source.isSome := by
  simp only [expandedFrame, length_encode_ofSet]
  cases kind with
  | template =>
    cases source with
    | none => simp [expandedBody, sourceFields, expandedLength]
    | some address =>
      simp only [expandedBody, sourceFields, List.flatMap_singleton, List.length_append,
        FieldSpecifier.length_encode, expandedLength, Option.isSome_some, if_true]
      omega
  | data =>
    have he := isEven_of_check h
    have h16 : sourceSpecifier.size.toNat = 16 := rfl
    simp only [expandedBody, expandedLength, length_flatMap_tagged, flatten_records he,
      length_records he, h16]
    cases source with
    | none => simp
    | some address =>
      simp only [Option.isSome_some, if_true]
      omega

/-- **A reader of full messages finds the set again**, with the source where one was given. -/
theorem ofFrame_expandedFrame {kind : Kind} {s : CompactSet} (h : s.check kind = .ok ())
    (ht : minTemplateId ≤ s.template) (source : Option Address) :
    FullSet.ofFrame (s.expandedFrame kind source) = .ok (some (s.expandedSet kind source)) := by
  cases kind with
  | template =>
    obtain ⟨hl, hv, hb⟩ := specifiers_of_check h
    have hv' : ∀ f ∈ s.specifiers ++ sourceFields source, f.Valid := by
      intro f hf
      rcases List.mem_append.mp hf with hf | hf
      · exact hv f hf
      · cases source with
        | none => simp [sourceFields] at hf
        | some address =>
          rw [List.mem_singleton.mp hf]
          exact valid_sourceSpecifier
    have hc : (s.specifiers ++ sourceFields source).length ≤ maxLength := by
      have hs : s.count.toNat < 256 := s.count.toNat_lt
      rw [List.length_append, hl, maxLength]
      cases source <;> simp [sourceFields] <;> omega
    have hframe : s.expandedFrame .template source
        = .ofSet .full .template s.template (s.specifiers ++ sourceFields source).length
          ((s.specifiers ++ sourceFields source).flatMap (·.encode)) := by
      rw [List.flatMap_append, ← hb, List.length_append, hl]
      rfl
    rw [hframe]
    exact FullSet.ofFrame_template ht hv' hc
  | data => exact FullSet.ofFrame_data _ _ ht

end CompactSet

/-! ## 2. Whole messages -/

namespace CompactMessage

theorem length_flatMap_expandedFrame {m : CompactMessage} (source : Option Address) :
    ∀ sets : List CompactSet, (∀ s ∈ sets, s.check m.kind = .ok ()) →
      ((sets.map (·.expandedFrame m.kind source)).flatMap Frame.encode).length
        = (sets.map (·.expandedLength m.kind source.isSome)).sum
  | [], _ => rfl
  | s :: sets, h => by
    rw [List.map_cons, List.flatMap_cons, List.length_append, List.map_cons, List.sum_cons,
      CompactSet.length_encode_expandedFrame (h s (by simp)) source,
      length_flatMap_expandedFrame source sets fun s' hs' => h s' (by simp [hs'])]

section Expand

variable {bytes : List UInt8} {m : CompactMessage} (h : parse bytes = .ok m) (buffer : Buffer)
  (x : Exporter) (time : UInt32) (source : Option Address)

include h

theorem expandedLength_eq : m.expandedLength source.isSome
    = Encoding.full.headerLength
      + ((m.sets.map (·.expandedFrame m.kind source)).flatMap Frame.encode).length := by
  obtain ⟨-, -, -, -, hc⟩ := parse_eq_ok h
  rw [expandedLength, total_eq_sum, length_flatMap_expandedFrame source m.sets hc, Nat.add_comm]

/-- **A message whose announced length fits is expanded** into the frames of its sets. -/
theorem expand_ok (hcap : m.expandedLength source.isSome ≤ buffer.capacity)
    (hmax : m.expandedLength source.isSome ≤ maxLength) :
    ∃ buffer', m.expand buffer x time source
        = (.ok (x.message .full m.kind time
            ((m.sets.map (·.expandedFrame m.kind source)).flatMap Frame.encode)), buffer',
          x.advance) ∧
      buffer'.capacity = buffer.capacity := by
  obtain ⟨-, -, -, -, hc⟩ := parse_eq_ok h
  rw [expandedLength_eq h] at hcap hmax
  exact Draft.compose_ok (fun s hs => CompactSet.writes_expand (hc s hs) source) buffer x time
    hcap hmax

/-- **A message that does not fit is not expanded**, and its number is used up. -/
theorem expand_error (hhead : Encoding.full.headerLength ≤ buffer.capacity)
    (hmax : buffer.capacity ≤ maxLength) (hfull : buffer.capacity < m.expandedLength source.isSome) :
    ∃ e buffer', m.expand buffer x time source = (.error e, buffer', x.advance) ∧
      buffer'.capacity = buffer.capacity := by
  obtain ⟨-, -, -, -, hc⟩ := parse_eq_ok h
  rw [expandedLength_eq h] at hfull
  exact Draft.compose_error (fun s hs => CompactSet.writes_expand (hc s hs) source) buffer x time
    hhead hmax hfull

/-- **A message is expanded exactly where its announced length fits**, in the buffer and in the
header. -/
theorem expand_eq_ok_iff {result : List UInt8} :
    (m.expand buffer x time source).1 = .ok result ↔
      result = x.message .full m.kind time
        ((m.sets.map (·.expandedFrame m.kind source)).flatMap Frame.encode) ∧
      m.expandedLength source.isSome ≤ buffer.capacity ∧
      m.expandedLength source.isSome ≤ maxLength := by
  obtain ⟨-, -, -, -, hc⟩ := parse_eq_ok h
  rw [expandedLength_eq h]
  exact Draft.compose_eq_ok_iff (fun s hs => CompactSet.writes_expand (hc s hs) source)
    (fun s hs => CompactSet.appends_expand (hc s hs) source)

/-- **The expanded message is decoded** into one set for each, under the exporter's number. -/
theorem decode_expand (hmax : m.expandedLength source.isSome ≤ maxLength) :
    FullMessage.decode (x.message .full m.kind time
        ((m.sets.map (·.expandedFrame m.kind source)).flatMap Frame.encode))
      = .ok ⟨⟨protocolVersion, UInt16.ofNat (m.expandedLength source.isSome), time, x.sequence,
          x.domain⟩, m.sets.map (·.expandedSet m.kind source)⟩ := by
  obtain ⟨-, -, -, -, hc⟩ := parse_eq_ok h
  have hmap : (m.sets.map (·.expandedFrame m.kind source)).map FullSet.ofFrame
      = (m.sets.map fun s => some (s.expandedSet m.kind source)).map .ok := by
    rw [List.map_map, List.map_map]
    refine List.map_congr_left fun s hs => ?_
    exact CompactSet.ofFrame_expandedFrame (hc s hs) (template_of_mem_sets h hs).1 source
  rw [expandedLength_eq h] at hmax ⊢
  rw [FullMessage.decode_message x m.kind time hmax hmap, List.filterMap_map]
  simp [Encoding.headerLength]

end Expand

/-- **The announced length is exact.**  A message is expanded if and only if its announced length
fits, in the buffer and in the sixteen bits of the header; and then the result is exactly so long,
and says so in its header. -/
theorem expand_iff_room {bytes : List UInt8} {m : CompactMessage} (h : parse bytes = .ok m)
    (buffer : Buffer) (x : Exporter) (time : UInt32) (source : Option Address) :
    ((∃ result, (m.expand buffer x time source).1 = .ok result) ↔
      m.expandedLength source.isSome ≤ min buffer.capacity 65535) ∧
    ∀ result, (m.expand buffer x time source).1 = .ok result →
      result.length = m.expandedLength source.isSome ∧
      Octets.toNat ((result.drop Encoding.full.lengthOffset).take 2) = result.length := by
  refine ⟨⟨?_, ?_⟩, ?_⟩
  · rintro ⟨result, hresult⟩
    obtain ⟨-, hcapacity, hmax⟩ := (expand_eq_ok_iff h buffer x time source).mp hresult
    exact Nat.le_min.mpr ⟨hcapacity, hmax⟩
  · intro hroom
    obtain ⟨hcapacity, hmax⟩ := Nat.le_min.mp hroom
    exact ⟨_, (expand_eq_ok_iff h buffer x time source).mpr ⟨rfl, hcapacity, hmax⟩⟩
  · intro result hresult
    obtain ⟨rfl, -, hmax⟩ := (expand_eq_ok_iff h buffer x time source).mp hresult
    rw [Exporter.announced_message, Exporter.length_message, ← expandedLength_eq h source,
      Octets.toNat_ofNat]
    exact ⟨rfl, Nat.mod_eq_of_lt (Nat.lt_succ_of_le hmax)⟩

/-- Two records of two octets take 56 octets with their source, and no less. -/
theorem expand_iff_room_exact :
    ∃ m : CompactMessage, parse [0xA2, 0, 7, 0, 13, 2, 2, 0, 8, 1, 2, 3, 4] = .ok m ∧
      m.expandedLength true = 56 ∧
      (∃ result, (m.expand (.ofCapacity 56) {} 0 (some .unspecified)).1 = .ok result ∧
        result.length = 56 ∧ Octets.toNat ((result.drop 2).take 2) = 56) ∧
      ¬ ∃ result, (m.expand (.ofCapacity 55) {} 0 (some .unspecified)).1 = .ok result := by
  obtain ⟨m, hm, hkind, hsets⟩ :
      ∃ m, parse [0xA2, 0, 7, 0, 13, 2, 2, 0, 8, 1, 2, 3, 4] = .ok m ∧ m.kind = .data ∧
        m.sets = [⟨258, 2, [1, 2, 3, 4]⟩] :=
    parse_frame ⟨1, 7⟩ ⟨(2, 2), [1, 2, 3, 4]⟩ (by decide) (by decide) (by decide)
  have hlength : m.expandedLength true = 56 := by
    rw [expandedLength, hkind, hsets]
    rfl
  have hroom : ∀ capacity, (∃ result,
      (m.expand (.ofCapacity capacity) {} 0 (some .unspecified)).1 = .ok result) ↔
        56 ≤ min capacity 65535 := by
    intro capacity
    have hiff := (expand_iff_room hm (.ofCapacity capacity) {} 0 (some .unspecified)).1
    rwa [Option.isSome_some, hlength, Buffer.capacity_ofCapacity] at hiff
  obtain ⟨result, hresult⟩ := (hroom 56).mpr (by decide)
  obtain ⟨hlong, hannounced⟩ :=
    (expand_iff_room hm (.ofCapacity 56) {} 0 (some .unspecified)).2 result hresult
  rw [Option.isSome_some, hlength] at hlong
  exact ⟨m, hm, hlength, ⟨result, hresult, hlong, hannounced.trans hlong⟩,
    mt (hroom 55).mp (by decide)⟩

end CompactMessage

end FlowExport

/-
# Compact messages read back

A compact message that is accepted is a header and frames (`parse_eq_ok`), each of whose sets
passes the check of its kind and has an id that is a template's (`template_of_mem_sets`).
Conversely the message composed of such frames is accepted, under the low half of the exporter's
number, and its sets are the ones written (`parse_message`, `ofFrame_ofSet`).

What was checked is read later without any check.  Every set, every record and every specifier that
was announced is handed out (`readers_complete`).
-/
import FlowExport.Proofs.Wire.FieldSpecifier
import FlowExport.Proofs.Wire.Message

namespace FlowExport

/-! ## 1. Sets -/

namespace CompactSet

theorem template_ofFrame (f : Frame) : (ofFrame f).template = templateOfCompact f.lead.1 := rfl

theorem le_template_ofFrame (f : Frame) :
    minTemplateId ≤ (ofFrame f).template ∧ (ofFrame f).template ≤ maxCompactId := by
  have h : f.lead.1.toNat < 256 := f.lead.1.toNat_lt
  rw [template_ofFrame]
  constructor
  · rw [UInt16.le_iff_toNat_le, toNat_templateOfCompact]
    exact Nat.le_add_right 256 _
  · rw [UInt16.le_iff_toNat_le, toNat_templateOfCompact]
    change 256 + f.lead.1.toNat ≤ 511
    omega

/-- **A set is read as it was written.** -/
theorem ofFrame_ofSet {template : UInt16} {count : Nat} (kind : Kind) (body : List UInt8)
    (h : Encoding.compact.Carries template count) :
    ofFrame (Frame.ofSet .compact kind template count body)
      = ⟨template, UInt8.ofNat count, body⟩ := by
  have ht : compactSetId template = .ok (UInt8.ofNat (template.toNat - 256)) := by
    rw [compactSetId, if_pos (h rfl).2]
  have := templateOfCompact_of_compactSetId ht
  cases kind <;> simp [ofFrame, Frame.ofSet, setFront, this]

/-- Records of one width make an even set. -/
theorem check_data {template : UInt16} {width : Nat} {records : List (List UInt8)}
    (hw : 0 < width) (hr : ∀ r ∈ records, r.length = width) (hc : records.length ≤ maxCompactCount) :
    (CompactSet.mk template (UInt8.ofNat records.length) records.flatten).check .data = .ok () := by
  have hn : (UInt8.ofNat records.length).toNat = records.length := by
    rw [UInt8.toNat_ofNat', maxCompactCount] at *
    omega
  have hl := Octets.length_flatten_of_length hr
  have hzero : UInt8.ofNat records.length = 0 ↔ records.length = 0 := by
    rw [← UInt8.toNat_inj, hn]
    rfl
  have heven : (CompactSet.mk template (UInt8.ofNat records.length) records.flatten).isEven
      = true := by
    unfold isEven
    by_cases h0 : records.length = 0
    · have hnil : records = [] := List.length_eq_zero_iff.mp h0
      subst hnil
      rfl
    · have hpos : 0 < records.length * width := Nat.mul_pos (Nat.pos_of_ne_zero h0) hw
      have hne : records.flatten ≠ [] := by
        intro h
        rw [h, List.length_nil] at hl
        omega
      simp only [if_neg (mt hzero.mp h0), hn, hl, Nat.mul_mod_right, Bool.and_eq_true,
        Bool.not_eq_true', beq_self_eq_true, and_true]
      simpa using hne
  simp only [check]
  rw [if_pos heven]

/-- Specifiers that obey the rules make a definition. -/
theorem check_template {template : UInt16} {specifiers : List FieldSpecifier}
    (h : ∀ s ∈ specifiers, s.Valid) (hc : specifiers.length ≤ maxCompactCount) :
    (CompactSet.mk template (UInt8.ofNat specifiers.length)
      (specifiers.flatMap (·.encode))).check .template = .ok () := by
  have hn : (UInt8.ofNat specifiers.length).toNat = specifiers.length := by
    rw [UInt8.toNat_ofNat', maxCompactCount] at *
    omega
  have hread := FieldSpecifier.readMany_flatMap_encode h []
  rw [List.append_nil] at hread
  simp only [check, hn, hread]
  rfl

/-- **The records of a set** are those it was written from. -/
theorem records_flatten {template : UInt16} {width : Nat} {records : List (List UInt8)}
    (hw : 0 < width) (hr : ∀ r ∈ records, r.length = width) (hc : records.length ≤ maxCompactCount) :
    (CompactSet.mk template (UInt8.ofNat records.length) records.flatten).records = records := by
  have hn : (UInt8.ofNat records.length).toNat = records.length := by
    rw [UInt8.toNat_ofNat', maxCompactCount] at *
    omega
  have hl := Octets.length_flatten_of_length hr
  by_cases h0 : records.length = 0
  · have hnil : records = [] := List.length_eq_zero_iff.mp h0
    subst hnil
    simp [CompactSet.records, Octets.pieces, Octets.cut]
  · have hzero : UInt8.ofNat records.length ≠ 0 := by
      intro h
      rw [h] at hn
      exact h0 hn.symm
    have hwidth : (CompactSet.mk template (UInt8.ofNat records.length) records.flatten).recordWidth
        = width := by
      simp only [recordWidth, if_neg hzero, hn, hl]
      exact Nat.mul_div_cancel_left _ (Nat.pos_of_ne_zero h0)
    simp only [CompactSet.records, hwidth, if_neg hzero]
    rw [Nat.max_eq_left hw]
    exact Octets.pieces_flatten hw hr

/-! ## 2. What the check promises -/

theorem isEven_of_check {s : CompactSet} (h : s.check .data = .ok ()) : s.isEven = true := by
  simp only [check] at h
  split at h
  · assumption
  · simp at h

theorem records_eq_nil {s : CompactSet} (hc : s.count = 0) : s.records = [] := by
  simp [records, hc, Octets.pieces, Octets.cut]

section Even

variable {s : CompactSet} (h : s.isEven = true)

include h

theorem body_eq_nil (hc : s.count = 0) : s.body = [] := by
  simpa [isEven, hc] using h

theorem body_ne_nil (hc : s.count ≠ 0) : s.body ≠ [] ∧ s.body.length % s.count.toNat = 0 := by
  rw [isEven, if_neg hc, Bool.and_eq_true, Bool.not_eq_true', List.isEmpty_eq_false_iff,
    beq_iff_eq] at h
  exact h

theorem count_mul_recordWidth : s.count.toNat * s.recordWidth = s.body.length := by
  by_cases hc : s.count = 0
  · rw [body_eq_nil h hc, hc]
    simp
  · have hdvd := Nat.dvd_of_mod_eq_zero (body_ne_nil h hc).2
    rw [recordWidth, if_neg hc, Nat.mul_div_cancel' hdvd]

theorem recordWidth_pos (hc : s.count ≠ 0) : 0 < s.recordWidth := by
  refine Nat.pos_of_ne_zero fun hw => (body_ne_nil h hc).1 ?_
  rw [← List.length_eq_zero_iff, ← count_mul_recordWidth h, hw, Nat.mul_zero]

/-- The records of a set with any are cut by its own record width. -/
theorem records_eq_pieces (hc : s.count ≠ 0) :
    s.records = Octets.pieces s.recordWidth s.body := by
  rw [records, if_neg hc, Nat.max_eq_left (recordWidth_pos h hc)]

/-- The records of a set are of its record width. -/
theorem length_of_mem_records {r : List UInt8} (hr : r ∈ s.records) :
    r.length = s.recordWidth := by
  by_cases hc : s.count = 0
  · rw [records_eq_nil hc] at hr
    exact absurd hr List.not_mem_nil
  · rw [records_eq_pieces h hc] at hr
    exact Octets.length_of_mem_pieces hr

theorem length_records : s.records.length = s.count.toNat := by
  by_cases hc : s.count = 0
  · rw [records_eq_nil hc, hc]
    rfl
  · rw [records_eq_pieces h hc, Octets.pieces, Octets.length_cut, ← count_mul_recordWidth h,
      Nat.mul_div_cancel _ (recordWidth_pos h hc)]

theorem flatten_records : s.records.flatten = s.body := by
  by_cases hc : s.count = 0
  · rw [records_eq_nil hc, body_eq_nil h hc]
    rfl
  · rw [records_eq_pieces h hc]
    refine Octets.flatten_pieces ?_
    rw [← count_mul_recordWidth h]
    exact Nat.dvd_mul_left _ _

end Even

/-- **The body of a definition** is as many specifiers as are announced. -/
theorem specifiers_of_check {s : CompactSet} (h : s.check .template = .ok ()) :
    s.specifiers.length = s.count.toNat ∧ (∀ f ∈ s.specifiers, f.Valid) ∧
      s.body = s.specifiers.flatMap (·.encode) := by
  simp only [check] at h
  split at h
  · simp at h
  · rename_i specifiers trailing hr
    split at h
    · rename_i ht
      obtain ⟨hl, hv, hb⟩ := FieldSpecifier.eq_flatMap_encode_of_readMany hr
      rw [List.isEmpty_iff.mp ht, List.append_nil] at hb
      have hs : s.specifiers = specifiers := by
        rw [CompactSet.specifiers, hb, FieldSpecifier.readAll_flatMap_encode hv]
      rw [hs]
      exact ⟨hl, hv, hb⟩
    · simp at h

end CompactSet

/-! ## 3. Messages -/

namespace CompactMessage

theorem sets_mk (header : CompactHeader) {frames : List Frame}
    (h : ∀ f ∈ frames, f.encode.length ≤ maxLength) :
    sets ⟨header, frames.flatMap Frame.encode⟩ = frames.map CompactSet.ofFrame := by
  rw [sets, Frame.split_flatMap_encode h]

/-- **What is accepted is a header and frames**, whose sets all pass the check. -/
theorem parse_eq_ok {bytes : List UInt8} {m : CompactMessage} (h : parse bytes = .ok m) :
    ∃ frames : List Frame, m.payload = frames.flatMap Frame.encode ∧
      (∀ f ∈ frames, f.encode.length ≤ maxLength) ∧
      m.sets = frames.map CompactSet.ofFrame ∧ ∀ s ∈ m.sets, s.check m.kind = .ok () := by
  simp only [parse, bind, Except.bind] at h
  split at h
  · simp at h
  · rename_i header hheader
    split at h
    · simp at h
    · rename_i values hwalk
      simp only [pure, Except.pure, Except.ok.injEq] at h
      subst h
      obtain ⟨frames, hp, hs, hm⟩ := Frame.walk_eq_ok_iff.mp hwalk
      refine ⟨frames, hp, hs, by rw [← sets_mk header hs, hp], ?_⟩
      intro s hsm
      rw [hp, sets_mk header hs] at hsm
      obtain ⟨f, hf, rfl⟩ := List.mem_map.mp hsm
      have hv : (CompactSet.ofFrame f).check header.kind ∈ values.map Except.ok := by
        rw [← hm]
        exact List.mem_map.mpr ⟨f, hf, rfl⟩
      obtain ⟨u, -, hu⟩ := List.mem_map.mp hv
      exact hu.symm

theorem template_of_mem_sets {bytes : List UInt8} {m : CompactMessage} (h : parse bytes = .ok m)
    {s : CompactSet} (hs : s ∈ m.sets) : minTemplateId ≤ s.template ∧ s.template ≤ maxCompactId := by
  obtain ⟨frames, -, -, hsets, -⟩ := parse_eq_ok h
  rw [hsets] at hs
  obtain ⟨f, -, rfl⟩ := List.mem_map.mp hs
  exact CompactSet.le_template_ofFrame f

theorem kind_first (kind : Kind) :
    (compactNibble * 16 + kind.code) / 16 = compactNibble ∧
      Kind.ofCode? ((compactNibble * 16 + kind.code) % 16) = some kind := by
  cases kind <;> decide

/-- **A message composed of frames is accepted**, with the frames it was composed of. -/
theorem parse_message (x : Exporter) (kind : Kind) (time : UInt32) {frames : List Frame}
    (hl : Encoding.compact.headerLength + (frames.flatMap Frame.encode).length ≤ maxLength)
    (hs : ∀ f ∈ frames, (CompactSet.ofFrame f).check kind = .ok ()) :
    parse (x.message .compact kind time (frames.flatMap Frame.encode))
      = .ok ⟨⟨kind, UInt16.ofNat x.sequence.toNat,
          UInt16.ofNat (5 + (frames.flatMap Frame.encode).length)⟩,
        frames.flatMap Frame.encode⟩ := by
  have hsmall := Frame.length_le_of_flatMap hl
  generalize hbody : frames.flatMap Frame.encode = body at hl ⊢
  obtain ⟨s₁, s₀, hseq, hseqw⟩ := Octets.ofNat_two x.sequence.toNat
  obtain ⟨l₁, l₀, hlen, hlenw⟩ := Octets.ofNat_two (5 + body.length)
  rw [Encoding.headerLength, maxLength] at hl
  have hlw : (Octets.word16 l₁ l₀).toNat = 5 + body.length := by
    rw [hlenw, UInt16.toNat_ofNat']
    omega
  have hm : x.message .compact kind time body
      = (compactNibble * 16 + kind.code) :: s₁ :: s₀ :: l₁ :: l₀ :: body := by
    rw [Exporter.message, hseq, hlen]
    rfl
  obtain ⟨hk₁, hk₂⟩ := kind_first kind
  have hread : CompactHeader.read (x.message .compact kind time body)
      = .ok ⟨kind, UInt16.ofNat x.sequence.toNat, UInt16.ofNat (5 + body.length)⟩ := by
    rw [hm]
    simp only [CompactHeader.read, hk₁, hk₂, hlw, ne_eq, not_true_eq_false, if_false,
      List.length_cons, Encoding.headerLength]
    rw [if_neg (by omega), hseqw, hlenw]
  have hwalk : Frame.walk (fun lead => templateOfCompact lead.1)
      (fun f => (CompactSet.ofFrame f).check kind) body = .ok (frames.map fun _ => ()) := by
    rw [← hbody]
    refine Frame.walk_eq_ok_iff.mpr ⟨_, rfl, hsmall, ?_⟩
    rw [List.map_map]
    exact List.map_congr_left hs
  have hcut : ((x.message .compact kind time body).take (5 + body.length)).drop 5 = body := by
    rw [hm, List.take_of_length_le (by simp only [List.length_cons]; omega)]
    rfl
  simp only [parse, hread, bind, Except.bind]
  rw [← hlenw, hlw, Encoding.headerLength, hcut, hwalk]
  rfl

/-- A message of one frame has the set in it. -/
theorem parse_frame (x : Exporter) {kind : Kind} (f : Frame) {bytes : List UInt8}
    (hbytes : x.message .compact kind 0 f.encode = bytes) (hl : bytes.length ≤ maxLength)
    (hs : (CompactSet.ofFrame f).check kind = .ok ()) :
    ∃ m, parse bytes = .ok m ∧ m.kind = kind ∧ m.sets = [CompactSet.ofFrame f] := by
  subst hbytes
  rw [← List.flatMap_singleton Frame.encode f] at hl ⊢
  rw [Exporter.length_message] at hl
  have hall : ∀ g ∈ [f], (CompactSet.ofFrame g).check kind = .ok () := by
    intro g hg
    rw [List.mem_singleton.mp hg]
    exact hs
  exact ⟨_, parse_message x kind 0 hl hall, rfl, sets_mk _ (Frame.length_le_of_flatMap hl)⟩

/-! ## 4. What is handed out -/

/-- **The sets make up the payload**, to the last octet. -/
theorem length_payload {bytes : List UInt8} {m : CompactMessage} (h : parse bytes = .ok m) :
    (m.sets.map fun s => Frame.headerLength + s.body.length).sum = m.payload.length := by
  obtain ⟨frames, hpayload, -, hsets, -⟩ := parse_eq_ok h
  rw [hpayload, hsets, List.length_flatMap, List.map_map]
  exact congrArg List.sum (List.map_congr_left fun f _ => f.length_encode.symm)

/-- **What a checked message hands out is all there is.**  Nothing is checked again when its sets
are read, so a reader that comes to an end early would do so unnoticed; none does.  The sets take up
the payload to the last octet.  A set of records hands out as many as it announces, each of the
width that its body divides into, and they make up the body; those of all sets are as many as the
message counts.  A set of specifiers hands out as many as it announces, each of which obeys the
rules, and they are written as the body again. -/
theorem readers_complete {bytes : List UInt8} {m : CompactMessage} (h : parse bytes = .ok m) :
    (m.sets.map fun s => Frame.headerLength + s.body.length).sum = m.payload.length ∧
    (m.kind = .data →
      (∀ s ∈ m.sets, s.records.length = s.count.toNat ∧
        (∀ r ∈ s.records, r.length = s.recordWidth) ∧ s.records.flatten = s.body) ∧
      m.recordCount = (m.sets.map (·.count.toNat)).sum ∧
      m.recordCount = (m.sets.flatMap (·.records)).length) ∧
    (m.kind = .template → ∀ s ∈ m.sets,
      s.specifiers.length = s.count.toNat ∧
      (∀ f ∈ s.specifiers, FieldSpecifier.make f.id f.size f.enterprise = .ok f) ∧
      ∀ b : Buffer, b.length + s.body.length ≤ b.capacity →
        ∃ b', FieldSpecifier.writeMany s.specifiers b = (.ok (), b') ∧
          b'.toList = b.toList ++ s.body) := by
  obtain ⟨-, -, -, -, hcheck⟩ := parse_eq_ok h
  refine ⟨length_payload h, ?_, ?_⟩
  · intro hkind
    rw [hkind] at hcheck
    have heven : ∀ s ∈ m.sets, s.isEven = true :=
      fun s hs => CompactSet.isEven_of_check (hcheck s hs)
    have hcount : m.recordCount = (m.sets.map (·.count.toNat)).sum := by
      rw [recordCount, hkind, total_eq_sum]
    refine ⟨?_, hcount, ?_⟩
    · intro s hs
      refine ⟨CompactSet.length_records (heven s hs), ?_, CompactSet.flatten_records (heven s hs)⟩
      intro r hr
      exact CompactSet.length_of_mem_records (heven s hs) hr
    · rw [hcount, List.length_flatMap]
      exact congrArg List.sum (List.map_congr_left fun s hs =>
        (CompactSet.length_records (heven s hs)).symm)
  · intro hkind s hs
    rw [hkind] at hcheck
    obtain ⟨hlength, hvalid, hbody⟩ := CompactSet.specifiers_of_check (hcheck s hs)
    refine ⟨hlength, ?_, ?_⟩
    · intro f hf
      exact FieldSpecifier.make_eq_ok_iff.mpr ⟨rfl, hvalid f hf⟩
    · intro b hroom
      rw [hbody] at hroom ⊢
      exact FieldSpecifier.writeMany_ok s.specifiers hroom

/-- A set of two records, and one of two specifiers, of which one has the longer form. -/
theorem readers_complete_eachKind :
    let records : CompactSet := ⟨258, 2, [1, 2, 3, 4]⟩
    let definition : CompactSet := ⟨256, 2, [0, 1, 0, 4, 128, 3, 0, 16, 0, 0, 81, 27]⟩
    (∃ m, parse [0xA2, 0, 7, 0, 13, 2, 2, 0, 8, 1, 2, 3, 4] = .ok m ∧ m.sets = [records] ∧
        records.records = [[1, 2], [3, 4]] ∧ m.recordCount = 2) ∧
      ∃ m, parse [0xA1, 0, 7, 0, 21, 0, 2, 0, 16, 0, 1, 0, 4, 128, 3, 0, 16, 0, 0, 81, 27]
          = .ok m ∧ m.sets = [definition] ∧ definition.specifiers.length = 2 ∧
        ∃ b', FieldSpecifier.writeMany definition.specifiers (.ofCapacity 12) = (.ok (), b') ∧
          b'.toList = definition.body := by
  intro records definition
  obtain ⟨m, hm, hkind, hsets⟩ :
      ∃ m, parse [0xA2, 0, 7, 0, 13, 2, 2, 0, 8, 1, 2, 3, 4] = .ok m ∧ m.kind = .data ∧
        m.sets = [records] :=
    parse_frame ⟨1, 7⟩ ⟨(2, 2), records.body⟩ (by decide) (by decide) (by decide)
  obtain ⟨m', hm', hkind', hsets'⟩ :
      ∃ m, parse [0xA1, 0, 7, 0, 21, 0, 2, 0, 16, 0, 1, 0, 4, 128, 3, 0, 16, 0, 0, 81, 27] = .ok m ∧
        m.kind = .template ∧ m.sets = [definition] :=
    parse_frame ⟨1, 7⟩ ⟨(0, 2), definition.body⟩ (by decide) (by decide) (by decide)
  obtain ⟨-, hcount, -⟩ := (readers_complete hm).2.1 hkind
  obtain ⟨hlength, -, hwritten⟩ :=
    (readers_complete hm').2.2 hkind' definition (hsets' ▸ List.mem_singleton_self _)
  obtain ⟨b', hb, hl⟩ := hwritten (.ofCapacity 12) (by rw [Buffer.capacity_ofCapacity]; decide)
  rw [hsets] at hcount
  exact ⟨⟨m, hm, hsets, by decide, hcount⟩, m', hm', hsets', hlength, b', hb, by rw [hl]; rfl⟩

end CompactMessage

end FlowExport

/-
# Full messages read back

The full message composed of frames is decoded into the sets that these frames are
(`decode_message`): a frame of a data set into its id and body (`ofFrame_data`), the frame of a
definition into one template with the specifiers it was written from (`ofFrame_template`).
-/
import FlowExport.Proofs.Wire.Message
import FlowExport.Proofs.Wire.TemplateRecord

namespace FlowExport

namespace FullSet

/-- **A data set** is decoded into its id and its body, octet for octet. -/
theorem ofFrame_data {template : UInt16} (count : Nat) (body : List UInt8)
    (h : minTemplateId ≤ template) :
    ofFrame (Frame.ofSet .full .data template count body) = .ok (some (.data template body)) := by
  have hne : template ≠ templateSetId := by
    rintro rfl
    exact absurd h (by decide)
  simp only [ofFrame, Frame.ofSet, setFront, Octets.word16_halves, List.nil_append]
  rw [if_neg hne, if_pos h]

/-- **A definition** is decoded into one template with the specifiers it was written from. -/
theorem ofFrame_template {template : UInt16} {specifiers : List FieldSpecifier}
    (h : minTemplateId ≤ template) (hv : ∀ s ∈ specifiers, s.Valid)
    (hc : specifiers.length ≤ maxLength) :
    ofFrame (Frame.ofSet .full .template template specifiers.length
        (specifiers.flatMap (·.encode)))
      = .ok (some (.templates [⟨template, specifiers⟩])) := by
  have hdefines : TemplateRecord.Defines (setFront .full .template template specifiers.length
      ++ specifiers.flatMap (·.encode)) [⟨template, specifiers⟩] := by
    refine ⟨fun t ht => ?_, [], by decide, ?_⟩
    · rw [List.mem_singleton.mp ht]
      exact ⟨h, Nat.lt_succ_of_le hc, hv⟩
    · rw [List.flatMap_cons, List.flatMap_nil, List.append_nil, List.append_nil]
      rfl
  have hid : Octets.word16 0 2 = templateSetId := by decide
  simp only [ofFrame, Frame.ofSet, hid, if_true, TemplateRecord.readAll_eq_ok_iff.mpr hdefines]
  rfl

end FullSet

namespace FullMessage

/-- **A message composed of frames is decoded** into what its frames are. -/
theorem decode_message (x : Exporter) (kind : Kind) (time : UInt32) {frames : List Frame}
    {sets : List (Option FullSet)}
    (hl : Encoding.full.headerLength + (frames.flatMap Frame.encode).length ≤ maxLength)
    (hs : frames.map FullSet.ofFrame = sets.map .ok) :
    decode (x.message .full kind time (frames.flatMap Frame.encode))
      = .ok ⟨⟨protocolVersion, UInt16.ofNat (16 + (frames.flatMap Frame.encode).length), time,
          x.sequence, x.domain⟩, sets.filterMap id⟩ := by
  have hsmall := Frame.length_le_of_flatMap hl
  have hwalk : Frame.walk (fun lead => Octets.word16 lead.1 lead.2) FullSet.ofFrame
      (frames.flatMap Frame.encode) = .ok sets := Frame.walk_eq_ok_iff.mpr ⟨_, rfl, hsmall, hs⟩
  generalize frames.flatMap Frame.encode = body at hl hwalk ⊢
  obtain ⟨v₁, v₀, hv, hvw⟩ := Octets.ofNat_two protocolVersion.toNat
  obtain ⟨l₁, l₀, hlen, hlenw⟩ := Octets.ofNat_two (16 + body.length)
  obtain ⟨t₃, t₂, t₁, t₀, ht, htw⟩ := Octets.ofNat_four time.toNat
  obtain ⟨s₃, s₂, s₁, s₀, hq, hqw⟩ := Octets.ofNat_four x.sequence.toNat
  obtain ⟨d₃, d₂, d₁, d₀, hd, hdw⟩ := Octets.ofNat_four x.domain.toNat
  rw [UInt16.ofNat_toNat] at hvw
  rw [UInt32.ofNat_toNat] at htw hqw hdw
  rw [Encoding.headerLength, maxLength] at hl
  have hlw : (Octets.word16 l₁ l₀).toNat = 16 + body.length := by
    rw [hlenw, UInt16.toNat_ofNat']
    omega
  have hm : x.message .full kind time body
      = v₁ :: v₀ :: l₁ :: l₀ :: t₃ :: t₂ :: t₁ :: t₀ :: s₃ :: s₂ :: s₁ :: s₀
        :: d₃ :: d₂ :: d₁ :: d₀ :: body := by
    rw [Exporter.message, hv, hlen, ht, hq, hd]
    rfl
  have hread : FullHeader.read (x.message .full kind time body)
      = .ok ⟨protocolVersion, UInt16.ofNat (16 + body.length), time, x.sequence, x.domain⟩ := by
    rw [hm]
    simp only [FullHeader.read, hvw, hlw, ne_eq, not_true_eq_false, if_false, List.length_cons,
      Encoding.headerLength, htw, hqw, hdw]
    rw [if_neg (by omega), hlenw]
  have hcut : ((x.message .full kind time body).take (16 + body.length)).drop 16 = body := by
    rw [hm, List.take_of_length_le (by simp only [List.length_cons]; omega)]
    rfl
  simp only [decode, hread, bind, Except.bind]
  rw [← hlenw, hlw, Encoding.headerLength, hcut, hwalk]
  rfl

end FullMessage

end FlowExport

/-
# Whole messages

`Exporter.message` is a message as octets: the header with its length, and the body.  A message
composed of steps that write frames is `Exporter.message` of these frames where it fits
(`compose_ok`); where it does not, composing fails but the exporter's number is claimed all the
same (`compose_error`).  Readers of either encoding find in it the exporter's number and the
frames that were written (`CompactMessage.parse_message`, `FullMessage.decode_message`).
-/
import FlowExport.Proofs.Wire.Draft
import FlowExport.Wire.FullMessage

namespace FlowExport

/-! ## 1. Messages as octets -/

/-- **A message as octets**: its header, which announces its length, and its body. -/
def Exporter.message (x : Exporter) (encoding : Encoding) (kind : Kind) (time : UInt32)
    (body : List UInt8) : List UInt8 :=
  match encoding with
  | .full =>
    Octets.ofNat 2 protocolVersion.toNat ++ Octets.ofNat 2 (16 + body.length)
      ++ Octets.ofNat 4 time.toNat ++ Octets.ofNat 4 x.sequence.toNat
      ++ Octets.ofNat 4 x.domain.toNat ++ body
  | .compact =>
    [compactNibble * 16 + kind.code] ++ Octets.ofNat 2 x.sequence.toNat
      ++ Octets.ofNat 2 (5 + body.length) ++ body

@[simp] theorem Exporter.length_message (x : Exporter) (encoding : Encoding) (kind : Kind)
    (time : UInt32) (body : List UInt8) :
    (x.message encoding kind time body).length = encoding.headerLength + body.length := by
  cases encoding <;> simp [message, Encoding.headerLength] <;> omega

/-- **A message announces its own length**, as far as two octets can. -/
theorem Exporter.announced_message (x : Exporter) (encoding : Encoding) (kind : Kind)
    (time : UInt32) (body : List UInt8) :
    ((x.message encoding kind time body).drop encoding.lengthOffset).take 2
      = Octets.ofNat 2 (encoding.headerLength + body.length) := by
  cases encoding with
  | full =>
    have hfront : (Octets.ofNat 2 protocolVersion.toNat).length = Encoding.full.lengthOffset :=
      Octets.length_ofNat 2 _
    simp only [message, List.append_assoc]
    rw [List.drop_left' hfront, List.take_left' (Octets.length_ofNat 2 _)]
    rfl
  | compact =>
    have hfront : ([compactNibble * 16 + kind.code] ++ Octets.ofNat 2 x.sequence.toNat).length
        = Encoding.compact.lengthOffset :=
      congrArg (· + 1) (Octets.length_ofNat 2 _)
    simp only [message]
    rw [List.append_assoc _ _ body, List.drop_left' hfront,
      List.take_left' (Octets.length_ofNat 2 _)]
    rfl

/-- The frames of a message are no longer than the message. -/
theorem Frame.length_le_of_flatMap {frames : List Frame} {header : Nat}
    (h : header + (frames.flatMap Frame.encode).length ≤ maxLength) :
    ∀ f ∈ frames, f.encode.length ≤ maxLength := by
  intro f hf
  obtain ⟨before, after, rfl⟩ := List.append_of_mem hf
  simp only [List.flatMap_append, List.flatMap_cons, List.length_append] at h
  omega

namespace Draft

theorem length_headerChunks (x : Exporter) (time : UInt32) (kind : Kind) (encoding : Encoding) :
    (headerChunks x time kind encoding).flatten.length = encoding.headerLength := by
  cases encoding <;> simp [headerChunks, Encoding.headerLength]

theorem begin_ok {buffer : Buffer} (x : Exporter) {encoding : Encoding} (kind : Kind)
    (time : UInt32) (h : encoding.headerLength ≤ buffer.capacity) :
    ∃ d, begin buffer x encoding kind time = (.ok (), d, x.advance) ∧
      d.buffer.toList = (headerChunks x time kind encoding).flatten ∧
      d.buffer.capacity = buffer.capacity ∧ d.encoding = encoding ∧ d.kind = kind := by
  obtain ⟨b, hb, hl, hc⟩ := Buffer.appendAll_ok (b := buffer.clear)
    (headerChunks x time kind encoding)
    (by rw [length_headerChunks, Buffer.length_clear, Buffer.capacity_clear]; omega)
  refine ⟨⟨b, encoding, kind, x.sequence, 0, 0⟩, by simp only [begin, hb], ?_, hc, rfl, rfl⟩
  rw [hl, Buffer.toList_clear, List.nil_append]

/-- A header that does not fit claims no number. -/
theorem begin_error {buffer : Buffer} (x : Exporter) {encoding : Encoding} (kind : Kind)
    (time : UInt32) (h : buffer.capacity < encoding.headerLength) :
    ∃ e d, begin buffer x encoding kind time = (.error e, d, x) ∧
      d.buffer.capacity = buffer.capacity := by
  obtain ⟨e, b, hb, -, hc⟩ := Buffer.appendAll_error (b := buffer.clear)
    (headerChunks x time kind encoding)
    (by rw [length_headerChunks, Buffer.length_clear, Buffer.capacity_clear]; omega)
  exact ⟨e, ⟨b, encoding, kind, x.sequence, 0, 0⟩, by simp only [begin, hb], hc⟩

/-- **Finishing** puts the length of the message in place of the zero. -/
theorem finish_ok {d : Draft} (x : Exporter) (time : UInt32) (body : List UInt8)
    (hd : d.buffer.toList = (headerChunks x time d.kind d.encoding).flatten ++ body)
    (h : d.encoding.headerLength + body.length ≤ maxLength) :
    ∃ d', d.finish = (.ok (x.message d.encoding d.kind time body), d') ∧
      d'.buffer.capacity = d.buffer.capacity := by
  have hlen : d.buffer.length = d.encoding.headerLength + body.length := by
    rw [← Buffer.length_toList, hd, List.length_append, length_headerChunks]
  have hoff : d.encoding.lengthOffset + 2 ≤ d.encoding.headerLength := by
    cases d.encoding <;> decide
  obtain ⟨b, hp, hb, hc⟩ := Buffer.patch_ok (b := d.buffer) d.encoding.lengthOffset
    (Octets.ofNat 2 d.buffer.length) (by rw [Octets.length_ofNat]; omega)
  refine ⟨{ d with buffer := b }, ?_, hc⟩
  have hm : b.toList = x.message d.encoding d.kind time body := by
    rw [hb, hd, hlen]
    cases d.encoding <;> simp [Encoding.lengthOffset, headerChunks, Exporter.message,
      Octets.ofNat, Encoding.headerLength]
  simp only [finish]
  rw [if_neg (by omega), hp, ← hm]

/-! ## 2. Many frames -/

section Fill

variable {ι : Type*} {encoding : Encoding} {kind : Kind} {step : ι → Step Unit}
  {frame : ι → Frame} {records : ι → Nat}

theorem fillAll_ok {xs : List ι} (hw : ∀ x ∈ xs, Writes encoding kind (step x) () (frame x)
    (records x)) {d : Draft} (he : d.encoding = encoding) (hk : d.kind = kind)
    (hl : ∀ x ∈ xs, (frame x).encode.length ≤ maxLength)
    (hroom : d.buffer.length + ((xs.map frame).flatMap Frame.encode).length
      ≤ d.buffer.capacity) :
    ∃ d', fillAll (xs.map step) d = (.ok (), d') ∧
      Extends d d' ((xs.map frame).flatMap Frame.encode) xs.length (xs.map records).sum := by
  induction xs generalizing d with
  | nil => exact ⟨d, rfl, .refl d⟩
  | cons x xs ih =>
    rw [List.map_cons, List.flatMap_cons, List.length_append] at hroom
    obtain ⟨d₁, hs, h₁⟩ := (hw x (by simp)).ok d he hk (hl x (by simp)) (by omega)
    have hlen := h₁.length
    obtain ⟨d₂, hf, h₂⟩ := ih (fun y hy => hw y (by simp [hy])) (d := d₁)
      (h₁.encoding.trans he) (h₁.kind.trans hk) (fun y hy => hl y (by simp [hy]))
      (by rw [h₁.capacity]; omega)
    refine ⟨d₂, by rw [List.map_cons, fillAll, hs]; exact hf, ?_⟩
    have h := h₁.trans h₂
    rw [Nat.add_comm 1] at h
    simpa using h

/-- **Frames that do not fit together** stop at one of them. -/
theorem fillAll_error {xs : List ι} (hw : ∀ x ∈ xs, Writes encoding kind (step x) () (frame x)
    (records x)) {d : Draft} (he : d.encoding = encoding) (hk : d.kind = kind)
    (hcap : d.buffer.capacity ≤ maxLength)
    (hfull : d.buffer.capacity
      < d.buffer.length + ((xs.map frame).flatMap Frame.encode).length) :
    ∃ e d', fillAll (xs.map step) d = (.error e, d') ∧
      d'.buffer.capacity = d.buffer.capacity := by
  induction xs generalizing d with
  | nil =>
    have := d.buffer.length_le_capacity
    simp only [List.map_nil, List.flatMap_nil, List.length_nil] at hfull
    omega
  | cons x xs ih =>
    rw [List.map_cons, List.flatMap_cons, List.length_append] at hfull
    rcases Nat.lt_or_ge d.buffer.capacity (d.buffer.length + (frame x).encode.length) with hx | hx
    · obtain ⟨e, d₁, hs, h₁⟩ := (hw x (by simp)).error d he hk hx
      exact ⟨e, d₁, by rw [List.map_cons, fillAll, hs], h₁.capacity⟩
    · obtain ⟨d₁, hs, h₁⟩ := (hw x (by simp)).ok d he hk (by omega) hx
      have hlen := h₁.length
      obtain ⟨e, d₂, hf, h₂⟩ := ih (fun y hy => hw y (by simp [hy])) (d := d₁)
        (h₁.encoding.trans he) (h₁.kind.trans hk) (by rw [h₁.capacity]; exact hcap)
        (by rw [h₁.capacity]; omega)
      exact ⟨e, d₂, by rw [List.map_cons, fillAll, hs]; exact hf, h₂.trans h₁.capacity⟩

/-- **A message that fits is composed**: it is the header and the frames, in order. -/
theorem compose_ok {xs : List ι} (hw : ∀ x ∈ xs, Writes encoding kind (step x) () (frame x)
    (records x)) (buffer : Buffer) (x : Exporter) (time : UInt32)
    (hcap : encoding.headerLength + ((xs.map frame).flatMap Frame.encode).length
      ≤ buffer.capacity)
    (hmax : encoding.headerLength + ((xs.map frame).flatMap Frame.encode).length ≤ maxLength) :
    ∃ buffer', compose buffer x encoding kind time (fillAll (xs.map step))
        = (.ok (x.message encoding kind time ((xs.map frame).flatMap Frame.encode)), buffer',
          x.advance) ∧
      buffer'.capacity = buffer.capacity := by
  obtain ⟨d, hb, hl, hc, he, hk⟩ := begin_ok x kind time (Nat.le_trans (Nat.le_add_right _ _) hcap)
  have hlen : d.buffer.length = encoding.headerLength := by
    rw [← Buffer.length_toList, hl, length_headerChunks]
  obtain ⟨d₁, hf, h₁⟩ := fillAll_ok hw he hk
    (fun y hy => Frame.length_le_of_flatMap hmax _ (List.mem_map.mpr ⟨y, hy, rfl⟩))
    (by rw [hlen, hc]; exact hcap)
  obtain ⟨d₂, hfin, hc₂⟩ := finish_ok (d := d₁) x time
    ((xs.map frame).flatMap Frame.encode)
    (by rw [h₁.toList, hl, h₁.encoding, h₁.kind, he, hk]) (by rw [h₁.encoding, he]; exact hmax)
  refine ⟨d₂.buffer, ?_, by rw [hc₂, h₁.capacity, hc]⟩
  simp only [compose, hb, hf, hfin]
  rw [h₁.encoding, h₁.kind, he, hk]

/-- **A message that does not fit is not composed**, but once its header stands, the number is
claimed. -/
theorem compose_error {xs : List ι} (hw : ∀ x ∈ xs, Writes encoding kind (step x) () (frame x)
    (records x)) (buffer : Buffer) (x : Exporter) (time : UInt32)
    (hhead : encoding.headerLength ≤ buffer.capacity) (hmax : buffer.capacity ≤ maxLength)
    (hfull : buffer.capacity
      < encoding.headerLength + ((xs.map frame).flatMap Frame.encode).length) :
    ∃ e buffer', compose buffer x encoding kind time (fillAll (xs.map step))
        = (.error e, buffer', x.advance) ∧
      buffer'.capacity = buffer.capacity := by
  obtain ⟨d, hb, hl, hc, he, hk⟩ := begin_ok x kind time hhead
  have hlen : d.buffer.length = encoding.headerLength := by
    rw [← Buffer.length_toList, hl, length_headerChunks]
  obtain ⟨e, d₁, hf, hc₁⟩ := fillAll_error hw he hk (by rw [hc]; exact hmax)
    (by rw [hlen, hc]; exact hfull)
  exact ⟨e, d₁.buffer, by simp only [compose, hb, hf], hc₁.trans hc⟩

end Fill

end Draft

end FlowExport

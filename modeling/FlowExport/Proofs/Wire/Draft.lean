/-
# What the operations on a draft write

Every set of a message, in either encoding, is one `Frame` (`Frame.ofSet`).  An operation that
adds a set either appends exactly the octets of its frame or, where there is no room for them,
leaves the content as it was: that is `Writes`, proved here for sets of encoded octets
(`writes_addPieces`), of definitions (`writes_addTemplate`) and of records (`writes_addData`).

From it, `compose_ok` and `compose_error` say of a whole message when it is written and what it
then is: header and length, followed by the frames.  `compose_error` also says that the number of
a message that overflows stays claimed.
-/
import FlowExport.Proofs.Wire.FieldSpecifier
import FlowExport.Proofs.Wire.Frame
import FlowExport.Wire.Draft

namespace FlowExport

/-! ## 1. The frame of a set -/

/-- The octets that a set header has behind its length: those of a full template set. -/
def setFront (encoding : Encoding) (kind : Kind) (template : UInt16) (count : Nat) :
    List UInt8 :=
  match encoding, kind with
  | .full, .template => Octets.ofNat 2 template.toNat ++ Octets.ofNat 2 count
  | _, _ => []

/-- **The frame that a set is written as.** -/
def Frame.ofSet (encoding : Encoding) (kind : Kind) (template : UInt16) (count : Nat)
    (body : List UInt8) : Frame :=
  let lead : UInt8 × UInt8 :=
    match encoding, kind with
    | .full, .template => (0, 2)
    | .full, .data => (UInt8.ofNat (template.toNat / 256), UInt8.ofNat template.toNat)
    | .compact, _ => (UInt8.ofNat (template.toNat - 256), UInt8.ofNat count)
  ⟨lead, setFront encoding kind template count ++ body⟩

/-- **A frame that is not closed yet**: its length is still zero. -/
def Frame.opened (f : Frame) : List UInt8 :=
  [f.lead.1, f.lead.2] ++ Octets.ofNat 2 0 ++ f.body

/-- **Whether an encoding can name a set**: a compact one has an octet for the count and an octet
for the id. -/
def Encoding.Carries (encoding : Encoding) (template : UInt16) (count : Nat) : Prop :=
  encoding = .compact → count ≤ maxCompactCount ∧ minTemplateId ≤ template ∧ template ≤ maxCompactId

theorem Frame.length_opened (f : Frame) : f.opened.length = f.encode.length := by
  simp [opened, encode]

theorem body_ofSet (encoding : Encoding) (kind : Kind) (template : UInt16) (count : Nat)
    (body : List UInt8) : (Frame.ofSet encoding kind template count body).body
      = setFront encoding kind template count ++ body := rfl

/-- The octets of a set in front of its body. -/
theorem length_setFront (encoding : Encoding) (kind : Kind) (template : UInt16) (count : Nat) :
    Frame.headerLength + (setFront encoding kind template count).length
      = match kind with
        | .template => encoding.templateSetHeaderLength
        | .data => encoding.setHeaderLength := by
  cases encoding <;> cases kind <;> rfl

theorem length_encode_ofSet (encoding : Encoding) (kind : Kind) (template : UInt16) (count : Nat)
    (body : List UInt8) :
    (Frame.ofSet encoding kind template count body).encode.length
      = (match kind with
          | .template => encoding.templateSetHeaderLength
          | .data => encoding.setHeaderLength) + body.length := by
  rw [Frame.length_encode, ← length_setFront encoding kind template count, body_ofSet,
    List.length_append, Nat.add_assoc]

theorem setHeaderChunks_ok {encoding : Encoding} {template : UInt16} {count : Nat} (kind : Kind)
    (body : List UInt8) (h : encoding.Carries template count) :
    ∃ chunks, setHeaderChunks encoding kind template count = .ok chunks ∧
      chunks.flatten = [(Frame.ofSet encoding kind template count body).lead.1,
        (Frame.ofSet encoding kind template count body).lead.2]
          ++ Octets.ofNat 2 0 ++ setFront encoding kind template count := by
  cases encoding with
  | full => cases kind <;> exact ⟨_, rfl, by simp [Frame.ofSet, setFront,
      Octets.ofNat, Nat.shiftRight_eq_div_pow, templateSetId]⟩
  | compact =>
    obtain ⟨hc, ht⟩ := h rfl
    refine ⟨_, by simp only [setHeaderChunks]; rw [if_neg (Nat.not_lt.mpr hc), compactSetId,
      if_pos ht]; rfl, ?_⟩
    simp [Frame.ofSet, setFront, Octets.ofNat]

theorem setHeaderChunks_error {encoding : Encoding} {template : UInt16} {count : Nat}
    (kind : Kind) (h : ¬ encoding.Carries template count) :
    ∃ e, setHeaderChunks encoding kind template count = .error e := by
  cases encoding with
  | full => exact absurd (fun hf => nomatch hf) h
  | compact =>
    simp only [setHeaderChunks]
    split
    · exact ⟨_, rfl⟩
    · rename_i hc
      have ht : ¬ (minTemplateId ≤ template ∧ template ≤ maxCompactId) :=
        fun ht => h fun _ => ⟨Nat.not_lt.mp hc, ht⟩
      exact ⟨_, by rw [compactSetId, if_neg ht]; rfl⟩

namespace Draft

/-! ## 2. Appending to a draft -/

/-- **`d'` is `d` with octets appended**, so many more sets and so many more records. -/
structure Extends (d d' : Draft) (bytes : List UInt8) (sets records : Nat) : Prop where
  toList : d'.buffer.toList = d.buffer.toList ++ bytes
  capacity : d'.buffer.capacity = d.buffer.capacity
  encoding : d'.encoding = d.encoding
  kind : d'.kind = d.kind
  sequence : d'.sequence = d.sequence
  sets : d'.sets = d.sets + sets
  records : d'.records = d.records + records

namespace Extends

variable {d d₁ d₂ : Draft} {a b : List UInt8} {m n r s : Nat}

theorem refl (d : Draft) : Extends d d [] 0 0 :=
  ⟨by simp, rfl, rfl, rfl, rfl, rfl, rfl⟩

theorem trans (h₁ : Extends d d₁ a m r) (h₂ : Extends d₁ d₂ b n s) :
    Extends d d₂ (a ++ b) (m + n) (r + s) :=
  ⟨by rw [h₂.toList, h₁.toList, List.append_assoc], h₂.capacity.trans h₁.capacity,
    h₂.encoding.trans h₁.encoding, h₂.kind.trans h₁.kind, h₂.sequence.trans h₁.sequence,
    by rw [h₂.sets, h₁.sets, Nat.add_assoc], by rw [h₂.records, h₁.records, Nat.add_assoc]⟩

theorem length (h : Extends d d₁ a m r) : d₁.buffer.length = d.buffer.length + a.length :=
  Buffer.length_of_toList h.toList

/-- Cutting what was appended away gives the content back. -/
theorem truncate (h : Extends d d₁ a 0 0) : Extends d (d₁.truncate d.buffer.length) [] 0 0 := by
  refine ⟨?_, ?_, h.encoding, h.kind, h.sequence, h.sets, h.records⟩
  · rw [Draft.truncate, Buffer.toList_truncate, h.toList, List.append_nil, ← Buffer.length_toList,
      List.take_left]
  · rw [Draft.truncate, Buffer.capacity_truncate, h.capacity]

end Extends

theorem write_ok {d : Draft} (chunks : List (List UInt8))
    (h : d.buffer.length + chunks.flatten.length ≤ d.buffer.capacity) :
    ∃ d', d.write chunks = (.ok (), d') ∧ Extends d d' chunks.flatten 0 0 := by
  obtain ⟨b, hb, hl, hc⟩ := Buffer.appendAll_ok chunks h
  exact ⟨{ d with buffer := b }, by simp only [write, hb], hl, hc, rfl, rfl, rfl, rfl, rfl⟩

/-- Chunks that do not fit leave some of their octets behind, and nothing else. -/
theorem write_error {d : Draft} (chunks : List (List UInt8))
    (h : d.buffer.capacity < d.buffer.length + chunks.flatten.length) :
    ∃ e d' bytes, d.write chunks = (.error e, d') ∧ Extends d d' bytes 0 0 := by
  obtain ⟨e, b, hb, ⟨bytes, hl⟩, hc⟩ := Buffer.appendAll_error chunks h
  exact ⟨e, { d with buffer := b }, bytes, by simp only [write, hb], hl.symm, hc, rfl, rfl, rfl,
    rfl, rfl⟩

/-- **The header of a set**, its length still zero. -/
theorem openSet_ok {d : Draft} {template : UInt16} {count : Nat} (body : List UInt8)
    (hc : d.encoding.Carries template count)
    (h : d.buffer.length + Frame.headerLength
      + (setFront d.encoding d.kind template count).length ≤ d.buffer.capacity) :
    ∃ d', d.openSet template count = (.ok ⟨d.buffer.length, count⟩, d') ∧
      Extends d d' ([(Frame.ofSet d.encoding d.kind template count body).lead.1,
        (Frame.ofSet d.encoding d.kind template count body).lead.2]
          ++ Octets.ofNat 2 0 ++ setFront d.encoding d.kind template count) 0 0 := by
  obtain ⟨chunks, hch, hfl⟩ := setHeaderChunks_ok d.kind body hc
  have hroom : d.buffer.length + chunks.flatten.length ≤ d.buffer.capacity := by
    rw [hfl]
    simp only [List.length_append, List.length_cons, List.length_nil, Octets.length_ofNat]
    rw [Frame.headerLength] at h
    omega
  obtain ⟨d', hw, he⟩ := write_ok chunks hroom
  rw [hfl] at he
  exact ⟨d', by simp only [openSet, hch, hw], he⟩

/-- **A header that cannot be written** leaves nothing behind. -/
theorem openSet_error {d : Draft} {template : UInt16} {count : Nat}
    (h : ¬ d.encoding.Carries template count ∨ d.buffer.capacity < d.buffer.length
      + Frame.headerLength + (setFront d.encoding d.kind template count).length) :
    ∃ e d', d.openSet template count = (.error e, d') ∧ Extends d d' [] 0 0 := by
  by_cases hc : d.encoding.Carries template count
  · obtain ⟨chunks, hch, hfl⟩ := setHeaderChunks_ok d.kind [] hc
    have hfull : d.buffer.capacity < d.buffer.length + chunks.flatten.length := by
      rw [hfl]
      simp only [List.length_append, List.length_cons, List.length_nil, Octets.length_ofNat]
      rcases h with h | h
      · exact absurd hc h
      · rw [Frame.headerLength] at h
        omega
    obtain ⟨e, d', bytes, hw, he⟩ := write_error chunks hfull
    exact ⟨e, d'.truncate d.buffer.length, by simp only [openSet, hch, hw], he.truncate⟩
  · obtain ⟨e, hch⟩ := setHeaderChunks_error d.kind hc
    exact ⟨e, d, by simp only [openSet, hch], .refl d⟩

/-- **Closing a set** puts its length in place of the zero. -/
theorem closeSet_ok {d : Draft} {a b : UInt8} {pre body : List UInt8}
    (hd : d.buffer.toList = pre ++ ([a, b] ++ Octets.ofNat 2 0 ++ body))
    (hl : Frame.headerLength + body.length ≤ maxLength) :
    ∃ d', d.closeSet pre.length = (.ok (), d') ∧
      d'.buffer.toList = pre ++ (Frame.mk (a, b) body).encode ∧
      d'.buffer.capacity = d.buffer.capacity ∧ d'.encoding = d.encoding ∧ d'.kind = d.kind ∧
      d'.sequence = d.sequence ∧ d'.sets = d.sets + 1 ∧ d'.records = d.records := by
  have hlen : d.buffer.length = pre.length + (Frame.headerLength + body.length) := by
    rw [← Buffer.length_toList, hd]
    simp only [List.length_append, List.length_cons, List.length_nil, Octets.length_ofNat,
      Frame.headerLength]
  obtain ⟨b', hp, hb', hcap⟩ := Buffer.patch_ok (b := d.buffer) (pre.length + 2)
    (Octets.ofNat 2 (Frame.headerLength + body.length))
    (by rw [Octets.length_ofNat, hlen, Frame.headerLength]; omega)
  refine ⟨{ d with buffer := b', sets := d.sets + 1 }, ?_, ?_, hcap, rfl, rfl, rfl, rfl, rfl⟩
  · simp only [closeSet, hlen, Nat.add_sub_cancel_left]
    rw [if_neg (Nat.not_lt.mpr hl), hp]
  · have hsplit : d.buffer.toList = (pre ++ [a, b]) ++ (Octets.ofNat 2 0 ++ body) := by
      rw [hd]
      simp only [List.append_assoc]
    have hpre : (pre ++ [a, b]).length = pre.length + 2 := by simp
    have hzero : (Octets.ofNat 2 0).length = 2 := Octets.length_ofNat 2 0
    rw [hb', hsplit, ← hpre, List.take_left, Octets.length_ofNat, ← List.drop_drop,
      List.drop_left, List.drop_left' hzero, Frame.encode]
    simp only [List.append_assoc, List.cons_append, List.nil_append]

/-! ## 3. Operations that write one frame -/

/-- **A step that writes a frame.**  In a draft of the encoding and kind it appends the frame's
octets where they fit, and changes nothing where they do not. -/
structure Writes {α : Type} (encoding : Encoding) (kind : Kind) (step : Step α) (value : α)
    (frame : Frame) (records : Nat) : Prop where
  ok : ∀ d : Draft, d.encoding = encoding → d.kind = kind → frame.encode.length ≤ maxLength →
    d.buffer.length + frame.encode.length ≤ d.buffer.capacity →
      ∃ d', step d = (.ok value, d') ∧ Extends d d' frame.encode 1 records
  error : ∀ d : Draft, d.encoding = encoding → d.kind = kind →
    d.buffer.capacity < d.buffer.length + frame.encode.length →
      ∃ e d', step d = (.error e, d') ∧ Extends d d' [] 0 0

/-- The records that a set adds to those of its message. -/
def recordsOf (kind : Kind) (count : Nat) : Nat :=
  match kind with
  | .template => 0
  | .data => count

theorem expectKind_self (d : Draft) : d.expectKind d.kind = .ok () := by
  simp [expectKind]

/-- The first two parts of a set that fits: its header and its body, the length still zero. -/
theorem fill_body {d : Draft} {template : UInt16} {count : Nat} {pieces : List (List UInt8)}
    (hc : d.encoding.Carries template count)
    (hroom : d.buffer.length
      + (Frame.ofSet d.encoding d.kind template count pieces.flatten).encode.length
        ≤ d.buffer.capacity) :
    ∃ d₁ d₂, d.openSet template count = (.ok ⟨d.buffer.length, count⟩, d₁) ∧
      d₁.write pieces = (.ok (), d₂) ∧
      Extends d d₂ (Frame.ofSet d.encoding d.kind template count pieces.flatten).opened 0 0 := by
  rw [Frame.length_encode, body_ofSet, List.length_append] at hroom
  obtain ⟨d₁, ho, h₁⟩ := openSet_ok pieces.flatten hc (by omega)
  have hlen := h₁.length
  simp only [List.length_append, List.length_cons, List.length_nil, Octets.length_ofNat] at hlen
  rw [Frame.headerLength] at hroom
  obtain ⟨d₂, hw, h₂⟩ := write_ok (d := d₁) pieces (by rw [h₁.capacity]; omega)
  have h := h₁.trans h₂
  rw [List.append_assoc] at h
  exact ⟨d₁, d₂, ho, hw, h⟩

/-- The three parts of a set that fits: its header, its body, its length. -/
theorem fill_ok {d : Draft} {template : UInt16} {count : Nat} {pieces : List (List UInt8)}
    (hc : d.encoding.Carries template count)
    (hl : (Frame.ofSet d.encoding d.kind template count pieces.flatten).encode.length ≤ maxLength)
    (hroom : d.buffer.length
      + (Frame.ofSet d.encoding d.kind template count pieces.flatten).encode.length
        ≤ d.buffer.capacity) :
    ∃ d₁ d₂ d₃, d.openSet template count = (.ok ⟨d.buffer.length, count⟩, d₁) ∧
      d₁.write pieces = (.ok (), d₂) ∧ d₂.closeSet d.buffer.length = (.ok (), d₃) ∧
      Extends d d₃ (Frame.ofSet d.encoding d.kind template count pieces.flatten).encode 1 0 := by
  obtain ⟨d₁, d₂, ho, hw, h⟩ := fill_body hc hroom
  rw [Frame.length_encode] at hl
  obtain ⟨d₃, hcl, ht, hcap, hen, hk, hs, hn, hr⟩ := closeSet_ok h.toList hl
  rw [Buffer.length_toList] at hcl
  refine ⟨d₁, d₂, d₃, ho, hw, hcl, ht, hcap.trans h.capacity, hen.trans h.encoding,
    hk.trans h.kind, hs.trans h.sequence, ?_, ?_⟩
  · rw [hn, h.sets]
  · rw [hr, h.records]

/-- **A set that does not fit** fails at its header or at its body, and cutting the message back
to its start then gives the content back. -/
theorem fill_error {d : Draft} {template : UInt16} {count : Nat} {pieces : List (List UInt8)}
    (hc : d.encoding.Carries template count)
    (hfull : d.buffer.capacity < d.buffer.length
      + (Frame.ofSet d.encoding d.kind template count pieces.flatten).encode.length) :
    (∃ e d₁, d.openSet template count = (.error e, d₁) ∧ Extends d d₁ [] 0 0) ∨
      ∃ d₁ e d₂, d.openSet template count = (.ok ⟨d.buffer.length, count⟩, d₁) ∧
        d₁.write pieces = (.error e, d₂) ∧ Extends d (d₂.truncate d.buffer.length) [] 0 0 := by
  rw [Frame.length_encode, body_ofSet, List.length_append] at hfull
  rcases Nat.lt_or_ge d.buffer.capacity (d.buffer.length + Frame.headerLength
      + (setFront d.encoding d.kind template count).length) with hr | hr
  · exact Or.inl (openSet_error (Or.inr hr))
  · right
    obtain ⟨d₁, ho, h₁⟩ := openSet_ok pieces.flatten hc hr
    have hlen := h₁.length
    simp only [List.length_append, List.length_cons, List.length_nil, Octets.length_ofNat] at hlen
    rw [Frame.headerLength] at hfull
    obtain ⟨e, d₂, bytes, hw, h₂⟩ := write_error (d := d₁) pieces
      (by rw [h₁.capacity]; omega)
    exact ⟨d₁, e, d₂, ho, hw, (h₁.trans h₂).truncate⟩

/-- **A set of encoded octets.** -/
theorem writes_addPieces {encoding : Encoding} {template : UInt16} {count : Nat}
    (kind : Kind) (pieces : List (List UInt8)) (hc : encoding.Carries template count) :
    Writes encoding kind (addPieces template count pieces) ()
      (Frame.ofSet encoding kind template count pieces.flatten) (recordsOf kind count) := by
  constructor
  · rintro d rfl rfl hl hroom
    obtain ⟨d₁, d₂, d₃, ho, hw, hcl, h₃⟩ := fill_ok hc hl hroom
    cases hk : d.kind with
    | template =>
      have hk₃ : d₃.kind = .template := h₃.kind.trans hk
      rw [hk] at h₃
      exact ⟨d₃, by simp only [addPieces, ho, hw, close, hcl, hk₃], h₃⟩
    | data =>
      have hk₃ : d₃.kind = .data := h₃.kind.trans hk
      rw [hk] at h₃
      refine ⟨{ d₃ with records := d₃.records + count },
        by simp only [addPieces, ho, hw, close, hcl, hk₃], h₃.toList, h₃.capacity, h₃.encoding,
        h₃.kind, h₃.sequence, h₃.sets, ?_⟩
      exact congrArg (· + count) h₃.records
  · rintro d rfl rfl hfull
    rcases fill_error hc hfull with ⟨e, d₁, ho, h₁⟩ | ⟨d₁, e, d₂, ho, hw, h₂⟩
    · exact ⟨e, d₁, by simp only [addPieces, ho], h₁⟩
    · exact ⟨e, _, by simp only [addPieces, ho, hw, abandon], h₂⟩

/-- **A set of octets copied as they are.** -/
theorem writes_addRaw {encoding : Encoding} {template : UInt16} {count : Nat}
    (kind : Kind) (body : List UInt8) (hc : encoding.Carries template count) :
    Writes encoding kind (addRaw template count body) ()
      (Frame.ofSet encoding kind template count body) (recordsOf kind count) := by
  have h := writes_addPieces kind [body] hc
  rwa [List.flatten_cons, List.flatten_nil, List.append_nil] at h

variable {R : Type}

/-- **The definition of a template.** -/
theorem writes_addTemplate {encoding : Encoding} (t : Template R)
    (hc : encoding.Carries t.id t.elements.length) :
    Writes encoding .template (addTemplate t) ()
      (Frame.ofSet encoding .template t.id t.elements.length
        (t.specifiers.flatMap (·.encode))) 0 := by
  rw [← FieldSpecifier.flatten_chunks]
  constructor
  · rintro d rfl hk hl hroom
    have hexp : d.expectKind .template = .ok () := by rw [← hk]; exact expectKind_self d
    rw [← hk] at hl hroom ⊢
    obtain ⟨d₁, d₂, d₃, ho, hw, hcl, h₃⟩ := fill_ok hc hl hroom
    exact ⟨d₃, by simp only [addTemplate, hexp, ho, hw, hcl], h₃⟩
  · rintro d rfl hk hfull
    have hexp : d.expectKind .template = .ok () := by rw [← hk]; exact expectKind_self d
    rw [← hk] at hfull
    rcases fill_error hc hfull with ⟨e, d₁, ho, h₁⟩ | ⟨d₁, e, d₂, ho, hw, h₂⟩
    · exact ⟨e, d₁, by simp only [addTemplate, hexp, ho], h₁⟩
    · exact ⟨e, _, by simp only [addTemplate, hexp, ho, hw], h₂⟩

theorem flatten_fields (t : Template R) (records : List R) :
    (records.flatMap t.fields).flatten = records.flatMap t.encodeRecord := by
  induction records with
  | nil => rfl
  | cons r records ih =>
    rw [List.flatMap_cons, List.flatten_append, ih, List.flatMap_cons, Template.encodeRecord]

theorem length_flatMap_encodeRecord (t : Template R) (records : List R) :
    (records.flatMap t.encodeRecord).length = records.length * t.recordWidth := by
  induction records with
  | nil => simp
  | cons r records ih =>
    rw [List.flatMap_cons, List.length_append, ih, Template.length_encodeRecord, List.length_cons,
      Nat.succ_mul, Nat.add_comm]

/-- **The records of an honest source.** -/
theorem writes_addData {encoding : Encoding} (t : Template R) (records : List R)
    (hc : encoding.Carries t.id records.length) :
    Writes encoding .data (addData t (.ofList records)) records.length
      (Frame.ofSet encoding .data t.id records.length (records.flatMap t.encodeRecord))
      records.length := by
  have hneed : (Frame.ofSet encoding .data t.id records.length
      (records.flatMap t.encodeRecord)).encode.length
        = encoding.setHeaderLength + records.length * t.recordWidth := by
    rw [length_encode_ofSet, length_flatMap_encodeRecord]
  rw [← flatten_fields] at hneed ⊢
  constructor
  · rintro d rfl hk hl hroom
    have hexp : d.expectKind .data = .ok () := by rw [← hk]; exact expectKind_self d
    have hrem : ¬ d.buffer.remaining < d.encoding.setHeaderLength
        + (RecordSource.ofList records).announced * t.recordWidth := by
      rw [RecordSource.ofList, ← hneed, Buffer.remaining]
      omega
    rw [← hk] at hl hroom ⊢
    obtain ⟨d₁, d₂, d₃, ho, hw, hcl, h₃⟩ := fill_ok hc hl hroom
    refine ⟨{ d₃ with records := d₃.records + records.length }, ?_, h₃.toList, h₃.capacity,
      h₃.encoding, h₃.kind, h₃.sequence, h₃.sets, congrArg (· + records.length) h₃.records⟩
    simp only [addData, hexp]
    rw [if_neg hrem]
    simp [RecordSource.ofList, ho, hw, hcl]
  · rintro d rfl hk hfull
    have hexp : d.expectKind .data = .ok () := by rw [← hk]; exact expectKind_self d
    have hrem : d.buffer.remaining < d.encoding.setHeaderLength
        + (RecordSource.ofList records).announced * t.recordWidth := by
      have := d.buffer.length_le_capacity
      rw [RecordSource.ofList, ← hneed, Buffer.remaining]
      omega
    exact ⟨_, d, by simp only [addData, hexp]; rw [if_pos hrem], .refl d⟩

/-- **The one set of a message about one template.** -/
theorem writes_addSet_data {encoding : Encoding} (t : Template R) (records : List R)
    (hc : encoding.Carries t.id records.length) :
    Writes encoding .data (addSet t (.ofList records) .data) ()
      (Frame.ofSet encoding .data t.id records.length (records.flatMap t.encodeRecord))
      records.length := by
  have h := writes_addData t records hc
  constructor
  · intro d he hk hl hroom
    obtain ⟨d', hs, hx⟩ := h.ok d he hk hl hroom
    exact ⟨d', by simp only [addSet, hs]; rfl, hx⟩
  · intro d he hk hfull
    obtain ⟨e, d', hs, hx⟩ := h.error d he hk hfull
    exact ⟨e, d', by simp only [addSet, hs]; rfl, hx⟩

end Draft

end FlowExport

/-
# The grammar of compact messages

    message  first octet 0xA1 or 0xA2 | sequence 2 | length L 2 | sets up to L | anything
    set      id 1 | count c 1 | length 2, four more than the body | body
    body     data: empty if c = 0, else c records of one width that is not zero
             template: c specifiers that obey the rules

`Spells` is this grammar; it knows neither the walk that checks a message nor the walk that reads
its sets.  `parse` accepts exactly what it derives (`parse_eq_ok_iff`), so the two walks agree on
every input.

A message has one derivation, and it is written in one way: what was accepted is written again,
octet for octet, from its sets (`compose_sets`).
-/
import FlowExport.Proofs.Wire.CompactMessage
import Mathlib

namespace FlowExport

/-! ## 1. The grammar -/

/-- The first octet of a compact message of the kind. -/
def Kind.firstOctet : Kind → UInt8
  | .template => 0xA1
  | .data => 0xA2

namespace CompactSet

/-- **The octets of a set**: its id less 256, its count, its length and its body. -/
def octets (s : CompactSet) : List UInt8 :=
  UInt8.ofNat (s.template.toNat - 256) :: s.count :: Octets.ofNat 2 (4 + s.body.length) ++ s.body

/-- **A body for its count**: so many records of one width, or so many specifiers. -/
def BodyFor (kind : Kind) (s : CompactSet) : Prop :=
  match kind with
  | .data => s.count = 0 ∧ s.body = [] ∨
      s.count ≠ 0 ∧ s.body ≠ [] ∧ s.count.toNat ∣ s.body.length
  | .template => ∃ fields : List FieldSpecifier, fields.length = s.count.toNat ∧
      (∀ f ∈ fields, f.Valid) ∧ s.body = fields.flatMap (·.encode)

/-- **A set of the grammar.** -/
structure Grammatical (kind : Kind) (s : CompactSet) : Prop where
  id_ge : minTemplateId ≤ s.template
  id_le : s.template ≤ maxCompactId
  body : s.BodyFor kind

end CompactSet

/-- **A message of the grammar**, whatever follows its announced length. -/
structure CompactMessage.Spells (bytes : List UInt8) (kind : Kind) (sequence length : UInt16)
    (sets : List CompactSet) : Prop where
  header : bytes.take 5
    = kind.firstOctet :: (Octets.ofNat 2 sequence.toNat ++ Octets.ofNat 2 length.toNat)
  length_ge : 5 ≤ length.toNat
  length_le : length.toNat ≤ bytes.length
  body : (bytes.take length.toNat).drop 5 = sets.flatMap (·.octets)
  sets : ∀ s ∈ sets, s.Grammatical kind

/-! ## 2. Header -/

theorem Kind.firstOctet_eq (kind : Kind) : kind.firstOctet = compactNibble * 16 + kind.code := by
  cases kind <;> decide

/-- The two halves of the first octet make it up. -/
theorem Kind.eq_firstOctet {first : UInt8} {kind : Kind} (hn : first / 16 = compactNibble)
    (hk : Kind.ofCode? (first % 16) = some kind) : first = kind.firstOctet := by
  have hdiv : first.toNat / 16 = 10 := congrArg UInt8.toNat hn
  have hmod : first.toNat % 16 = kind.code.toNat :=
    congrArg UInt8.toNat (Kind.eq_code_of_ofCode? hk)
  apply UInt8.toNat_inj.mp
  cases kind with
  | template =>
    change first.toNat % 16 = 1 at hmod
    change first.toNat = 161
    omega
  | data =>
    change first.toNat % 16 = 2 at hmod
    change first.toNat = 162
    omega

namespace CompactHeader

/-- **A header is read exactly where one stands** and its length lies within the datagram. -/
theorem read_eq_ok_iff {bytes : List UInt8} {header : CompactHeader} :
    read bytes = .ok header ↔
      bytes.take 5 = header.kind.firstOctet ::
        (Octets.ofNat 2 header.sequence.toNat ++ Octets.ofNat 2 header.length.toNat) ∧
      5 ≤ header.length.toNat ∧ header.length.toNat ≤ bytes.length := by
  constructor
  · intro h
    unfold read at h
    split at h
    · rename_i first s₁ s₀ l₁ l₀ tail
      split at h
      · simp at h
      · rename_i hn
        split at h
        · simp at h
        · rename_i kind hk
          simp only at h
          split at h
          · simp at h
          · rename_i hl
            obtain rfl := Except.ok.inj h
            obtain rfl := Kind.eq_firstOctet (not_not.mp hn) hk
            obtain ⟨hge, hle⟩ := not_or.mp hl
            refine ⟨?_, Nat.not_lt.mp hge, Nat.not_lt.mp hle⟩
            rw [Octets.ofNat_word16, Octets.ofNat_word16]
            rfl
    · simp at h
  · obtain ⟨kind, sequence, length⟩ := header
    rintro ⟨hhead, hge, hle⟩
    simp only at hhead hge hle
    obtain ⟨s₁, s₀, hseq, hseqw⟩ := Octets.ofNat_two sequence.toNat
    obtain ⟨l₁, l₀, hlen, hlenw⟩ := Octets.ofNat_two length.toNat
    rw [UInt16.ofNat_toNat] at hseqw hlenw
    rw [hseq, hlen] at hhead
    have hbytes : bytes = kind.firstOctet :: s₁ :: s₀ :: l₁ :: l₀ :: bytes.drop 5 := by
      rw [← List.take_append_drop 5 bytes, hhead]
      simp
    obtain ⟨hk₁, hk₂⟩ := CompactMessage.kind_first kind
    rw [← Kind.firstOctet_eq] at hk₁ hk₂
    rw [hbytes] at hle ⊢
    simp only [read, hk₁, hk₂, hseqw, hlenw, ne_eq, not_true_eq_false, if_false]
    rw [if_neg (by rw [Encoding.headerLength]; omega)]

end CompactHeader

/-! ## 3. Sets -/

namespace CompactSet

/-- **The check of a set decides whether its body is one for its count.** -/
theorem check_eq_ok_iff {kind : Kind} {s : CompactSet} :
    s.check kind = .ok () ↔ s.BodyFor kind := by
  cases kind with
  | data =>
    constructor
    · intro h
      have he := isEven_of_check h
      by_cases hc : s.count = 0
      · exact Or.inl ⟨hc, body_eq_nil he hc⟩
      · obtain ⟨hne, hmod⟩ := body_ne_nil he hc
        exact Or.inr ⟨hc, hne, Nat.dvd_of_mod_eq_zero hmod⟩
    · intro h
      have he : s.isEven = true := by
        rcases h with ⟨hc, hb⟩ | ⟨hc, hb, hdvd⟩
        · simp [isEven, hc, hb]
        · simp [isEven, hc, hb, Nat.mod_eq_zero_of_dvd hdvd]
      simp only [check]
      rw [if_pos he]
  | template =>
    constructor
    · intro h
      exact ⟨s.specifiers, specifiers_of_check h⟩
    · rintro ⟨fields, hl, hv, hb⟩
      have hread := FieldSpecifier.readMany_flatMap_encode hv []
      rw [List.append_nil, hl, ← hb] at hread
      simp only [check, hread]
      rfl

theorem octets_eq_encode (kind : Kind) (s : CompactSet) :
    s.octets = (Frame.ofSet .compact kind s.template s.count.toNat s.body).encode := by
  cases kind <;> simp [octets, Frame.encode, Frame.ofSet, setFront, Frame.headerLength]

theorem octets_ofFrame (f : Frame) : (ofFrame f).octets = f.encode := by
  have hid : UInt8.ofNat ((ofFrame f).template.toNat - 256) = f.lead.1 := by
    rw [template_ofFrame, toNat_templateOfCompact, Nat.add_sub_cancel_left, UInt8.ofNat_toNat]
  rw [octets, hid]
  rfl

variable {kind : Kind} {s : CompactSet} (h : s.Grammatical kind)

include h

theorem Grammatical.carries : Encoding.compact.Carries s.template s.count.toNat :=
  fun _ => ⟨Nat.le_of_lt_succ s.count.toNat_lt, h.id_ge, h.id_le⟩

theorem Grammatical.ofFrame_ofSet :
    ofFrame (Frame.ofSet .compact kind s.template s.count.toNat s.body) = s := by
  rw [CompactSet.ofFrame_ofSet kind s.body h.carries, UInt8.ofNat_toNat]

end CompactSet

/-! ## 4. Messages -/

namespace CompactMessage

theorem flatMap_octets (kind : Kind) (sets : List CompactSet) :
    sets.flatMap (·.octets)
      = (sets.map fun s => Frame.ofSet .compact kind s.template s.count.toNat s.body).flatMap
        Frame.encode := by
  rw [List.flatMap_map]
  exact congrArg (sets.flatMap ·) (funext fun s => s.octets_eq_encode kind)

theorem header_of_parse {bytes : List UInt8} {m : CompactMessage} (h : parse bytes = .ok m) :
    CompactHeader.read bytes = .ok m.header ∧
      m.payload = (bytes.take m.header.length.toNat).drop 5 := by
  simp only [parse, bind, Except.bind] at h
  split at h
  · simp at h
  · rename_i header hread
    split at h
    · simp at h
    · obtain rfl := Except.ok.inj h
      exact ⟨hread, rfl⟩

/-- What is accepted is derived, with the sets that are read. -/
theorem spells_of_parse {bytes : List UInt8} {m : CompactMessage} (h : parse bytes = .ok m) :
    Spells bytes m.kind m.header.sequence m.header.length m.sets := by
  obtain ⟨hread, hpayload⟩ := header_of_parse h
  obtain ⟨hheader, hge, hle⟩ := CompactHeader.read_eq_ok_iff.mp hread
  obtain ⟨frames, hframes, -, hsets, hcheck⟩ := parse_eq_ok h
  refine ⟨hheader, hge, hle, ?_, fun s hs => ?_⟩
  · rw [← hpayload, hframes, hsets, List.flatMap_map]
    exact congrArg (frames.flatMap ·) (funext fun f => (CompactSet.octets_ofFrame f).symm)
  · obtain ⟨hid, hid'⟩ := template_of_mem_sets h hs
    exact ⟨hid, hid', CompactSet.check_eq_ok_iff.mp (hcheck s hs)⟩

section Spelled

variable {bytes : List UInt8} {kind : Kind} {sequence length : UInt16} {sets : List CompactSet}
  (h : Spells bytes kind sequence length sets)

include h

theorem Spells.length_body : 5 + (sets.flatMap (·.octets)).length = length.toNat := by
  have hge := h.length_ge
  have hle := h.length_le
  rw [← h.body, List.length_drop, List.length_take]
  omega

theorem Spells.length_frames :
    Encoding.compact.headerLength + ((sets.map fun s => Frame.ofSet .compact kind s.template
      s.count.toNat s.body).flatMap Frame.encode).length = length.toNat := by
  rw [← flatMap_octets]
  exact h.length_body

theorem Spells.length_le_maxLength :
    Encoding.compact.headerLength + ((sets.map fun s => Frame.ofSet .compact kind s.template
      s.count.toNat s.body).flatMap Frame.encode).length ≤ maxLength := by
  rw [h.length_frames]
  exact Nat.le_of_lt_succ length.toNat_lt

theorem Spells.sets_eq (header : CompactHeader) :
    CompactMessage.sets ⟨header, sets.flatMap (·.octets)⟩ = sets := by
  rw [flatMap_octets kind, sets_mk header (Frame.length_le_of_flatMap h.length_le_maxLength),
    List.map_map]
  refine (List.map_congr_left fun s hs => ?_).trans (List.map_id _)
  exact (h.sets s hs).ofFrame_ofSet

/-- **What is derived is accepted.** -/
theorem Spells.parse : parse bytes = .ok ⟨⟨kind, sequence, length⟩, sets.flatMap (·.octets)⟩ := by
  have hread : CompactHeader.read bytes = .ok ⟨kind, sequence, length⟩ :=
    CompactHeader.read_eq_ok_iff.mpr ⟨h.header, h.length_ge, h.length_le⟩
  have hwalk : Frame.walk (fun lead => templateOfCompact lead.1)
      (fun f => (CompactSet.ofFrame f).check kind) (sets.flatMap (·.octets))
        = .ok (sets.map fun _ => ()) := by
    rw [flatMap_octets kind]
    refine Frame.walk_eq_ok_iff.mpr
      ⟨_, rfl, Frame.length_le_of_flatMap h.length_le_maxLength, ?_⟩
    rw [List.map_map, List.map_map]
    refine List.map_congr_left fun s hs => ?_
    rw [Function.comp_apply, (h.sets s hs).ofFrame_ofSet]
    exact CompactSet.check_eq_ok_iff.mpr (h.sets s hs).body
  simp only [CompactMessage.parse, hread, bind, Except.bind]
  rw [Encoding.headerLength, h.body, hwalk]
  rfl

/-- What follows the announced length may be anything. -/
theorem Spells.take_append (rest : List UInt8) :
    Spells (bytes.take length.toNat ++ rest) kind sequence length sets := by
  refine ⟨?_, h.length_ge, ?_, ?_, h.sets⟩
  · rw [Octets.take_take_append h.length_ge h.length_le]
    exact h.header
  · rw [List.length_append, List.length_take, Nat.min_eq_left h.length_le]
    exact Nat.le_add_right _ _
  · rw [Octets.take_take_append (Nat.le_refl _) h.length_le]
    exact h.body

/-- **What is derived is written again from its sets**, octet for octet. -/
theorem Spells.compose_sets {buffer : Buffer} {x : Exporter} (time : UInt32)
    (hseq : UInt16.ofNat x.sequence.toNat = sequence) (hcap : length.toNat ≤ buffer.capacity) :
    (Draft.compose buffer x .compact kind time (Draft.fillAll (sets.map fun s =>
      Draft.addRaw s.template s.count.toNat s.body))).1 = .ok (bytes.take length.toNat) := by
  have hlen := h.length_frames
  obtain ⟨buffer', hc, -⟩ := Draft.compose_ok
    (fun s hs => Draft.writes_addRaw kind s.body (h.sets s hs).carries) buffer x time
    (by rw [hlen]; exact hcap) h.length_le_maxLength
  have hmessage : x.message .compact kind time (sets.flatMap (·.octets))
      = bytes.take length.toNat := by
    rw [← List.take_append_drop 5 (bytes.take length.toNat), h.body, List.take_take,
      Nat.min_eq_left h.length_ge, h.header, Exporter.message, ← Kind.firstOctet_eq,
      h.length_body, ← hseq, Octets.ofNat_low]
    rfl
  rw [hc, ← flatMap_octets, hmessage]

end Spelled

/-- **A message is what its bytes spell**: the header, and a payload that is the sets' octets. -/
theorem parse_eq_ok_iff {bytes : List UInt8} {m : CompactMessage} :
    parse bytes = .ok m ↔ ∃ sets, Spells bytes m.kind m.header.sequence m.header.length sets ∧
      m.payload = sets.flatMap (·.octets) := by
  constructor
  · intro h
    have hs := spells_of_parse h
    refine ⟨m.sets, hs, ?_⟩
    rw [(header_of_parse h).2, hs.body]
  · rintro ⟨sets, hs, hp⟩
    rw [hs.parse, ← hp]
    rfl

/-- **Parsing accepts exactly the grammar, and the format is canonical.**  The sets of a message
are the one derivation it has, nothing behind its length matters, and written again from its sets
it is the same. -/
theorem parse_grammar (bytes : List UInt8) :
    ((∃ m, parse bytes = .ok m) ↔
      ∃ kind sequence length sets, Spells bytes kind sequence length sets) ∧
    ∀ m, parse bytes = .ok m →
      (∀ kind sequence length sets, Spells bytes kind sequence length sets →
        m.header = ⟨kind, sequence, length⟩ ∧ m.sets = sets) ∧
      (∀ rest, parse (bytes.take m.header.length.toNat ++ rest) = .ok m) ∧
      ∀ (buffer : Buffer) (x : Exporter) (time : UInt32),
        UInt16.ofNat x.sequence.toNat = m.header.sequence →
        m.header.length.toNat ≤ buffer.capacity →
        (Draft.compose buffer x .compact m.kind time (Draft.fillAll (m.sets.map fun s =>
          Draft.addRaw s.template s.count.toNat s.body))).1
            = .ok (bytes.take m.header.length.toNat) := by
  refine ⟨⟨?_, ?_⟩, fun m hm => ⟨?_, ?_, ?_⟩⟩
  · rintro ⟨m, hm⟩
    obtain ⟨sets, hs, -⟩ := parse_eq_ok_iff.mp hm
    exact ⟨_, _, _, sets, hs⟩
  · rintro ⟨kind, sequence, length, sets, hs⟩
    exact ⟨_, hs.parse⟩
  · intro kind sequence length sets hs
    rw [hs.parse] at hm
    obtain rfl := Except.ok.inj hm
    exact ⟨rfl, hs.sets_eq _⟩
  · intro rest
    have hs := (spells_of_parse hm).take_append rest
    rw [hs.parse, ← (spells_of_parse hm).parse]
    exact hm
  · intro buffer x time hseq hcap
    exact (spells_of_parse hm).compose_sets time hseq hcap

/-- A message of one set of two records, an octet behind its length: it is derived, and its set
gives back all but that octet. -/
theorem parse_grammar_octetBehind :
    (∃ kind sequence length sets,
      Spells [0xA2, 0, 7, 0, 13, 0, 2, 0, 8, 1, 2, 3, 4, 0xFF] kind sequence length sets) ∧
    (Draft.compose (.ofCapacity 13) ⟨1, 0x50007⟩ .compact .data 0
      (Draft.fillAll [Draft.addRaw 256 2 [1, 2, 3, 4]])).1
        = .ok [0xA2, 0, 7, 0, 13, 0, 2, 0, 8, 1, 2, 3, 4] := by
  have hparse : parse [0xA2, 0, 7, 0, 13, 0, 2, 0, 8, 1, 2, 3, 4, 0xFF]
      = .ok ⟨⟨.data, 7, 13⟩, [0, 2, 0, 8, 1, 2, 3, 4]⟩ := by cbv
  have hsets : CompactMessage.sets ⟨⟨.data, 7, 13⟩, [0, 2, 0, 8, 1, 2, 3, 4]⟩
      = [⟨256, 2, [1, 2, 3, 4]⟩] := by cbv
  obtain ⟨hiff, hall⟩ := parse_grammar [0xA2, 0, 7, 0, 13, 0, 2, 0, 8, 1, 2, 3, 4, 0xFF]
  obtain ⟨-, -, hcompose⟩ := hall _ hparse
  refine ⟨hiff.mp ⟨_, hparse⟩, ?_⟩
  have hwritten := hcompose (.ofCapacity 13) ⟨1, 0x50007⟩ 0 (by decide) (by decide)
  rw [hsets] at hwritten
  exact hwritten

end CompactMessage

end FlowExport

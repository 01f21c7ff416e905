/-
# The grammar of full messages

    message  version 10, 2 | length L 2 | time 4 | sequence 4 | domain 4 | sets up to L | anything
    set      id 2 | length 2, four more than the body | body
    body     id 2: template records and padding (`TemplateRecord.Defines`)
             id 256 or above: anything, which is kept
             any other id: anything, which is passed over

`Spells` is this grammar, `RawSet.Keeps` what each of its sets comes to.  Decoding accepts exactly
what is derived and returns what the sets come to, in order (`decode_eq_ok_iff`); a set that is
passed over must be cut right all the same.

The reader has two loops, one over the sets and one over the records of a template set, and an
inner one whose turns are counted in advance.  `decodeWithin` puts a limit on the turns of either;
a fourth of the octets is enough for both.
-/
import FlowExport.Proofs.Wire.FullMessage
import Mathlib

namespace FlowExport

/-! ## 1. The grammar -/

/-- The octets of a header. -/
def FullHeader.octets (h : FullHeader) : List UInt8 :=
  Octets.ofNat 2 h.version.toNat ++ Octets.ofNat 2 h.length.toNat ++ Octets.ofNat 4 h.time.toNat
    ++ Octets.ofNat 4 h.sequence.toNat ++ Octets.ofNat 4 h.domain.toNat

/-- **A set before it is read**: its id and its body. -/
structure RawSet where
  id : UInt16
  body : List UInt8
  deriving DecidableEq, Repr

namespace RawSet

/-- The octets of a set: its id, its length and its body. -/
def octets (s : RawSet) : List UInt8 :=
  Octets.ofNat 2 s.id.toNat ++ Octets.ofNat 2 (4 + s.body.length) ++ s.body

/-- **What a set comes to**: the templates that it defines, its own body, or nothing. -/
inductive Keeps (s : RawSet) : Option FullSet → Prop
  | templates {records : List TemplateRecord} (hid : s.id = templateSetId)
      (h : TemplateRecord.Defines s.body records) : Keeps s (some (.templates records))
  | data (hid : minTemplateId ≤ s.id) : Keeps s (some (.data s.id s.body))
  | nothing (hid : s.id ≠ templateSetId) (hlt : s.id < minTemplateId) : Keeps s none

end RawSet

/-- **A message of the grammar**, whatever follows its announced length, with what its sets come
to. -/
structure FullMessage.Spells (bytes : List UInt8) (header : FullHeader) (sets : List RawSet)
    (kept : List (Option FullSet)) : Prop where
  version : header.version = protocolVersion
  front : bytes.take 16 = header.octets
  length_ge : 16 ≤ header.length.toNat
  length_le : header.length.toNat ≤ bytes.length
  body : (bytes.take header.length.toNat).drop 16 = sets.flatMap (·.octets)
  kept : List.Forall₂ RawSet.Keeps sets kept

/-! ## 2. Header -/

/-- **A header is read exactly where one stands** and its length lies within the datagram. -/
theorem FullHeader.read_eq_ok_iff {bytes : List UInt8} {header : FullHeader} :
    read bytes = .ok header ↔ header.version = protocolVersion ∧ bytes.take 16 = header.octets ∧
      16 ≤ header.length.toNat ∧ header.length.toNat ≤ bytes.length := by
  constructor
  · intro h
    unfold read at h
    split at h
    · simp only at h
      split at h
      · simp at h
      · rename_i hv
        split at h
        · simp at h
        · rename_i hl
          obtain rfl := Except.ok.inj h
          obtain ⟨hge, hle⟩ := not_or.mp hl
          refine ⟨not_not.mp hv, ?_, Nat.not_lt.mp hge, Nat.not_lt.mp hle⟩
          simp only [octets, Octets.ofNat_word16, Octets.ofNat_word32]
          rfl
    · simp at h
  · obtain ⟨version, length, time, sequence, domain⟩ := header
    rintro ⟨rfl, hhead, hge, hle⟩
    simp only at hge hle
    obtain ⟨v₁, v₀, hv, hvw⟩ := Octets.ofNat_two protocolVersion.toNat
    obtain ⟨l₁, l₀, hl, hlw⟩ := Octets.ofNat_two length.toNat
    obtain ⟨t₃, t₂, t₁, t₀, ht, htw⟩ := Octets.ofNat_four time.toNat
    obtain ⟨s₃, s₂, s₁, s₀, hs, hsw⟩ := Octets.ofNat_four sequence.toNat
    obtain ⟨d₃, d₂, d₁, d₀, hd, hdw⟩ := Octets.ofNat_four domain.toNat
    rw [UInt16.ofNat_toNat] at hvw hlw
    rw [UInt32.ofNat_toNat] at htw hsw hdw
    simp only [octets, hv, hl, ht, hs, hd] at hhead
    have hbytes : bytes = v₁ :: v₀ :: l₁ :: l₀ :: t₃ :: t₂ :: t₁ :: t₀ :: s₃ :: s₂ :: s₁ :: s₀
        :: d₃ :: d₂ :: d₁ :: d₀ :: bytes.drop 16 := by
      rw [← List.take_append_drop 16 bytes, hhead]
      simp
    rw [hbytes] at hle ⊢
    simp only [read, hvw, hlw, htw, hsw, hdw, ne_eq, not_true_eq_false, if_false]
    rw [if_neg (by rw [Encoding.headerLength]; omega)]

/-! ## 3. Sets -/

namespace RawSet

/-- The set in a frame. -/
def ofFrame (f : Frame) : RawSet :=
  ⟨Octets.word16 f.lead.1 f.lead.2, f.body⟩

/-- The frame of a set. -/
def frame (s : RawSet) : Frame :=
  ⟨(UInt8.ofNat (s.id.toNat / 256), UInt8.ofNat s.id.toNat), s.body⟩

theorem ofFrame_frame (s : RawSet) : ofFrame s.frame = s := by
  rw [ofFrame, frame, Octets.word16_halves]

theorem ofFrame_comp_frame : ofFrame ∘ frame = fun s => s :=
  funext ofFrame_frame

theorem octets_ofFrame (f : Frame) : (ofFrame f).octets = f.encode := by
  rw [octets, ofFrame, Octets.ofNat_word16]
  rfl

theorem flatMap_octets (sets : List RawSet) :
    sets.flatMap (·.octets) = (sets.map frame).flatMap Frame.encode := by
  rw [List.flatMap_map]
  exact congrArg (sets.flatMap ·) (funext fun s => by rw [← octets_ofFrame, ofFrame_frame])

/-- The reader looks at the id first, and at the body only if that is the one of template sets. -/
theorem read_ofFrame (f : Frame) :
    FullSet.ofFrame f
      = if (ofFrame f).id = templateSetId then
          (TemplateRecord.readAll (ofFrame f).body).map fun records => some (.templates records)
        else if minTemplateId ≤ (ofFrame f).id then
          .ok (some (.data (ofFrame f).id (ofFrame f).body))
        else .ok none := by
  unfold FullSet.ofFrame
  refine if_congr Iff.rfl ?_ rfl
  change _ = (TemplateRecord.readAll f.body).map _
  cases TemplateRecord.readAll f.body <;> rfl

/-- **What a set comes to is what the reader makes of its frame.** -/
theorem keeps_ofFrame {f : Frame} {kept : Option FullSet} :
    (ofFrame f).Keeps kept ↔ FullSet.ofFrame f = .ok kept := by
  rw [read_ofFrame]
  constructor
  · intro h
    cases h with
    | templates hid h =>
      rw [if_pos hid, TemplateRecord.readAll_eq_ok_iff.mpr h]
      rfl
    | data hid =>
      have hne : (ofFrame f).id ≠ templateSetId := by
        intro heq
        rw [heq] at hid
        exact absurd hid (by decide)
      rw [if_neg hne, if_pos hid]
    | nothing hid hlt => rw [if_neg hid, if_neg (UInt16.not_le.mpr hlt)]
  · intro h
    split at h
    · rename_i hid
      obtain ⟨records, hrecords, rfl⟩ := FieldSpecifier.map_eq_ok h
      exact .templates hid (TemplateRecord.readAll_eq_ok_iff.mp hrecords)
    · rename_i hid
      split at h
      · rename_i hge
        obtain rfl := Except.ok.inj h
        exact .data hge
      · rename_i hlt
        obtain rfl := Except.ok.inj h
        exact .nothing hid (UInt16.not_le.mp hlt)

/-- Set by set, what the sets come to is what the reader makes of their frames. -/
theorem forall₂_keeps {frames : List Frame} {kept : List (Option FullSet)} :
    List.Forall₂ Keeps (frames.map ofFrame) kept ↔
      frames.map FullSet.ofFrame = kept.map .ok := by
  rw [← List.forall₂_eq_eq_eq, List.forall₂_map_left_iff, List.forall₂_map_left_iff,
    List.forall₂_map_right_iff]
  simp only [keeps_ofFrame]

end RawSet

/-! ## 4. Messages -/

namespace FullMessage

/-- What is accepted is derived. -/
theorem spells_of_decode {bytes : List UInt8} {m : FullMessage} (h : decode bytes = .ok m) :
    ∃ sets kept, Spells bytes m.header sets kept ∧ m.sets = kept.filterMap id := by
  simp only [decode, bind, Except.bind] at h
  split at h
  · simp at h
  · rename_i header hread
    split at h
    · simp at h
    · rename_i kept hwalk
      obtain rfl := Except.ok.inj h
      obtain ⟨hversion, hheader, hge, hle⟩ := FullHeader.read_eq_ok_iff.mp hread
      obtain ⟨frames, hbody, -, hkept⟩ := Frame.walk_eq_ok_iff.mp hwalk
      refine ⟨frames.map .ofFrame, kept, ⟨hversion, hheader, hge, hle, ?_, ?_⟩, rfl⟩
      · rw [List.flatMap_map]
        simp only [RawSet.octets_ofFrame]
        exact hbody
      · exact RawSet.forall₂_keeps.mpr hkept

section Spelled

variable {bytes : List UInt8} {header : FullHeader} {sets : List RawSet}
  {kept : List (Option FullSet)} (h : Spells bytes header sets kept)

include h

/-- **What is derived is accepted**, as what its sets come to. -/
theorem Spells.decode : decode bytes = .ok ⟨header, kept.filterMap id⟩ := by
  have hread : FullHeader.read bytes = .ok header :=
    FullHeader.read_eq_ok_iff.mpr ⟨h.version, h.front, h.length_ge, h.length_le⟩
  have hlength : Encoding.full.headerLength + ((sets.map RawSet.frame).flatMap Frame.encode).length
      ≤ maxLength := by
    have hlt := header.length.toNat_lt
    rw [← RawSet.flatMap_octets, ← h.body, List.length_drop, List.length_take,
      Encoding.headerLength, maxLength]
    omega
  have hkept : (sets.map RawSet.frame).map FullSet.ofFrame = kept.map .ok := by
    rw [← RawSet.forall₂_keeps, List.map_map, RawSet.ofFrame_comp_frame, List.map_id']
    exact h.kept
  have hwalk : Frame.walk (fun lead => Octets.word16 lead.1 lead.2) FullSet.ofFrame
      ((sets.map RawSet.frame).flatMap Frame.encode) = .ok kept :=
    Frame.walk_eq_ok_iff.mpr ⟨_, rfl, Frame.length_le_of_flatMap hlength, hkept⟩
  simp only [FullMessage.decode, hread, bind, Except.bind]
  rw [Encoding.headerLength, h.body, RawSet.flatMap_octets, hwalk]
  rfl

/-- What follows the announced length may be anything. -/
theorem Spells.take_append (rest : List UInt8) :
    Spells (bytes.take header.length.toNat ++ rest) header sets kept := by
  refine ⟨h.version, ?_, h.length_ge, ?_, ?_, h.kept⟩
  · rw [Octets.take_take_append h.length_ge h.length_le]
    exact h.front
  · rw [List.length_append, List.length_take, Nat.min_eq_left h.length_le]
    exact Nat.le_add_right _ _
  · rw [Octets.take_take_append (Nat.le_refl _) h.length_le]
    exact h.body

end Spelled

/-- **A message is what its bytes spell**: the header, and what the sets come to. -/
theorem decode_eq_ok_iff {bytes : List UInt8} {m : FullMessage} :
    decode bytes = .ok m ↔
      ∃ sets kept, Spells bytes m.header sets kept ∧ m.sets = kept.filterMap id := by
  constructor
  · exact spells_of_decode
  · rintro ⟨sets, kept, hs, hm⟩
    rw [hs.decode, ← hm]

end FullMessage

/-! ## 5. Turns -/

/-- **The walk with a limit on its turns**: nothing where it would take more. -/
def Frame.walkWithin {α : Type} (name : UInt8 × UInt8 → UInt16)
    (rule : Frame → Option (Except CodecError α)) :
    (turns : Nat) → List UInt8 → Option (Except CodecError (List α))
  | _, [] => some (.ok [])
  | 0, _ :: _ => none
  | turns + 1, first :: others =>
    match Frame.read name (first :: others) with
    | .error e => some (.error e)
    | .ok (frame, rest) =>
      match rule frame with
      | none => none
      | some (.error e) => some (.error e)
      | some (.ok value) => (walkWithin name rule turns rest).map (·.map (value :: ·))

/-- **The walk stops**: every turn but one that fails takes a set header at least. -/
theorem Frame.walkWithin_eq {α : Type} {name : UInt8 × UInt8 → UInt16}
    {rule : Frame → Except CodecError α} {limited : Frame → Option (Except CodecError α)}
    {turns : Nat} {bytes : List UInt8}
    (hrule : ∀ f : Frame, f.encode.length ≤ bytes.length → limited f = some (rule f))
    (h : (bytes.length + 3) / 4 ≤ turns) :
    walkWithin name limited turns bytes = some (walk name rule bytes) := by
  induction turns generalizing bytes with
  | zero =>
    obtain rfl : bytes = [] := List.length_eq_zero_iff.mp (by omega)
    rw [walkWithin, walk_nil]
  | succ turns ih =>
    cases bytes with
    | nil => rw [walkWithin, walk_nil]
    | cons first others =>
      rw [walkWithin, walk_of_ne_nil (List.cons_ne_nil first others)]
      cases hread : read name (first :: others) with
      | error e => rfl
      | ok cut =>
        obtain ⟨frame, rest⟩ := cut
        obtain ⟨hbytes, -⟩ := eq_encode_of_read hread
        have hlength : (first :: others).length = frame.encode.length + rest.length := by
          rw [hbytes, List.length_append]
        have hheader : 4 ≤ frame.encode.length := by
          rw [length_encode, headerLength]
          exact Nat.le_add_right _ _
        have hrest : walkWithin name limited turns rest = some (walk name rule rest) :=
          ih (fun f hf => hrule f (by omega)) (by omega)
        simp only [hrule frame (by omega)]
        cases rule frame with
        | error e => rfl
        | ok value => rw [hrest]; rfl

/-- The set in a frame, read with a limit on the turns. -/
def FullSet.ofFrameWithin (turns : Nat) (frame : Frame) :
    Option (Except CodecError (Option FullSet)) :=
  if (RawSet.ofFrame frame).id = templateSetId then
    (TemplateRecord.readAllWithin turns frame.body).map (·.map fun records =>
      some (.templates records))
  else some (FullSet.ofFrame frame)

theorem FullSet.ofFrameWithin_eq {turns : Nat} {f : Frame} (h : f.body.length / 4 ≤ turns) :
    ofFrameWithin turns f = some (ofFrame f) := by
  rw [ofFrameWithin]
  split
  · rename_i hid
    rw [TemplateRecord.readAllWithin_eq h, RawSet.read_ofFrame, if_pos hid]
    rfl
  · rfl

namespace FullMessage

/-- **Decoding with a limit on the turns of each loop**: nothing where one would take more. -/
def decodeWithin (turns : Nat) (bytes : List UInt8) : Option (Except CodecError FullMessage) :=
  match FullHeader.read bytes with
  | .error e => some (.error e)
  | .ok header =>
    let body := (bytes.take header.length.toNat).drop Encoding.full.headerLength
    (Frame.walkWithin (fun lead => Octets.word16 lead.1 lead.2) (FullSet.ofFrameWithin turns)
      turns body).map (·.map fun sets => ⟨header, sets.filterMap id⟩)

/-- **Decoding ends on every input**, with a turn for every four octets at most. -/
theorem decodeWithin_eq (bytes : List UInt8) :
    decodeWithin (bytes.length / 4) bytes = some (decode bytes) := by
  rw [decodeWithin, decode]
  cases hread : FullHeader.read bytes with
  | error e => rfl
  | ok header =>
    obtain ⟨-, -, hge, hle⟩ := FullHeader.read_eq_ok_iff.mp hread
    simp only [bind, Except.bind]
    generalize hbody : (bytes.take header.length.toNat).drop Encoding.full.headerLength = body
    have hlength : body.length + 16 ≤ bytes.length := by
      rw [← hbody, List.length_drop, List.length_take, Encoding.headerLength]
      omega
    have hrule : ∀ f : Frame, f.encode.length ≤ body.length →
        FullSet.ofFrameWithin (bytes.length / 4) f = some (FullSet.ofFrame f) := by
      intro f hf
      rw [Frame.length_encode] at hf
      exact FullSet.ofFrameWithin_eq (by omega)
    rw [Frame.walkWithin_eq hrule (by omega)]
    cases Frame.walk (fun lead => Octets.word16 lead.1 lead.2) FullSet.ofFrame body <;> rfl

/-! ## 6. The main statement -/

/-- **Decoding accepts exactly the grammar.**  What is returned is what the sets of the one
derivation come to, nothing behind the announced length matters, and the loops end on every
input. -/
theorem decode_grammar (bytes : List UInt8) :
    ((∃ m, decode bytes = .ok m) ↔ ∃ header sets kept, Spells bytes header sets kept) ∧
    (∀ m, decode bytes = .ok m →
      (∀ header sets kept, Spells bytes header sets kept → m = ⟨header, kept.filterMap id⟩) ∧
      ∀ rest, decode (bytes.take m.header.length.toNat ++ rest) = .ok m) ∧
    decodeWithin (bytes.length / 4) bytes = some (decode bytes) := by
  refine ⟨⟨?_, ?_⟩, fun m hm => ⟨?_, ?_⟩, decodeWithin_eq bytes⟩
  · rintro ⟨m, hm⟩
    obtain ⟨sets, kept, hs, -⟩ := decode_eq_ok_iff.mp hm
    exact ⟨_, sets, kept, hs⟩
  · rintro ⟨header, sets, kept, hs⟩
    exact ⟨_, hs.decode⟩
  · intro header sets kept hs
    rw [hs.decode] at hm
    exact (Except.ok.inj hm).symm
  · intro rest
    obtain ⟨sets, kept, hs, hkept⟩ := decode_eq_ok_iff.mp hm
    rw [(hs.take_append rest).decode, ← hkept]

/-- A set of the reserved id 3, a definition with two octets of padding and a record of it, with
one octet behind the length. -/
def threeSets : List UInt8 :=
  [0, 10, 0, 43, 0, 0, 0, 7, 0, 0, 0, 2, 0, 0, 0, 1, 0, 3, 0, 5, 9,
    0, 2, 0, 14, 1, 0, 0, 1, 0, 1, 0, 4, 0, 0, 1, 0, 0, 8, 1, 2, 3, 4, 0xFF]

/-- Of three sets the first is passed over, and with four octets cut off nothing is accepted. -/
theorem decode_grammar_threeSets :
    (∃ header sets kept, Spells threeSets header sets kept) ∧
    decode (threeSets.take 43) = .ok ⟨⟨10, 43, 7, 2, 1⟩,
      [.templates [⟨256, [⟨1, 4, 0⟩]⟩], .data 256 [1, 2, 3, 4]]⟩ ∧
    ¬ ∃ header sets kept, Spells (threeSets.take 39) header sets kept := by
  have hdecode : decode threeSets = .ok ⟨⟨10, 43, 7, 2, 1⟩,
      [.templates [⟨256, [⟨1, 4, 0⟩]⟩], .data 256 [1, 2, 3, 4]]⟩ := by cbv
  have hcut : decode (threeSets.take 39)
      = .error (.malformedHeader (.lengthMismatch 43 39)) := by cbv
  obtain ⟨hiff, hall, -⟩ := decode_grammar threeSets
  obtain ⟨-, hbehind⟩ := hall _ hdecode
  refine ⟨hiff.mp ⟨_, hdecode⟩, ?_, ?_⟩
  · have hnothing := hbehind []
    rw [List.append_nil] at hnothing
    exact hnothing
  · intro hspells
    obtain ⟨m, hm⟩ := (decode_grammar (threeSets.take 39)).1.mpr hspells
    rw [hcut] at hm
    simp at hm

end FullMessage

end FlowExport

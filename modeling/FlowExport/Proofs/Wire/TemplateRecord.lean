/-
# The grammar of template sets

    body    records | fewer than four octets of padding
    record  template id 2, 256 or above | number of specifiers 2 | so many specifiers by the rules

`TemplateRecord.Defines` is this grammar of the body of a template set.  `readAll` accepts exactly
what it derives, and reads the records that were derived (`readAll_eq_ok_iff`).

The reader goes on for as long as a record header can follow.  `readAllWithin` is the same loop
with a limit on its turns; as every turn takes four octets or more, a fourth of the octets is limit
enough (`readAllWithin_eq`).
-/
import FlowExport.Proofs.Wire.FieldSpecifier
import FlowExport.Wire.FullMessage

namespace FlowExport.TemplateRecord

/-! ## 1. The grammar -/

/-- **The octets of a template record**: its id, the number of its specifiers, and these. -/
def octets (t : TemplateRecord) : List UInt8 :=
  Octets.ofNat 2 t.template.toNat ++ Octets.ofNat 2 t.fields.length ++ t.fields.flatMap (·.encode)

/-- **A template record of the grammar.** -/
structure Grammatical (t : TemplateRecord) : Prop where
  id_ge : minTemplateId ≤ t.template
  /-- The number of specifiers has two octets. -/
  count_lt : t.fields.length < UInt16.size
  valid : ∀ f ∈ t.fields, f.Valid

/-- **A body that defines templates**: their records, and padding that is too short for another. -/
structure Defines (body : List UInt8) (records : List TemplateRecord) : Prop where
  grammatical : ∀ t ∈ records, t.Grammatical
  octets : ∃ padding : List UInt8, padding.length < 4 ∧ body = records.flatMap octets ++ padding

/-! ## 2. The reader -/

theorem exists_header {bytes : List UInt8} (h : 4 ≤ bytes.length) :
    ∃ i₁ i₀ c₁ c₀ rest, bytes = i₁ :: i₀ :: c₁ :: c₀ :: rest := by
  match bytes, h with
  | i₁ :: i₀ :: c₁ :: c₀ :: rest, _ => exact ⟨i₁, i₀, c₁, c₀, rest, rfl⟩

theorem readAll_padding {bytes : List UInt8} (h : bytes.length < 4) : readAll bytes = .ok [] := by
  unfold readAll
  split
  · simp only [List.length_cons] at h
    omega
  · rfl

/-- One turn of the reader. -/
theorem readAll_header (i₁ i₀ c₁ c₀ : UInt8) (rest : List UInt8) :
    readAll (i₁ :: i₀ :: c₁ :: c₀ :: rest)
      = if Octets.word16 i₁ i₀ < minTemplateId then
          .error (.malformedSet templateSetId (.reservedTemplate (Octets.word16 i₁ i₀)))
        else
          match FieldSpecifier.readMany (Octets.word16 c₁ c₀).toNat rest with
          | .error e => .error e
          | .ok (fields, rest) => (readAll rest).map (⟨Octets.word16 i₁ i₀, fields⟩ :: ·) := by
  rw [readAll]
  split
  · rfl
  · split
    · rename_i e he
      rw [he]
    · rename_i fields rest' he
      rw [he]
      cases hrest : readAll rest' with
      | error e => simp [hrest, Except.map, bind, Except.bind]
      | ok records => simp [hrest, Except.map, bind, Except.bind, pure, Except.pure]

/-- **A record is read back**, and the reader goes on behind it. -/
theorem readAll_octets_append {t : TemplateRecord} (h : t.Grammatical) (rest : List UInt8) :
    readAll (t.octets ++ rest) = (readAll rest).map (t :: ·) := by
  obtain ⟨i₁, i₀, hi, hid⟩ := Octets.ofNat_two t.template.toNat
  obtain ⟨c₁, c₀, hc, hcount⟩ := Octets.ofNat_two t.fields.length
  rw [UInt16.ofNat_toNat] at hid
  have hn : (Octets.word16 c₁ c₀).toNat = t.fields.length := by
    rw [hcount, UInt16.toNat_ofNat', Nat.mod_eq_of_lt h.count_lt]
  rw [octets, hi, hc]
  simp only [List.cons_append, List.nil_append]
  rw [readAll_header, hid, if_neg (UInt16.not_lt.mpr h.id_ge), hn,
    FieldSpecifier.readMany_flatMap_encode h.valid]

theorem Defines.readAll {body : List UInt8} {records : List TemplateRecord}
    (h : Defines body records) : readAll body = .ok records := by
  obtain ⟨hg, padding, hp, rfl⟩ := h
  induction records with
  | nil => exact readAll_padding hp
  | cons t records ih =>
    rw [List.flatMap_cons, List.append_assoc, readAll_octets_append (hg t List.mem_cons_self),
      ih fun t' ht' => hg t' (List.mem_cons_of_mem _ ht')]
    rfl

/-- **Nothing but template records is read**, and what is left is padding. -/
theorem defines_of_readAll {body : List UInt8} {records : List TemplateRecord}
    (h : readAll body = .ok records) : Defines body records := by
  induction body using (measure List.length).wf.induction generalizing records with
  | _ body ih =>
  rcases Nat.lt_or_ge body.length 4 with hshort | hlong
  · rw [readAll_padding hshort] at h
    obtain rfl := Except.ok.inj h
    exact ⟨fun t ht => absurd ht List.not_mem_nil, body, hshort, rfl⟩
  · obtain ⟨i₁, i₀, c₁, c₀, tail, rfl⟩ := exists_header hlong
    rw [readAll_header] at h
    split at h
    · simp at h
    · rename_i hid
      split at h
      · simp at h
      · rename_i fields rest hread
        obtain ⟨others, hrest, rfl⟩ := FieldSpecifier.map_eq_ok h
        obtain ⟨hcount, hvalid, htail⟩ := FieldSpecifier.eq_flatMap_encode_of_readMany hread
        have hshorter := FieldSpecifier.length_le_of_readMany hread
        have hlt : rest.length < (i₁ :: i₀ :: c₁ :: c₀ :: tail).length := by
          simp only [List.length_cons]
          omega
        obtain ⟨hg, padding, hp, hbody⟩ := ih rest hlt hrest
        refine ⟨fun t ht => ?_, padding, hp, ?_⟩
        · rcases List.mem_cons.mp ht with rfl | ht
          · exact ⟨UInt16.not_lt.mp hid, by rw [hcount]; exact (Octets.word16 c₁ c₀).toNat_lt,
              hvalid⟩
          · exact hg t ht
        · rw [List.flatMap_cons, List.append_assoc, ← hbody, octets, hcount,
            Octets.ofNat_word16, Octets.ofNat_word16, htail]
          rfl

/-- **The bodies that are accepted are those that define templates.** -/
theorem readAll_eq_ok_iff {body : List UInt8} {records : List TemplateRecord} :
    TemplateRecord.readAll body = .ok records ↔ Defines body records :=
  ⟨defines_of_readAll, Defines.readAll⟩

/-! ## 3. Turns -/

/-- **The reader with a limit on its turns**: nothing where it would take more. -/
def readAllWithin : (turns : Nat) → List UInt8 → Option (Except CodecError (List TemplateRecord))
  | turns, i₁ :: i₀ :: c₁ :: c₀ :: rest =>
    match turns with
    | 0 => none
    | turns + 1 =>
      let template := Octets.word16 i₁ i₀
      if template < minTemplateId then
        some (.error (.malformedSet templateSetId (.reservedTemplate template)))
      else
        match FieldSpecifier.readMany (Octets.word16 c₁ c₀).toNat rest with
        | .error e => some (.error e)
        | .ok (fields, rest) => (readAllWithin turns rest).map (·.map (⟨template, fields⟩ :: ·))
  | _, _ => some (.ok [])

theorem readAllWithin_padding {turns : Nat} {bytes : List UInt8} (h : bytes.length < 4) :
    readAllWithin turns bytes = some (.ok []) := by
  unfold readAllWithin
  split
  · simp only [List.length_cons] at h
    omega
  · rfl

/-- **The reader stops**: every turn takes a record header at least. -/
theorem readAllWithin_eq {turns : Nat} {bytes : List UInt8} (h : bytes.length / 4 ≤ turns) :
    readAllWithin turns bytes = some (TemplateRecord.readAll bytes) := by
  induction turns generalizing bytes with
  | zero =>
    have hshort : bytes.length < 4 := by omega
    rw [readAll_padding hshort, readAllWithin_padding hshort]
  | succ turns ih =>
    rcases Nat.lt_or_ge bytes.length 4 with hshort | hlong
    · rw [readAll_padding hshort, readAllWithin_padding hshort]
    · obtain ⟨i₁, i₀, c₁, c₀, tail, rfl⟩ := exists_header hlong
      rw [readAll_header, readAllWithin]
      split
      · rfl
      · split
        · rfl
        · rename_i fields rest hread
          have hshorter := FieldSpecifier.length_le_of_readMany hread
          simp only [List.length_cons] at h
          rw [ih (by omega)]
          rfl

end FlowExport.TemplateRecord

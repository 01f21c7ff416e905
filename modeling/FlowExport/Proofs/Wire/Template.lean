/-
# Templates and what is cut by them

A template of a list of elements has exactly these elements (`Template.ofElements_ok`), its
specifiers obey the rules, and its records, unless it has no elements, are of one width that is not
zero.

A body is accepted exactly as a whole number of records (`TemplateRecord.records_eq_ok_iff`).  So
whoever has the specifiers can take apart what the elements put together: a body into records
(`TemplateRecord.records_flatMap_encodeRecord`) and a record into fields
(`TemplateRecord.fieldValues_encodeRecord`).
-/
import FlowExport.Proofs.Wire.Draft
import FlowExport.Wire.FullMessage

namespace FlowExport

/-! ## 1. Templates from their elements -/

namespace Template

variable {R : Type}

theorem foldlM_add_ok {elements : List (Element R)} {t₀ t : Template R}
    (h : elements.foldlM add t₀ = .ok t) :
    t.id = t₀.id ∧ t.elements = t₀.elements ++ elements := by
  induction elements generalizing t₀ with
  | nil =>
    simp only [List.foldlM_nil, pure, Except.pure, Except.ok.injEq] at h
    subst h
    simp
  | cons e elements ih =>
    rw [List.foldlM_cons] at h
    by_cases hl : t₀.elements.length < maxElements
    · rw [add, dif_pos hl] at h
      obtain ⟨hid, hel⟩ := ih h
      exact ⟨hid, by rw [hel, List.append_assoc]; rfl⟩
    · rw [add, dif_neg hl] at h
      simp [bind, Except.bind] at h

/-- **A template of elements** has its id and exactly these elements. -/
theorem ofElements_ok {id : UInt16} {elements : List (Element R)} {t : Template R}
    (h : ofElements id elements = .ok t) : t.id = id ∧ t.elements = elements := by
  unfold ofElements at h
  by_cases hid : minTemplateId ≤ id
  · rw [empty, dif_pos hid] at h
    exact foldlM_add_ok h
  · rw [empty, dif_neg hid] at h
    simp [bind, Except.bind] at h

theorem exists_foldlM_add {elements : List (Element R)} {t₀ : Template R}
    (h : t₀.elements.length + elements.length ≤ maxElements) :
    ∃ t, elements.foldlM add t₀ = .ok t := by
  induction elements generalizing t₀ with
  | nil => exact ⟨t₀, rfl⟩
  | cons e elements ih =>
    rw [List.length_cons] at h
    rw [List.foldlM_cons, add, dif_pos (by omega)]
    refine ih ?_
    rw [List.length_append, List.length_singleton]
    omega

/-- **There is a template of any elements** that are not too many. -/
theorem exists_ofElements {id : UInt16} (hid : minTemplateId ≤ id) {elements : List (Element R)}
    (h : elements.length ≤ maxElements) : ∃ t, ofElements id elements = .ok t := by
  rw [ofElements, empty, dif_pos hid]
  exact exists_foldlM_add (by simpa using h)

theorem valid_of_mem_specifiers {t : Template R} {s : FieldSpecifier} (h : s ∈ t.specifiers) :
    s.Valid := by
  obtain ⟨e, -, rfl⟩ := List.mem_map.mp h
  exact e.valid

theorem length_specifiers (t : Template R) : t.specifiers.length = t.elements.length :=
  List.length_map _

theorem length_flatMap_specifiers (t : Template R) :
    (t.specifiers.flatMap (·.encode)).length = t.specifiersLength := by
  rw [specifiersLength, List.length_flatMap]
  simp

theorem length_encoded_records (t : Template R) (records : List R) :
    (records.map t.encodeRecord).flatten.length = records.length * t.recordWidth := by
  rw [← List.flatMap_def]
  exact Draft.length_flatMap_encodeRecord t records

theorem recordWidth_pos {t : Template R} (h : t.elements ≠ []) : 0 < t.recordWidth := by
  obtain ⟨e, elements, he⟩ := List.exists_cons_of_ne_nil h
  rw [recordWidth, he, List.map_cons, total_eq_sum, List.sum_cons]
  exact Nat.lt_of_lt_of_le e.size_pos (Nat.le_add_right _ _)

/-- Records are of the width of their template. -/
theorem length_of_mem_encoded {t : Template R} {records : List R} {r : List UInt8}
    (hr : r ∈ records.map t.encodeRecord) : r.length = t.recordWidth := by
  obtain ⟨record, -, rfl⟩ := List.mem_map.mp hr
  exact t.length_encodeRecord record

end Template

/-! ## 2. What is cut by a template -/

namespace TemplateRecord

section Bodies

variable {t : TemplateRecord} {body : List UInt8}

/-- The reader's test is that there is a whole number of records. -/
theorem cuts_iff : ¬ (t.recordWidth = 0 ∨ body.length % t.recordWidth ≠ 0) ↔
    0 < t.recordWidth ∧ t.recordWidth ∣ body.length := by
  rw [not_or, not_not, Nat.pos_iff_ne_zero, Nat.dvd_iff_mod_eq_zero]

theorem records_ok (h : 0 < t.recordWidth ∧ t.recordWidth ∣ body.length) :
    t.records body = .ok (Octets.pieces t.recordWidth body) :=
  if_neg (cuts_iff.mpr h)

theorem records_error (h : ¬ (0 < t.recordWidth ∧ t.recordWidth ∣ body.length)) :
    t.records body = .error (.recordWidthMismatch t.template t.recordWidth body.length) :=
  if_pos (not_not.mp (mt cuts_iff.mp h))

/-- **A body is accepted exactly as a whole number of records**, and cut where they join. -/
theorem records_eq_ok_iff {rows : List (List UInt8)} : t.records body = .ok rows ↔
    (0 < t.recordWidth ∧ t.recordWidth ∣ body.length) ∧
      rows = Octets.pieces t.recordWidth body := by
  by_cases h : 0 < t.recordWidth ∧ t.recordWidth ∣ body.length
  · rw [records_ok h, Except.ok.injEq]
    exact ⟨fun heq => ⟨h, heq.symm⟩, fun heq => heq.2.symm⟩
  · rw [records_error h]
    exact ⟨fun heq => by simp at heq, fun heq => absurd heq.1 h⟩

/-- **Rows of the template's width** are found again in the body that they make up. -/
theorem records_flatten {rows : List (List UInt8)} (hpos : 0 < t.recordWidth)
    (h : ∀ r ∈ rows, r.length = t.recordWidth) : t.records rows.flatten = .ok rows := by
  have hdvd : t.recordWidth ∣ rows.flatten.length := by
    rw [Octets.length_flatten_of_length h]
    exact Nat.dvd_mul_left _ _
  rw [records_ok ⟨hpos, hdvd⟩, Octets.pieces_flatten hpos h]

end Bodies

/-- **Fields behind a record** are cut behind it. -/
theorem slices_append {fields more : List FieldSpecifier} {record rest : List UInt8}
    (h : record.length = total (fields.map (·.size.toNat))) :
    slices (fields ++ more) (record ++ rest) = slices fields record ++ slices more rest := by
  induction fields generalizing record with
  | nil =>
    obtain rfl : record = [] := List.length_eq_zero_iff.mp h
    rfl
  | cons field fields ih =>
    rw [List.map_cons, total_eq_sum, List.sum_cons] at h
    have hle : field.size.toNat ≤ record.length := by omega
    have hrest : (record.drop field.size.toNat).length
        = total (fields.map (·.size.toNat)) := by
      rw [List.length_drop, total_eq_sum]
      omega
    rw [List.cons_append, slices, List.take_append_of_le_length hle,
      List.drop_append_of_le_length hle, ih hrest]
    rfl

variable {R : Type} (t : Template R)

/-- The template as a message defines it. -/
def ofTemplate : TemplateRecord :=
  ⟨t.id, t.specifiers⟩

theorem recordWidth_ofTemplate : (ofTemplate t).recordWidth = t.recordWidth := by
  rw [recordWidth, Template.recordWidth, ofTemplate, Template.specifiers, List.map_map]
  rfl

/-- **Records are cut where they were joined.** -/
theorem records_flatMap_encodeRecord (h : t.elements ≠ []) (data : List R) :
    (ofTemplate t).records (data.flatMap t.encodeRecord) = .ok (data.map t.encodeRecord) := by
  have hwidth := recordWidth_ofTemplate t
  rw [List.flatMap_def]
  refine records_flatten ?_ fun r hr => ?_
  · rw [hwidth]
    exact Template.recordWidth_pos h
  · rw [hwidth]
    exact Template.length_of_mem_encoded hr

theorem slices_fields (record : R) : ∀ elements : List (Element R),
    slices (elements.map (·.specifier)) (elements.map (·.field record)).flatten
      = elements.map fun e => (e.specifier, e.field record)
  | [] => rfl
  | e :: elements => by
    have hlen : (e.field record).length = e.specifier.size.toNat := e.length_field record
    rw [List.map_cons, List.map_cons, List.flatten_cons, slices, ← hlen, List.take_left,
      List.drop_left, slices_fields record elements, List.map_cons]

/-- **Fields are cut where they were joined.** -/
theorem fieldValues_encodeRecord (record : R) :
    (ofTemplate t).fieldValues (t.encodeRecord record)
      = t.elements.map fun e => (e.specifier, e.field record) :=
  slices_fields record t.elements

end TemplateRecord

end FlowExport

/-
# Data bodies under a template

A data body is octets and nothing else; the template says how many make a record and how many of
these make each field.  A body is cut only if it is a whole number of records of a width above zero
(`records_eq_ok_iff`), so that no octet is left over, and a record is as long as its fields together,
so that the reader's offset ends where the record does (`flatten_slices`).  A field without octets,
which no specifier that was made has but a template may list, takes none and moves no other.
-/
import FlowExport.Proofs.Checked.Reading

namespace FlowExport.TemplateRecord

/-! ## 1. Fields -/

theorem map_fst_slices (fields : List FieldSpecifier) (record : List UInt8) :
    (slices fields record).map Prod.fst = fields := by
  induction fields generalizing record with
  | nil => rfl
  | cons field fields ih => rw [slices, List.map_cons, ih]

/-- Each slice has the octets of its field, where the record is long enough for all. -/
theorem length_of_mem_slices {fields : List FieldSpecifier} {record : List UInt8}
    (h : (fields.map (·.size.toNat)).sum ≤ record.length) :
    ∀ value ∈ slices fields record, value.2.length = value.1.size.toNat := by
  induction fields generalizing record with
  | nil => exact fun value hv => absurd hv List.not_mem_nil
  | cons field fields ih =>
    rw [List.map_cons, List.sum_cons] at h
    intro value hv
    rw [slices] at hv
    rcases List.mem_cons.mp hv with rfl | hv
    · rw [List.length_take, Nat.min_eq_left (by omega)]
    · refine ih ?_ value hv
      rw [List.length_drop]
      omega

/-- **The slices make up the record** that is as long as its fields together. -/
theorem flatten_slices {fields : List FieldSpecifier} {record : List UInt8}
    (h : record.length = (fields.map (·.size.toNat)).sum) :
    ((slices fields record).map Prod.snd).flatten = record := by
  induction fields generalizing record with
  | nil => exact (List.length_eq_zero_iff.mp h).symm
  | cons field fields ih =>
    rw [List.map_cons, List.sum_cons] at h
    have hrest : (record.drop field.size.toNat).length = (fields.map (·.size.toNat)).sum := by
      rw [List.length_drop]
      omega
    rw [slices, List.map_cons, List.flatten_cons, ih hrest, List.take_append_drop]

/-! ## 2. The whole body -/

/-- **A data body is cut without a gap.**  Under any list of fields, with or without empty ones, the
width of a record is the sum of the fields' sizes, and a body is cut into records exactly if that
width is above zero and divides its length; any other body is refused.  The records then have that
width and make up the body, and in each of them the reader, which goes from offset to offset and
never past the end, pairs the fields in order with slices of exactly their sizes that make up the
record. -/
theorem data_body_cut (t : TemplateRecord) (body : List UInt8) :
    let width := (t.fields.map (·.size.toNat)).sum
    t.recordWidth = width ∧
    ((∃ rows, t.records body = .ok rows) ↔ 0 < width ∧ width ∣ body.length) ∧
    (¬ (0 < width ∧ width ∣ body.length) →
      t.records body = .error (.recordWidthMismatch t.template width body.length)) ∧
    Checked.templateRecordsOf t body = some (t.records body) ∧
    ∀ rows, t.records body = .ok rows →
      (∀ row ∈ rows, row.length = width) ∧ rows.flatten = body ∧
      ∀ row ∈ rows,
        Checked.fieldValuesFrom row 0 t.fields = some (t.fieldValues row) ∧
        (t.fieldValues row).map Prod.fst = t.fields ∧
        (∀ value ∈ t.fieldValues row, value.2.length = value.1.size.toNat) ∧
        ((t.fieldValues row).map Prod.snd).flatten = row := by
  intro width
  have hwidth : t.recordWidth = width := total_eq_sum _
  refine ⟨hwidth, ?_, ?_, Checked.templateRecordsOf_eq t body, ?_⟩
  · rw [← hwidth]
    constructor
    · rintro ⟨rows, h⟩
      exact (records_eq_ok_iff.mp h).1
    · exact fun h => ⟨_, records_ok h⟩
  · rw [← hwidth]
    exact records_error
  · intro rows h
    obtain ⟨⟨-, hdvd⟩, rfl⟩ := records_eq_ok_iff.mp h
    have hlength : ∀ row ∈ Octets.pieces t.recordWidth body, row.length = width :=
      fun row hrow => (Octets.length_of_mem_pieces hrow).trans hwidth
    refine ⟨hlength, Octets.flatten_pieces hdvd, fun row hrow => ?_⟩
    exact ⟨Checked.fieldValuesFrom_of_mem_records h hrow, map_fst_slices t.fields row,
      length_of_mem_slices (Nat.le_of_eq (hlength row hrow).symm),
      flatten_slices (hlength row hrow)⟩

/-- Two records of three fields, of which the second is empty; and a body with an octet too many. -/
theorem data_body_cut_emptyField :
    let t : TemplateRecord := ⟨256, [⟨1, 2, 0⟩, ⟨2, 0, 0⟩, ⟨4, 1, 0⟩]⟩
    let rows : List (List UInt8) := [[1, 2, 3], [4, 5, 6]]
    t.records [1, 2, 3, 4, 5, 6] = .ok rows ∧ rows.flatten = [1, 2, 3, 4, 5, 6] ∧
      (∀ row ∈ rows, row.length = 3 ∧ ((t.fieldValues row).map Prod.snd).flatten = row ∧
        ∀ value ∈ t.fieldValues row, value.2.length = value.1.size.toNat) ∧
      ¬ (0 < 3 ∧ 3 ∣ 7) ∧
      t.records [1, 2, 3, 4, 5, 6, 7] = .error (.recordWidthMismatch 256 3 7) := by
  intro t rows
  have hrows : t.records [1, 2, 3, 4, 5, 6] = .ok rows := by decide
  obtain ⟨-, -, -, -, hcut⟩ := data_body_cut t [1, 2, 3, 4, 5, 6]
  obtain ⟨hlength, hbody, hfields⟩ := hcut rows hrows
  obtain ⟨-, -, hrefused, -⟩ := data_body_cut t [1, 2, 3, 4, 5, 6, 7]
  refine ⟨hrows, hbody, fun row hrow => ?_, by decide, hrefused (by decide)⟩
  obtain ⟨-, -, hsizes, hrow'⟩ := hfields row hrow
  exact ⟨hlength row hrow, hrow', hsizes⟩

end FlowExport.TemplateRecord

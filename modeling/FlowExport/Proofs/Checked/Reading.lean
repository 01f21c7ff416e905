/-
# Reading with every operation checked

An index past the end, a range that ends before it starts or behind the list, a division by zero:
each of these stops a program.  The readers of the library cut lists by patterns, `take` and
`drop`, where none of it can happen; a reader that works on raw octets indexes, cuts ranges and
divides.  Here every reader is written a second time with these operations, each of which is an
`Option` and is nothing where a program would stop, and every reader is shown never to come to
nothing and to return what its twin in the library returns.

For the readers that check as they go (`parse_eq`, `decode_eq`) this holds for all octets.  The
accessors of a message read the lengths in it again and do not check them (`cutSet`): there it
holds because the message was accepted (`sets_of_parse`).  What reads a single set needs nothing:
the accessors of a data set are total on any body, and so are those of a template set
(`records_eq`, `specifiers_eq`).
-/
import FlowExport.Proofs.Wire.FullGrammar
import FlowExport.Proofs.Wire.Grammar
import FlowExport.Proofs.Wire.Template

namespace FlowExport.Checked

/-! ## 1. Operations that can stop a program -/

section Operations

variable {α : Type}

/-- **The range from `start` up to `stop`**, if it lies within the list. -/
def slice (xs : List α) (start stop : Nat) : Option (List α) :=
  if start ≤ stop ∧ stop ≤ xs.length then some ((xs.take stop).drop start) else none

/-- The difference, if it is not below zero. -/
def sub (a b : Nat) : Option Nat :=
  if b ≤ a then some (a - b) else none

/-- The quotient, if the divisor is not zero. -/
def div (a b : Nat) : Option Nat :=
  if b = 0 then none else some (a / b)

/-- The remainder, if the divisor is not zero. -/
def mod (a b : Nat) : Option Nat :=
  if b = 0 then none else some (a % b)

/-- The pieces of a width, if the width is not zero. -/
def chunks (width : Nat) (bytes : List UInt8) : Option (List (List UInt8)) :=
  if width = 0 then none else some (Octets.pieces width bytes)

/-- The word at an offset, if both its octets are there. -/
def word16At (bytes : List UInt8) (offset : Nat) : Option UInt16 := do
  let hi ← bytes[offset]?
  let lo ← bytes[offset + 1]?
  return Octets.word16 hi lo

/-- The double word at an offset, if all its octets are there. -/
def word32At (bytes : List UInt8) (offset : Nat) : Option UInt32 := do
  let a ← bytes[offset]?
  let b ← bytes[offset + 1]?
  let c ← bytes[offset + 2]?
  let d ← bytes[offset + 3]?
  return Octets.word32 a b c d

theorem slice_eq {xs : List α} {start stop : Nat} (h₁ : start ≤ stop) (h₂ : stop ≤ xs.length) :
    slice xs start stop = some ((xs.take stop).drop start) :=
  if_pos ⟨h₁, h₂⟩

/-- The range in front of an end. -/
theorem slice_front {xs : List α} {stop : Nat} (h : stop ≤ xs.length) :
    slice xs 0 stop = some (xs.take stop) :=
  slice_eq (Nat.zero_le _) h

/-- The range behind a start. -/
theorem slice_back {xs : List α} {start : Nat} (h : start ≤ xs.length) :
    slice xs start xs.length = some (xs.drop start) := by
  rw [slice_eq h (Nat.le_refl _), List.take_length]

theorem length_of_slice {xs ys : List α} {start stop : Nat} (h : slice xs start stop = some ys) :
    start ≤ stop ∧ stop ≤ xs.length ∧ ys.length = stop - start := by
  unfold slice at h
  split at h
  · rename_i hr
    obtain rfl := Option.some.inj h
    refine ⟨hr.1, hr.2, ?_⟩
    rw [List.length_drop, List.length_take, Nat.min_eq_left hr.2]
  · simp at h

theorem sub_eq {a b : Nat} (h : b ≤ a) : sub a b = some (a - b) :=
  if_pos h

theorem div_eq {a b : Nat} (h : b ≠ 0) : div a b = some (a / b) :=
  if_neg h

theorem mod_eq {a b : Nat} (h : b ≠ 0) : mod a b = some (a % b) :=
  if_neg h

theorem chunks_eq {width : Nat} {bytes : List UInt8} (h : width ≠ 0) :
    chunks width bytes = some (Octets.pieces width bytes) :=
  if_neg h

end Operations

/-! ## 2. Specifiers -/

/-- **One specifier and the octets it takes.** -/
def readSpecifier (bytes : List UInt8) : Option (Except CodecError (FieldSpecifier × Nat)) :=
  if bytes.length < 4 then some (.error (.truncated 4 bytes.length))
  else do
    let id ← word16At bytes 0
    let size ← word16At bytes 2
    if FieldSpecifier.hasEnterpriseBit id then
      if bytes.length < 8 then some (.error (.truncated 8 bytes.length))
      else do
        let enterprise ← word32At bytes 4
        return (FieldSpecifier.make id size enterprise).map (·, 8)
    else return (FieldSpecifier.make id size 0).map (·, 4)

/-- What follows the octets that a specifier takes. -/
def behind (bytes : List UInt8) : Except CodecError (FieldSpecifier × Nat) →
    Option (Except CodecError (FieldSpecifier × List UInt8))
  | .error e => some (.error e)
  | .ok (specifier, used) => do
    let rest ← slice bytes used bytes.length
    return .ok (specifier, rest)

/-- **One specifier and what follows it.** -/
def takeSpecifier (bytes : List UInt8) :
    Option (Except CodecError (FieldSpecifier × List UInt8)) := do
  behind bytes (← readSpecifier bytes)

/-- So many specifiers in a row, and what follows them. -/
def takeSpecifiers :
    (count : Nat) → List UInt8 → Option (Except CodecError (List FieldSpecifier × List UInt8))
  | 0, bytes => some (.ok ([], bytes))
  | count + 1, bytes => do
    match ← takeSpecifier bytes with
    | .error e => return .error e
    | .ok (specifier, bytes) =>
      match ← takeSpecifiers count bytes with
      | .error e => return .error e
      | .ok (specifiers, bytes) => return .ok (specifier :: specifiers, bytes)

theorem behind_eq {bytes : List UInt8} {used : Nat} (h : used ≤ bytes.length)
    (made : Except CodecError FieldSpecifier) :
    behind bytes (made.map (·, used)) = some (made.map (·, bytes.drop used)) := by
  cases made with
  | error e => rfl
  | ok specifier =>
    simp only [behind, Except.map, slice_back h, Option.bind_eq_bind, Option.bind_some,
      Option.pure_def]

theorem takeSpecifier_eq (bytes : List UInt8) :
    takeSpecifier bytes = some (FieldSpecifier.read bytes) := by
  rcases bytes with _ | ⟨i₁, _ | ⟨i₀, _ | ⟨s₁, _ | ⟨s₀, rest⟩⟩⟩⟩
  · rfl
  · rfl
  · rfl
  · rfl
  · have hid : word16At (i₁ :: i₀ :: s₁ :: s₀ :: rest) 0 = some (Octets.word16 i₁ i₀) := rfl
    have hsize : word16At (i₁ :: i₀ :: s₁ :: s₀ :: rest) 2 = some (Octets.word16 s₁ s₀) := rfl
    have hlong : 4 ≤ (i₁ :: i₀ :: s₁ :: s₀ :: rest).length := Nat.le_add_left _ _
    simp only [takeSpecifier, readSpecifier, if_neg (Nat.not_lt.mpr hlong), hid, hsize,
      FieldSpecifier.read, Option.bind_eq_bind, Option.bind_some, Option.pure_def]
    cases FieldSpecifier.hasEnterpriseBit (Octets.word16 i₁ i₀) with
    | false => exact behind_eq hlong _
    | true =>
      rcases rest with _ | ⟨e₃, _ | ⟨e₂, _ | ⟨e₁, _ | ⟨e₀, rest⟩⟩⟩⟩
      · rfl
      · rfl
      · rfl
      · rfl
      · have hlong' : 8 ≤ (i₁ :: i₀ :: s₁ :: s₀ :: e₃ :: e₂ :: e₁ :: e₀ :: rest).length :=
          Nat.le_add_left _ _
        rw [if_neg (Nat.not_lt.mpr hlong')]
        exact behind_eq hlong' _

theorem takeSpecifiers_eq (count : Nat) (bytes : List UInt8) :
    takeSpecifiers count bytes = some (FieldSpecifier.readMany count bytes) := by
  induction count generalizing bytes with
  | zero => rfl
  | succ count ih =>
    simp only [takeSpecifiers, takeSpecifier_eq, FieldSpecifier.readMany, Option.bind_some,
      bind, Except.bind]
    cases FieldSpecifier.read bytes with
    | error e => rfl
    | ok first =>
      simp only [ih, Option.bind_some]
      cases FieldSpecifier.readMany count first.2 with
      | error e => rfl
      | ok others => rfl

/-- **The specifiers of a body**, read until none is left or one cannot be read. -/
def readAll (bytes : List UInt8) : Option (List FieldSpecifier) :=
  if bytes.isEmpty then some []
  else
    match _h : takeSpecifier bytes with
    | none => none
    | some (.error _) => some []
    | some (.ok (specifier, rest)) => (readAll rest).map (specifier :: ·)
termination_by bytes.length
decreasing_by
  rw [takeSpecifier_eq] at _h
  exact FieldSpecifier.length_lt_of_read (Option.some.inj _h)

theorem readAll_eq (bytes : List UInt8) : readAll bytes = some (FieldSpecifier.readAll bytes) := by
  induction bytes using (measure List.length).wf.induction with
  | _ bytes ih =>
  rw [readAll]
  split
  · rename_i hnil
    rw [List.isEmpty_iff.mp hnil, FieldSpecifier.readAll]
    rfl
  · rw [FieldSpecifier.readAll]
    split
    · rename_i hnone
      rw [takeSpecifier_eq] at hnone
      simp at hnone
    · rename_i e herr
      rw [takeSpecifier_eq] at herr
      rw [Option.some.inj herr]
    · rename_i specifier rest hok
      rw [takeSpecifier_eq] at hok
      have hread := Option.some.inj hok
      rw [hread, ih rest (FieldSpecifier.length_lt_of_read hread)]
      rfl

/-! ## 3. Frames -/

/-- **One frame and what follows it.** -/
def takeFrame (name : UInt8 × UInt8 → UInt16) (bytes : List UInt8) :
    Option (Except CodecError (Frame × List UInt8)) :=
  if bytes.length < Frame.headerLength then
    some (.error (.truncated Frame.headerLength bytes.length))
  else do
    let a ← bytes[0]?
    let b ← bytes[1]?
    let length ← word16At bytes 2
    if length.toNat < Frame.headerLength ∨ bytes.length < length.toNat then
      return .error (.malformedSet (name (a, b)) (.lengthMismatch length bytes.length))
    else
      let body ← slice bytes Frame.headerLength length.toNat
      let rest ← slice bytes length.toNat bytes.length
      return .ok (⟨(a, b), body⟩, rest)

theorem takeFrame_eq (name : UInt8 × UInt8 → UInt16) (bytes : List UInt8) :
    takeFrame name bytes = some (Frame.read name bytes) := by
  rcases bytes with _ | ⟨a, _ | ⟨b, _ | ⟨hi, _ | ⟨lo, rest⟩⟩⟩⟩
  · rfl
  · rfl
  · rfl
  · rfl
  · have h₀ : (a :: b :: hi :: lo :: rest)[0]? = some a := rfl
    have h₁ : (a :: b :: hi :: lo :: rest)[1]? = some b := rfl
    have hword : word16At (a :: b :: hi :: lo :: rest) 2 = some (Octets.word16 hi lo) := rfl
    have hlong : Frame.headerLength ≤ (a :: b :: hi :: lo :: rest).length := Nat.le_add_left _ _
    simp only [takeFrame, if_neg (Nat.not_lt.mpr hlong), h₀, h₁, hword, Frame.read,
      Option.bind_eq_bind, Option.bind_some, Option.pure_def]
    split
    · rfl
    · rename_i hfit
      rw [not_or, Nat.not_lt, Nat.not_lt] at hfit
      have hrest : (a :: b :: hi :: lo :: rest).drop (Octets.word16 hi lo).toNat
          = rest.drop ((Octets.word16 hi lo).toNat - Frame.headerLength) := by
        have h := List.drop_drop (l := a :: b :: hi :: lo :: rest)
          (i := (Octets.word16 hi lo).toNat - Frame.headerLength) (j := Frame.headerLength)
        rw [Nat.add_sub_cancel' hfit.1] at h
        exact h.symm
      rw [slice_eq hfit.1 hfit.2, slice_back hfit.2, List.drop_take, hrest]
      rfl

/-- **A whole body, frame by frame**, each put through a rule that may itself stop. -/
def walk {α : Type} (name : UInt8 × UInt8 → UInt16)
    (rule : Frame → Option (Except CodecError α)) (bytes : List UInt8) :
    Option (Except CodecError (List α)) :=
  if bytes.isEmpty then some (.ok [])
  else
    match _h : takeFrame name bytes with
    | none => none
    | some (.error e) => some (.error e)
    | some (.ok (frame, rest)) => do
      match ← rule frame with
      | .error e => return .error e
      | .ok value => return (← walk name rule rest).map (value :: ·)
termination_by bytes.length
decreasing_by
  rw [takeFrame_eq] at _h
  exact Frame.length_lt_of_read (Option.some.inj _h)

/-- **A walk under a rule that never stops** never stops. -/
theorem walk_eq {α : Type} {name : UInt8 × UInt8 → UInt16}
    {rule : Frame → Option (Except CodecError α)} {plain : Frame → Except CodecError α}
    (h : ∀ frame, rule frame = some (plain frame)) (bytes : List UInt8) :
    walk name rule bytes = some (Frame.walk name plain bytes) := by
  induction bytes using (measure List.length).wf.induction with
  | _ bytes ih =>
  rw [walk]
  split
  · rename_i hnil
    rw [List.isEmpty_iff.mp hnil, Frame.walk_nil]
  · rename_i hne
    rw [Frame.walk_of_ne_nil (by simpa using hne)]
    split
    · rename_i hnone
      rw [takeFrame_eq] at hnone
      simp at hnone
    · rename_i e herr
      rw [takeFrame_eq] at herr
      rw [Option.some.inj herr]
    · rename_i frame rest hok
      rw [takeFrame_eq] at hok
      have hread := Option.some.inj hok
      simp only [hread, h, Option.bind_eq_bind, Option.bind_some, Option.pure_def]
      cases plain frame with
      | error e => rfl
      | ok value =>
        simp only [ih rest (Frame.length_lt_of_read hread), Option.bind_some]

/-! ## 4. Full messages -/

/-- **The header of a full message.** -/
def readFullHeader (bytes : List UInt8) : Option (Except CodecError FullHeader) :=
  if bytes.length < Encoding.full.headerLength then
    some (.error (.truncated Encoding.full.headerLength bytes.length))
  else do
    let version ← word16At bytes 0
    let length ← word16At bytes 2
    let time ← word32At bytes 4
    let sequence ← word32At bytes 8
    let domain ← word32At bytes 12
    if version ≠ protocolVersion then
      return .error (.malformedHeader (.unsupportedVersion version))
    else if length.toNat < Encoding.full.headerLength ∨ bytes.length < length.toNat then
      return .error (.malformedHeader (.lengthMismatch length bytes.length))
    else return .ok ⟨version, length, time, sequence, domain⟩

theorem readFullHeader_eq (bytes : List UInt8) :
    readFullHeader bytes = some (FullHeader.read bytes) := by
  rcases Nat.lt_or_ge bytes.length Encoding.full.headerLength with hshort | hlong
  · rw [readFullHeader, if_pos hshort]
    unfold FullHeader.read
    split
    · simp only [List.length_cons, Encoding.headerLength] at hshort
      omega
    · rfl
  · have h16 : 16 ≤ bytes.length := hlong
    obtain ⟨v₁, v₀, l₁, l₀, rest₁, rfl⟩ :=
      TemplateRecord.exists_header (Nat.le_trans (by decide) h16)
    simp only [List.length_cons] at h16
    have h12 : 12 ≤ rest₁.length := by omega
    obtain ⟨t₃, t₂, t₁, t₀, rest₂, rfl⟩ :=
      TemplateRecord.exists_header (Nat.le_trans (by decide) h12)
    simp only [List.length_cons] at h12
    have h8 : 8 ≤ rest₂.length := by omega
    obtain ⟨s₃, s₂, s₁, s₀, rest₃, rfl⟩ :=
      TemplateRecord.exists_header (Nat.le_trans (by decide) h8)
    simp only [List.length_cons] at h8
    have h4 : 4 ≤ rest₃.length := by omega
    obtain ⟨d₃, d₂, d₁, d₀, rest, rfl⟩ := TemplateRecord.exists_header h4
    rw [readFullHeader, if_neg (Nat.not_lt.mpr hlong)]
    simp only [word16At, word32At, FullHeader.read, List.getElem?_cons_zero,
      List.getElem?_cons_succ, Option.bind_eq_bind, Option.bind_some, Option.pure_def]
    split
    · rfl
    · split
      · rfl
      · rfl

/-- **The template records of a set body.** -/
def templateRecords (bytes : List UInt8) : Option (Except CodecError (List TemplateRecord)) :=
  if bytes.length < 4 then some (.ok [])
  else do
    let template ← word16At bytes 0
    let count ← word16At bytes 2
    if template < minTemplateId then
      return .error (.malformedSet templateSetId (.reservedTemplate template))
    else
      match _h : (slice bytes 4 bytes.length).bind (takeSpecifiers count.toNat ·) with
      | none => none
      | some (.error e) => return .error e
      | some (.ok (fields, rest)) =>
        return (← templateRecords rest).map (⟨template, fields⟩ :: ·)
termination_by bytes.length
decreasing_by
  obtain ⟨body, hbody, hread⟩ := Option.bind_eq_some_iff.mp _h
  rw [takeSpecifiers_eq] at hread
  have := FieldSpecifier.length_le_of_readMany (Option.some.inj hread)
  have := length_of_slice hbody
  omega

theorem templateRecords_eq (bytes : List UInt8) :
    templateRecords bytes = some (TemplateRecord.readAll bytes) := by
  induction bytes using (measure List.length).wf.induction with
  | _ bytes ih =>
  rcases Nat.lt_or_ge bytes.length 4 with hshort | hlong
  · rw [templateRecords, if_pos hshort, TemplateRecord.readAll_padding hshort]
  · obtain ⟨i₁, i₀, c₁, c₀, rest, rfl⟩ := TemplateRecord.exists_header hlong
    have hid : word16At (i₁ :: i₀ :: c₁ :: c₀ :: rest) 0 = some (Octets.word16 i₁ i₀) := rfl
    have hcount : word16At (i₁ :: i₀ :: c₁ :: c₀ :: rest) 2 = some (Octets.word16 c₁ c₀) := rfl
    have hbody : (slice (i₁ :: i₀ :: c₁ :: c₀ :: rest) 4 (i₁ :: i₀ :: c₁ :: c₀ :: rest).length).bind
        (takeSpecifiers (Octets.word16 c₁ c₀).toNat ·)
        = some (FieldSpecifier.readMany (Octets.word16 c₁ c₀).toNat rest) := by
      rw [slice_back hlong, Option.bind_some, takeSpecifiers_eq]
      rfl
    rw [templateRecords, if_neg (Nat.not_lt.mpr hlong), TemplateRecord.readAll_header, hid, hcount]
    simp only [Option.bind_eq_bind, Option.bind_some, Option.pure_def]
    split
    · rfl
    · split
      · rename_i hnone
        rw [hbody] at hnone
        simp at hnone
      · rename_i e herr
        rw [hbody] at herr
        rw [Option.some.inj herr]
      · rename_i fields rest' hok
        rw [hbody] at hok
        have hread := Option.some.inj hok
        have hle := FieldSpecifier.length_le_of_readMany hread
        have hlt : rest'.length < (i₁ :: i₀ :: c₁ :: c₀ :: rest).length := by
          simp only [List.length_cons]
          omega
        rw [hread, ih rest' hlt]
        rfl

/-- **The set in a frame**, if it is of a kind that is read. -/
def fullSet (frame : Frame) : Option (Except CodecError (Option FullSet)) := do
  let id := Octets.word16 frame.lead.1 frame.lead.2
  if id = templateSetId then
    return (← templateRecords frame.body).map (some <| .templates ·)
  else if minTemplateId ≤ id then return .ok (some (.data id frame.body))
  else return .ok none

theorem fullSet_eq (frame : Frame) : fullSet frame = some (FullSet.ofFrame frame) := by
  simp only [fullSet, FullSet.ofFrame, templateRecords_eq, Option.bind_eq_bind, Option.bind_some,
    Option.pure_def]
  split
  · cases TemplateRecord.readAll frame.body with
    | error e => rfl
    | ok records => rfl
  · split
    · rfl
    · rfl

/-- **A full message.** -/
def decode (bytes : List UInt8) : Option (Except CodecError FullMessage) := do
  match ← readFullHeader bytes with
  | .error e => return .error e
  | .ok header =>
    let body ← slice bytes Encoding.full.headerLength header.length.toNat
    let sets ← walk (fun lead => Octets.word16 lead.1 lead.2) fullSet body
    return sets.map fun sets => ⟨header, sets.filterMap id⟩

/-- **Reading a full message never stops.** -/
theorem decode_eq (bytes : List UInt8) : decode bytes = some (FullMessage.decode bytes) := by
  simp only [decode, readFullHeader_eq, FullMessage.decode, Option.bind_some, Option.pure_def,
    bind, Except.bind]
  cases hh : FullHeader.read bytes with
  | error e => rfl
  | ok header =>
    obtain ⟨-, -, hge, hle⟩ := FullHeader.read_eq_ok_iff.mp hh
    have hbody : slice bytes Encoding.full.headerLength header.length.toNat
        = some ((bytes.take header.length.toNat).drop Encoding.full.headerLength) :=
      slice_eq hge hle
    simp only [hbody, Option.bind_some, walk_eq fullSet_eq]
    cases Frame.walk (fun lead => Octets.word16 lead.1 lead.2) FullSet.ofFrame
        ((bytes.take header.length.toNat).drop Encoding.full.headerLength) with
    | error e => rfl
    | ok sets => rfl

/-- **The records of a data body** under a template. -/
def templateRecordsOf (t : TemplateRecord) (body : List UInt8) :
    Option (Except CodecError (List (List UInt8))) :=
  if t.recordWidth = 0 then
    some (.error (.recordWidthMismatch t.template t.recordWidth body.length))
  else do
    if (← mod body.length t.recordWidth) ≠ 0 then
      return .error (.recordWidthMismatch t.template t.recordWidth body.length)
    else return .ok (← chunks t.recordWidth body)

/-- **Each field with its value**, cut out of the record from an offset on. -/
def fieldValuesFrom (record : List UInt8) :
    (offset : Nat) → List FieldSpecifier → Option (List (FieldSpecifier × List UInt8))
  | _, [] => some []
  | offset, field :: fields => do
    let value ← slice record offset (offset + field.size.toNat)
    let values ← fieldValuesFrom record (offset + field.size.toNat) fields
    return (field, value) :: values

/-- **Cutting a body into records never stops**, whatever the template and the body. -/
theorem templateRecordsOf_eq (t : TemplateRecord) (body : List UInt8) :
    templateRecordsOf t body = some (t.records body) := by
  unfold templateRecordsOf TemplateRecord.records
  by_cases hw : t.recordWidth = 0
  · rw [if_pos hw, if_pos (Or.inl hw)]
  · rw [if_neg hw, mod_eq hw, chunks_eq hw]
    simp only [Option.bind_eq_bind, Option.bind_some, Option.pure_def]
    by_cases hr : body.length % t.recordWidth = 0
    · rw [if_neg (not_not.mpr hr), if_neg (not_or.mpr ⟨hw, not_not.mpr hr⟩)]
    · rw [if_pos hr, if_pos (Or.inr hr)]

theorem fieldValuesFrom_eq {record : List UInt8} {fields : List FieldSpecifier} {offset : Nat}
    (h : offset + total (fields.map (·.size.toNat)) ≤ record.length) :
    fieldValuesFrom record offset fields
      = some (TemplateRecord.slices fields (record.drop offset)) := by
  induction fields generalizing offset with
  | nil => rfl
  | cons field fields ih =>
    simp only [total_eq_sum, List.map_cons, List.sum_cons] at h ih
    have hvalue : slice record offset (offset + field.size.toNat)
        = some ((record.drop offset).take field.size.toNat) := by
      rw [slice_eq (Nat.le_add_right _ _) (by omega), List.drop_take, Nat.add_sub_cancel_left]
    rw [fieldValuesFrom, hvalue, ih (by omega), TemplateRecord.slices, List.drop_drop]
    rfl

/-- **Cutting a record into fields never stops**, where the template yields the record. -/
theorem fieldValuesFrom_of_mem_records {t : TemplateRecord} {body record : List UInt8}
    {records : List (List UInt8)} (h : t.records body = .ok records) (hr : record ∈ records) :
    fieldValuesFrom record 0 t.fields = some (t.fieldValues record) := by
  obtain ⟨-, rfl⟩ := TemplateRecord.records_eq_ok_iff.mp h
  have hwidth : record.length = t.recordWidth := Octets.length_of_mem_pieces hr
  refine fieldValuesFrom_eq ?_
  rw [Nat.zero_add, hwidth]
  exact Nat.le_refl _

/-! ## 5. Compact messages -/

/-- **The header of a compact message.** -/
def readCompactHeader (bytes : List UInt8) : Option (Except CodecError CompactHeader) :=
  if bytes.length < Encoding.compact.headerLength then
    some (.error (.truncated Encoding.compact.headerLength bytes.length))
  else do
    let first ← bytes[0]?
    if first / 16 ≠ compactNibble then return .error (.malformedHeader (.notCompact first))
    else
      match Kind.ofCode? (first % 16) with
      | none => return .error (.malformedHeader (.unknownKind (first % 16)))
      | some kind =>
        let sequence ← word16At bytes 1
        let length ← word16At bytes 3
        if length.toNat < Encoding.compact.headerLength ∨ bytes.length < length.toNat then
          return .error (.malformedHeader (.lengthMismatch length bytes.length))
        else return .ok ⟨kind, sequence, length⟩

theorem readCompactHeader_eq (bytes : List UInt8) :
    readCompactHeader bytes = some (CompactHeader.read bytes) := by
  rcases bytes with _ | ⟨first, _ | ⟨s₁, _ | ⟨s₀, _ | ⟨l₁, _ | ⟨l₀, rest⟩⟩⟩⟩⟩
  · rfl
  · rfl
  · rfl
  · rfl
  · rfl
  · have hlong : Encoding.compact.headerLength ≤ (first :: s₁ :: s₀ :: l₁ :: l₀ :: rest).length :=
      Nat.le_add_left _ _
    rw [readCompactHeader, if_neg (Nat.not_lt.mpr hlong)]
    simp only [word16At, CompactHeader.read, List.getElem?_cons_zero, List.getElem?_cons_succ,
      Option.bind_eq_bind, Option.bind_some, Option.pure_def]
    split
    · rfl
    · cases Kind.ofCode? (first % 16) with
      | none => rfl
      | some kind =>
        simp only
        split
        · rfl
        · rfl

/-- Whether the body of a set is a whole number of non-empty records for its count. -/
def isEven (s : CompactSet) : Option Bool :=
  if s.count = 0 then some s.body.isEmpty
  else if s.body.isEmpty then some false
  else do return (← mod s.body.length s.count.toNat) == 0

/-- **The check of a set.** -/
def check (kind : Kind) (s : CompactSet) : Option (Except CodecError Unit) :=
  match kind with
  | .data => do
    if ← isEven s then return .ok ()
    else return .error (.malformedSet s.template (.unevenRecords s.body.length s.count))
  | .template => do
    match ← takeSpecifiers s.count.toNat s.body with
    | .error e => return .error e
    | .ok (_, trailing) =>
      if trailing.isEmpty then return .ok ()
      else return .error (.malformedSet s.template (.trailingOctets trailing.length s.count))

theorem count_ne_zero {count : UInt8} (h : count ≠ 0) : count.toNat ≠ 0 :=
  fun h' => h (UInt8.toNat_inj.mp h')

theorem isEven_eq (s : CompactSet) : isEven s = some s.isEven := by
  unfold isEven CompactSet.isEven
  by_cases hc : s.count = 0
  · rw [if_pos hc, if_pos hc]
  · rw [if_neg hc, if_neg hc]
    cases s.body.isEmpty with
    | true => rfl
    | false =>
      rw [mod_eq (count_ne_zero hc)]
      rfl

theorem check_eq (kind : Kind) (s : CompactSet) : check kind s = some (s.check kind) := by
  cases kind with
  | data =>
    simp only [check, CompactSet.check, isEven_eq, Option.bind_eq_bind, Option.bind_some,
      Option.pure_def]
    split
    · rfl
    · rfl
  | template =>
    simp only [check, CompactSet.check, takeSpecifiers_eq, Option.bind_eq_bind, Option.bind_some,
      Option.pure_def]
    cases FieldSpecifier.readMany s.count.toNat s.body with
    | error e => rfl
    | ok parts =>
      simp only
      split
      · rfl
      · rfl

/-- **A compact message.** -/
def parse (bytes : List UInt8) : Option (Except CodecError CompactMessage) := do
  match ← readCompactHeader bytes with
  | .error e => return .error e
  | .ok header =>
    let payload ← slice bytes Encoding.compact.headerLength header.length.toNat
    let checked ← walk (fun lead => templateOfCompact lead.1)
      (fun frame => check header.kind (CompactSet.ofFrame frame)) payload
    return checked.map fun _ => ⟨header, payload⟩

/-- **Reading a compact message never stops.** -/
theorem parse_eq (bytes : List UInt8) : parse bytes = some (CompactMessage.parse bytes) := by
  simp only [parse, readCompactHeader_eq, CompactMessage.parse, Option.bind_some, Option.pure_def,
    bind, Except.bind]
  cases hh : CompactHeader.read bytes with
  | error e => rfl
  | ok header =>
    obtain ⟨-, hge, hle⟩ := CompactHeader.read_eq_ok_iff.mp hh
    have hbody : slice bytes Encoding.compact.headerLength header.length.toNat
        = some ((bytes.take header.length.toNat).drop Encoding.compact.headerLength) :=
      slice_eq hge hle
    simp only [hbody, Option.bind_some,
      walk_eq fun frame => check_eq header.kind (CompactSet.ofFrame frame)]
    cases Frame.walk (fun lead => templateOfCompact lead.1)
        (fun frame => (CompactSet.ofFrame frame).check header.kind)
        ((bytes.take header.length.toNat).drop Encoding.compact.headerLength) with
    | error e => rfl
    | ok values => rfl

/-! ## 6. What is read from an accepted message -/

/-- **One set and what follows it**, cut by the length found in it. -/
def cutSet (bytes : List UInt8) : Option (CompactSet × List UInt8) := do
  let length ← word16At bytes 2
  let id ← bytes[0]?
  let count ← bytes[1]?
  let body ← slice bytes Frame.headerLength length.toNat
  let rest ← slice bytes length.toNat bytes.length
  return (⟨templateOfCompact id, count, body⟩, rest)

theorem length_lt_of_cutSet {bytes rest : List UInt8} {s : CompactSet}
    (h : cutSet bytes = some (s, rest)) : rest.length < bytes.length := by
  simp only [cutSet, Option.bind_eq_bind, Option.bind_eq_some_iff, Option.pure_def,
    Option.some.injEq, Prod.mk.injEq] at h
  obtain ⟨length, -, id, -, count, -, body, hbody, rest', hrest, -, rfl⟩ := h
  have h₁ := length_of_slice hbody
  have h₂ := length_of_slice hrest
  rw [Frame.headerLength] at h₁
  omega

/-- **The sets in the octets of a message**, until fewer are left than a set header. -/
def sets (bytes : List UInt8) : Option (List CompactSet) :=
  if bytes.length < Frame.headerLength then some []
  else
    match _h : cutSet bytes with
    | none => none
    | some (s, rest) => (sets rest).map (s :: ·)
termination_by bytes.length
decreasing_by exact length_lt_of_cutSet _h

/-- A set is cut as a frame is, only that nothing is checked. -/
theorem cutSet_of_takeFrame (name : UInt8 × UInt8 → UInt16) {bytes rest : List UInt8} {f : Frame}
    (h : takeFrame name bytes = some (.ok (f, rest))) :
    cutSet bytes = some (CompactSet.ofFrame f, rest) := by
  unfold takeFrame at h
  split at h
  · simp at h
  · simp only [Option.bind_eq_bind, Option.bind_eq_some_iff, Option.pure_def] at h
    obtain ⟨a, ha, b, hb, length, hlength, h⟩ := h
    split at h
    · simp at h
    · simp only [Option.bind_eq_some_iff, Option.some.injEq, Except.ok.injEq, Prod.mk.injEq] at h
      obtain ⟨body, hbody, rest', hrest, rfl, rfl⟩ := h
      simp only [cutSet, hlength, ha, hb, hbody, hrest, Option.bind_eq_bind, Option.bind_some,
        Option.pure_def, CompactSet.ofFrame]

/-- **Frames laid end to end are cut where they join.** -/
theorem sets_flatMap_encode {frames : List Frame} (h : ∀ f ∈ frames, f.encode.length ≤ maxLength) :
    sets (frames.flatMap Frame.encode) = some (frames.map CompactSet.ofFrame) := by
  induction frames with
  | nil =>
    rw [List.flatMap_nil, sets]
    rfl
  | cons f frames ih =>
    have hcut : cutSet (f.encode ++ frames.flatMap Frame.encode)
        = some (CompactSet.ofFrame f, frames.flatMap Frame.encode) := by
      refine cutSet_of_takeFrame (fun lead => templateOfCompact lead.1) ?_
      rw [takeFrame_eq, Frame.read_encode _ _ (h f List.mem_cons_self)]
    have hlong : ¬ (f.encode ++ frames.flatMap Frame.encode).length < Frame.headerLength := by
      rw [List.length_append, Frame.length_encode]
      omega
    rw [List.flatMap_cons, sets, if_neg hlong]
    split
    · rename_i hnone
      rw [hcut] at hnone
      simp at hnone
    · rename_i s rest hsome
      rw [hcut] at hsome
      obtain ⟨rfl, rfl⟩ := Prod.mk.inj (Option.some.inj hsome)
      rw [ih fun f' hf' => h f' (List.mem_cons_of_mem _ hf')]
      rfl

/-- **Cutting the sets never stops** on a message that was accepted, though the lengths in it are
read again and not checked. -/
theorem sets_of_parse {bytes : List UInt8} {m : CompactMessage}
    (h : CompactMessage.parse bytes = .ok m) : sets m.payload = some m.sets := by
  obtain ⟨frames, hpayload, hsmall, hsets, -⟩ := CompactMessage.parse_eq_ok h
  rw [hpayload, sets_flatMap_encode hsmall, hsets]

/-- The octets of one record of a set. -/
def recordWidth (s : CompactSet) : Option Nat :=
  if s.count = 0 then some 0 else div s.body.length s.count.toNat

/-- **The records of a set.** -/
def records (s : CompactSet) : Option (List (List UInt8)) := do
  let width ← recordWidth s
  chunks (max width 1) (if s.count = 0 then [] else s.body)

/-- **The specifiers of a set.** -/
def specifiers (s : CompactSet) : Option (List FieldSpecifier) :=
  readAll s.body

/-- **The data records in all sets** of a message. -/
def recordCount (m : CompactMessage) : Option Nat :=
  match m.kind with
  | .data => do return total ((← sets m.payload).map (·.count.toNat))
  | .template => some 0

theorem recordWidth_eq (s : CompactSet) : recordWidth s = some s.recordWidth := by
  unfold recordWidth CompactSet.recordWidth
  by_cases hc : s.count = 0
  · rw [if_pos hc, if_pos hc]
  · rw [if_neg hc, if_neg hc, div_eq (count_ne_zero hc)]

theorem records_eq (s : CompactSet) : records s = some s.records := by
  have hwidth : max s.recordWidth 1 ≠ 0 :=
    Nat.ne_of_gt (Nat.lt_of_lt_of_le Nat.zero_lt_one (Nat.le_max_right _ _))
  rw [records, recordWidth_eq, Option.bind_eq_bind, Option.bind_some, chunks_eq hwidth]
  rfl

theorem specifiers_eq (s : CompactSet) : specifiers s = some s.specifiers :=
  readAll_eq s.body

theorem recordCount_of_parse {bytes : List UInt8} {m : CompactMessage}
    (h : CompactMessage.parse bytes = .ok m) : recordCount m = some m.recordCount := by
  unfold recordCount CompactMessage.recordCount
  cases m.kind with
  | template => rfl
  | data =>
    rw [sets_of_parse h]
    rfl

end FlowExport.Checked

/-
# Messages written call by call

A writer of messages goes on after a call that fails: the next call finds the draft as the failed
one left it, and the message is finished in the end.  `Call` is a call that adds a set, and
`attempt` makes any number of them, keeping those that succeeded.

A call either appends the frame of its set or leaves the content as it was; but a data set that is
too long to announce its length stays in the draft, open (`Call.outcome`).  So after any calls the
draft holds exactly the frames of those that succeeded, or it is too long to be finished
(`attempt_spec`).  Either way a message that is finished consists of these frames
(`finish_attempt`).
-/
import FlowExport.Proofs.Wire.Message

namespace FlowExport.Draft

/-! ## 1. Calls -/

/-- **A call that adds a set**: the definition of a template, or the records of a source. -/
inductive Call : Type 1 where
  | define {R : Type} (template : Template R)
  | add {R : Type} (template : Template R) (source : RecordSource R)

namespace Call

/-- What the call does to a draft. -/
def step : Call → Step Unit
  | .define t => addTemplate t
  | .add t source => addSet t source .data

/-- The kind of message that the set belongs to. -/
def kind : Call → Kind
  | .define _ => .template
  | .add _ _ => .data

/-- The id of the template that the set is about. -/
def template : Call → UInt16
  | .define t => t.id
  | .add t _ => t.id

/-- The number of fields or of records. -/
def count : Call → Nat
  | .define t => t.elements.length
  | .add _ source => source.records.length

/-- The octets of the specifiers or of the records. -/
def body : Call → List UInt8
  | .define t => t.specifiers.flatMap (·.encode)
  | .add t source => source.records.flatMap t.encodeRecord

/-- The frame of the set. -/
def frame (encoding : Encoding) (c : Call) : Frame :=
  Frame.ofSet encoding c.kind c.template c.count c.body

end Call

/-- **Makes calls in order**, whatever their outcomes, and returns those that succeeded. -/
def attempt : List Call → Draft → List Call × Draft
  | [], d => ([], d)
  | c :: later, d =>
    match c.step d with
    | (.ok (), d) => (c :: (attempt later d).1, (attempt later d).2)
    | (.error _, d) => attempt later d

/-! ## 2. What one call can do -/

theorem closeSet_error {d : Draft} {start : Nat} (h : maxLength < d.buffer.length - start) :
    ∃ e, d.closeSet start = (.error e, d) :=
  ⟨_, if_pos h⟩

/-- **A set that fits but is too long** to announce its length stands there open. -/
theorem fill_overlong {d : Draft} {template : UInt16} {count : Nat} {pieces : List (List UInt8)}
    (hc : d.encoding.Carries template count)
    (hroom : d.buffer.length
      + (Frame.ofSet d.encoding d.kind template count pieces.flatten).encode.length
        ≤ d.buffer.capacity)
    (hlong : maxLength
      < (Frame.ofSet d.encoding d.kind template count pieces.flatten).encode.length) :
    ∃ d₁ d₂ e, d.openSet template count = (.ok ⟨d.buffer.length, count⟩, d₁) ∧
      d₁.write pieces = (.ok (), d₂) ∧ d₂.closeSet d.buffer.length = (.error e, d₂) ∧
      Extends d d₂ (Frame.ofSet d.encoding d.kind template count pieces.flatten).opened 0 0 := by
  obtain ⟨d₁, d₂, ho, hw, hx⟩ := fill_body hc hroom
  have hlen := hx.length
  rw [Frame.length_opened] at hlen
  have hover : maxLength < d₂.buffer.length - d.buffer.length := by omega
  obtain ⟨e, hcl⟩ := closeSet_error hover
  exact ⟨d₁, d₂, e, ho, hw, hcl, hx⟩

/-- **How far a set gets** that is opened, written and closed. -/
inductive Filling (d : Draft) (template : UInt16) (count : Nat) (pieces : List (List UInt8)) :
    Prop
  /-- Its header does not fit or cannot be written. -/
  | refused (e : CodecError) (d₁ : Draft) (hopen : d.openSet template count = (.error e, d₁))
      (h : Extends d d₁ [] 0 0)
  /-- Its body does not fit, and cutting back gives the content back. -/
  | cut (d₁ : Draft) (e : CodecError) (d₂ : Draft)
      (hopen : d.openSet template count = (.ok ⟨d.buffer.length, count⟩, d₁))
      (hwrite : d₁.write pieces = (.error e, d₂))
      (h : Extends d (d₂.truncate d.buffer.length) [] 0 0)
  /-- It stands there, but cannot announce its length. -/
  | overlong (d₁ d₂ : Draft) (e : CodecError) (bytes : List UInt8)
      (hopen : d.openSet template count = (.ok ⟨d.buffer.length, count⟩, d₁))
      (hwrite : d₁.write pieces = (.ok (), d₂))
      (hclose : d₂.closeSet d.buffer.length = (.error e, d₂))
      (h : Extends d d₂ bytes 0 0) (hlong : maxLength < bytes.length)
  /-- It stands there as its frame. -/
  | closed (d₁ d₂ d₃ : Draft) (bytes : List UInt8) (hcarries : d.encoding.Carries template count)
      (hopen : d.openSet template count = (.ok ⟨d.buffer.length, count⟩, d₁))
      (hwrite : d₁.write pieces = (.ok (), d₂)) (hwritten : Extends d d₂ bytes 0 0)
      (hclose : d₂.closeSet d.buffer.length = (.ok (), d₃))
      (h : Extends d d₃ (Frame.ofSet d.encoding d.kind template count pieces.flatten).encode 1 0)

/-- **Every set gets so far.** -/
theorem filling (d : Draft) (template : UInt16) (count : Nat) (pieces : List (List UInt8)) :
    Filling d template count pieces := by
  by_cases hc : d.encoding.Carries template count
  · rcases Nat.lt_or_ge d.buffer.capacity (d.buffer.length
        + (Frame.ofSet d.encoding d.kind template count pieces.flatten).encode.length) with h | h
    · rcases fill_error hc h with ⟨e, d₁, ho, hx⟩ | ⟨d₁, e, d₂, ho, hw, hx⟩
      · exact .refused e d₁ ho hx
      · exact .cut d₁ e d₂ ho hw hx
    · rcases Nat.lt_or_ge maxLength
          (Frame.ofSet d.encoding d.kind template count pieces.flatten).encode.length with hm | hm
      · obtain ⟨d₁, d₂, e, ho, hw, hcl, hx⟩ := fill_overlong hc h hm
        exact .overlong d₁ d₂ e _ ho hw hcl hx (by rw [Frame.length_opened]; exact hm)
      · obtain ⟨d₁, d₂, ho, hw, hx⟩ := fill_body hc h
        obtain ⟨e₁, e₂, d₃, ho', hw', hcl, hx'⟩ := fill_ok hc hm h
        rw [ho] at ho'
        obtain rfl := (Prod.mk.inj ho').2
        rw [hw] at hw'
        obtain rfl := (Prod.mk.inj hw').2
        exact .closed d₁ d₂ d₃ _ hc ho hw hx hcl hx'
  · obtain ⟨e, d₁, ho, hx⟩ := openSet_error (Or.inl hc)
    exact .refused e d₁ ho hx

/-- **What a call can do** to a draft. -/
inductive Call.Outcome (c : Call) (d : Draft) : Prop
  /-- It succeeds and appends the frame of its set. -/
  | added (d' : Draft) (records : Nat) (hstep : c.step d = (.ok (), d')) (hkind : c.kind = d.kind)
      (hcarries : d.encoding.Carries c.template c.count)
      (h : Extends d d' (c.frame d.encoding).encode 1 records)
  /-- It fails and leaves the content as it was. -/
  | refused (e : CodecError) (d' : Draft) (hstep : c.step d = (.error e, d'))
      (h : Extends d d' [] 0 0)
  /-- It fails and leaves a set that is too long. -/
  | overlong (e : CodecError) (d' : Draft) (bytes : List UInt8) (hstep : c.step d = (.error e, d'))
      (h : Extends d d' bytes 0 0) (hlong : maxLength < bytes.length)

theorem expectKind_cases (kind : Kind) (d : Draft) :
    kind = d.kind ∧ d.expectKind kind = .ok () ∨ ∃ e, d.expectKind kind = .error e := by
  by_cases h : kind = d.kind
  · exact Or.inl ⟨h, if_pos h⟩
  · exact Or.inr ⟨_, if_neg h⟩

/-- **A definition** is added, or taken out again however far it got. -/
theorem define_cases {R : Type} (t : Template R) (d : Draft) :
    (∃ d', (Call.define t).step d = (.ok (), d') ∧ .template = d.kind ∧
      d.encoding.Carries t.id t.elements.length ∧
      Extends d d' ((Call.define t).frame d.encoding).encode 1 0) ∨
    ∃ e d', (Call.define t).step d = (.error e, d') ∧ Extends d d' [] 0 0 := by
  rcases expectKind_cases .template d with ⟨hk, hexp⟩ | ⟨e, hexp⟩
  · have hpieces := FieldSpecifier.flatten_chunks t.specifiers
    cases filling d t.id t.elements.length (t.specifiers.flatMap (·.chunks)) with
    | refused e d₁ ho hx =>
      exact Or.inr ⟨e, d₁, by simp only [Call.step, addTemplate, hexp, ho], hx⟩
    | cut d₁ e d₂ ho hw hx =>
      exact Or.inr ⟨e, _, by simp only [Call.step, addTemplate, hexp, ho, hw], hx⟩
    | overlong d₁ d₂ e bytes ho hw hcl hx _ =>
      exact Or.inr ⟨e, _, by simp only [Call.step, addTemplate, hexp, ho, hw, hcl], hx.truncate⟩
    | closed d₁ d₂ d₃ bytes hc ho hw _ hcl hx =>
      rw [hpieces, ← hk] at hx
      exact Or.inl ⟨d₃, by simp only [Call.step, addTemplate, hexp, ho, hw, hcl], hk, hc, hx⟩
  · exact Or.inr ⟨e, d, by simp only [Call.step, addTemplate, hexp], .refl d⟩

theorem outcome_define {R : Type} (t : Template R) (d : Draft) :
    (Call.define t).Outcome d := by
  rcases define_cases t d with ⟨d₁, hstep, hk, hc, hx⟩ | ⟨e, d₁, hstep, hx⟩
  · exact .added d₁ 0 hstep hk hc hx
  · exact .refused e d₁ hstep hx

section Records

variable {R : Type} {t : Template R} {source : RecordSource R} {d d₁ d₂ d₃ : Draft} {e : CodecError}

theorem step_add {outcome : Except CodecError Nat} (h : addData t source d = (outcome, d₁)) :
    (Call.add t source).step d = (outcome.map fun _ => (), d₁) := by
  simp only [Call.step, addSet, h]

theorem addData_kind (hexp : d.expectKind .data = .error e) :
    addData t source d = (.error e, d) := by
  simp only [addData, hexp]

theorem addData_full (hexp : d.expectKind .data = .ok ())
    (hfull : d.buffer.remaining
      < d.encoding.setHeaderLength + source.announced * t.recordWidth) :
    ∃ e, addData t source d = (.error e, d) := by
  simp only [addData, hexp]
  exact ⟨_, if_pos hfull⟩

variable (hexp : d.expectKind .data = .ok ())
  (hroom : ¬ d.buffer.remaining
    < d.encoding.setHeaderLength + source.announced * t.recordWidth)

include hexp hroom

theorem addData_refused (ho : d.openSet t.id source.announced = (.error e, d₁)) :
    addData t source d = (.error e, d₁) := by
  simp only [addData, hexp, ho]
  rw [if_neg hroom]

variable (ho : d.openSet t.id source.announced = (.ok ⟨d.buffer.length, source.announced⟩, d₁))

include ho

theorem addData_cut
    (hw : d₁.write ((source.records.take source.announced).flatMap t.fields) = (.error e, d₂)) :
    addData t source d = (.error e, d₂.truncate d.buffer.length) := by
  simp only [addData, hexp, ho, hw]
  rw [if_neg hroom]

variable (hw : d₁.write ((source.records.take source.announced).flatMap t.fields) = (.ok (), d₂))

include hw

theorem addData_mismatch (hcount : source.records.length ≠ source.announced) :
    addData t source d
      = (.error (.recordCountMismatch t.id source.announced source.records.length),
        d₂.truncate d.buffer.length) := by
  simp only [addData, hexp, ho, hw]
  rw [if_neg hroom, if_pos hcount]

theorem addData_overlong (hcount : source.records.length = source.announced)
    (hcl : d₂.closeSet d.buffer.length = (.error e, d₃)) :
    addData t source d = (.error e, d₃) := by
  simp only [addData, hexp, ho, hw, hcl]
  rw [if_neg hroom, if_neg (not_not_intro hcount)]

end Records

/-- **A source that announces another number** is found out, whatever there is room for. -/
theorem addData_dishonest {R : Type} (t : Template R) {source : RecordSource R} (d : Draft)
    (hcount : source.records.length ≠ source.announced) :
    ∃ e d', addData t source d = (.error e, d') ∧ Extends d d' [] 0 0 := by
  rcases expectKind_cases .data d with ⟨-, hexp⟩ | ⟨e, hexp⟩
  · by_cases hroom : d.buffer.remaining
        < d.encoding.setHeaderLength + source.announced * t.recordWidth
    · obtain ⟨e, he⟩ := addData_full hexp hroom
      exact ⟨e, d, he, .refl d⟩
    · cases filling d t.id source.announced
          ((source.records.take source.announced).flatMap t.fields) with
      | refused e d₁ ho hx => exact ⟨e, d₁, addData_refused hexp hroom ho, hx⟩
      | cut d₁ e d₂ ho hw hx => exact ⟨e, _, addData_cut hexp hroom ho hw, hx⟩
      | overlong d₁ d₂ e bytes ho hw _ hx _ =>
        exact ⟨_, _, addData_mismatch hexp hroom ho hw hcount, hx.truncate⟩
      | closed d₁ d₂ d₃ bytes _ ho hw hx _ _ =>
        exact ⟨_, _, addData_mismatch hexp hroom ho hw hcount, hx.truncate⟩
  · exact ⟨e, d, addData_kind hexp, .refl d⟩

section Honest

variable {R : Type} (t : Template R) (records : List R)

theorem length_frame_add (encoding : Encoding) :
    ((Call.add t (.ofList records)).frame encoding).encode.length
      = encoding.setHeaderLength + records.length * t.recordWidth := by
  have h := length_encode_ofSet encoding .data t.id records.length (records.flatMap t.encodeRecord)
  rwa [length_flatMap_encodeRecord] at h

/-- **Records that are too long together** to announce their length stay in the draft. -/
theorem add_overlong {d : Draft} (hk : d.kind = .data)
    (hc : d.encoding.Carries t.id records.length)
    (hroom : d.buffer.length + ((Call.add t (.ofList records)).frame d.encoding).encode.length
      ≤ d.buffer.capacity)
    (hlong : maxLength < ((Call.add t (.ofList records)).frame d.encoding).encode.length) :
    ∃ e d', (Call.add t (.ofList records)).step d = (.error e, d') ∧
      Extends d d' ((Call.add t (.ofList records)).frame d.encoding).opened 0 0 := by
  have hexp : d.expectKind .data = .ok () := by rw [← hk]; exact expectKind_self d
  have hspace : ¬ d.buffer.remaining
      < d.encoding.setHeaderLength + (RecordSource.ofList records).announced * t.recordWidth := by
    change ¬ d.buffer.capacity - d.buffer.length
      < d.encoding.setHeaderLength + records.length * t.recordWidth
    rw [length_frame_add] at hroom
    omega
  -- an honest source is visited to its last record
  have hframe : (Call.add t (.ofList records)).frame d.encoding
      = Frame.ofSet d.encoding d.kind t.id records.length
        ((records.take records.length).flatMap t.fields).flatten := by
    rw [List.take_length, flatten_fields, hk]
    rfl
  rw [hframe] at hroom hlong ⊢
  obtain ⟨d₁, d₂, e, ho, hw, hcl, hx⟩ := fill_overlong hc hroom hlong
  exact ⟨e, d₂, step_add (addData_overlong hexp hspace ho hw rfl hcl), hx⟩

theorem add_unnamed {d : Draft} (hexp : d.expectKind .data = .ok ())
    (hc : ¬ d.encoding.Carries t.id records.length) :
    ∃ e d', (Call.add t (.ofList records)).step d = (.error e, d') ∧ Extends d d' [] 0 0 := by
  by_cases hroom : d.buffer.remaining
      < d.encoding.setHeaderLength + (RecordSource.ofList records).announced * t.recordWidth
  · obtain ⟨e, he⟩ := addData_full hexp hroom
    exact ⟨e, d, step_add he, .refl d⟩
  · obtain ⟨e, d₁, ho, hx⟩ := openSet_error (Or.inl hc)
    exact ⟨e, d₁, step_add (addData_refused hexp hroom ho), hx⟩

/-- **Records that were announced as they come** are added or refused, or are too long. -/
theorem add_cases (d : Draft) :
    (∃ d', (Call.add t (.ofList records)).step d = (.ok (), d') ∧ .data = d.kind ∧
      d.encoding.Carries t.id records.length ∧
      Extends d d' ((Call.add t (.ofList records)).frame d.encoding).encode 1 records.length) ∨
    (∃ e d', (Call.add t (.ofList records)).step d = (.error e, d') ∧ Extends d d' [] 0 0) ∨
    d.kind = .data ∧ d.encoding.Carries t.id records.length ∧
      d.buffer.length + ((Call.add t (.ofList records)).frame d.encoding).encode.length
        ≤ d.buffer.capacity ∧
      maxLength < ((Call.add t (.ofList records)).frame d.encoding).encode.length := by
  rcases expectKind_cases .data d with ⟨hk, hexp⟩ | ⟨e, hexp⟩
  · by_cases hc : d.encoding.Carries t.id records.length
    · have hwrites := writes_addSet_data t records hc
      rcases Nat.lt_or_ge d.buffer.capacity (d.buffer.length
          + ((Call.add t (.ofList records)).frame d.encoding).encode.length) with hfull | hroom
      · exact Or.inr (Or.inl (hwrites.error d rfl hk.symm hfull))
      · rcases Nat.lt_or_ge maxLength
            ((Call.add t (.ofList records)).frame d.encoding).encode.length with hlong | hshort
        · exact Or.inr (Or.inr ⟨hk.symm, hc, hroom, hlong⟩)
        · obtain ⟨d₁, hstep, hx⟩ := hwrites.ok d rfl hk.symm hshort hroom
          exact Or.inl ⟨d₁, hstep, hk, hc, hx⟩
    · exact Or.inr (Or.inl (add_unnamed t records hexp hc))
  · exact Or.inr (Or.inl ⟨e, d, step_add (addData_kind hexp), .refl d⟩)

end Honest

theorem outcome_add {R : Type} (t : Template R) (source : RecordSource R) (d : Draft) :
    (Call.add t source).Outcome d := by
  by_cases hcount : source.records.length = source.announced
  · obtain ⟨announced, records⟩ := source
    obtain rfl : records.length = announced := hcount
    rcases add_cases t records d with ⟨d₁, hstep, hk, hc, hx⟩ | ⟨e, d₁, hstep, hx⟩
      | ⟨hk, hc, hroom, hlong⟩
    · exact .added d₁ records.length hstep hk hc hx
    · exact .refused e d₁ hstep hx
    · obtain ⟨e, d₁, hstep, hx⟩ := add_overlong t records hk hc hroom hlong
      exact .overlong e d₁ _ hstep hx (by rw [Frame.length_opened]; exact hlong)
  · obtain ⟨e, d₁, hfail, hx⟩ := addData_dishonest t d hcount
    exact .refused e d₁ (step_add hfail) hx

/-- **Every call has one of these outcomes.** -/
theorem Call.outcome (c : Call) (d : Draft) : c.Outcome d := by
  cases c with
  | define t => exact outcome_define t d
  | add t source => exact outcome_add t source d

/-! ## 3. Any number of calls -/

/-- The octets of the sets of calls. -/
def octetsOf (encoding : Encoding) (calls : List Call) : List UInt8 :=
  (calls.map (·.frame encoding)).flatMap Frame.encode

/-- **After any calls** the draft holds the frames of those that succeeded, or more than a message
can be long. -/
theorem attempt_spec (calls : List Call) (d : Draft) :
    (∀ c ∈ (attempt calls d).1, c ∈ calls ∧ c.kind = d.kind ∧
      d.encoding.Carries c.template c.count) ∧
    ∃ bytes sets records, Extends d (attempt calls d).2 bytes sets records ∧
      (bytes = octetsOf d.encoding (attempt calls d).1 ∨ maxLength < bytes.length) := by
  induction calls generalizing d with
  | nil =>
    refine ⟨fun c hc => absurd hc List.not_mem_nil, [], 0, 0, .refl d, Or.inl rfl⟩
  | cons c later ih =>
    -- what a call leaves is a draft of the same encoding and kind
    have hlater : ∀ {d₁ : Draft} {b : List UInt8} {m r : Nat}, Extends d d₁ b m r →
        (∀ c' ∈ (attempt later d₁).1, c' ∈ c :: later ∧ c'.kind = d.kind ∧
          d.encoding.Carries c'.template c'.count) ∧
        ∃ bytes sets records, Extends d (attempt later d₁).2 (b ++ bytes) sets records ∧
          (bytes = octetsOf d.encoding (attempt later d₁).1 ∨ maxLength < bytes.length) := by
      intro d₁ b m r h
      obtain ⟨hall, bytes, sets, records, hx, hbytes⟩ := ih d₁
      rw [h.encoding] at hbytes
      refine ⟨fun c' hc' => ?_, bytes, _, _, h.trans hx, hbytes⟩
      obtain ⟨hmem, hkind, hcarries⟩ := hall c' hc'
      rw [h.kind] at hkind
      rw [h.encoding] at hcarries
      exact ⟨List.mem_cons_of_mem _ hmem, hkind, hcarries⟩
    cases c.outcome d with
    | added d₁ records hstep hkind hcarries h =>
      obtain ⟨hall, bytes, sets, records', hx, hbytes⟩ := hlater h
      rw [attempt, hstep]
      refine ⟨fun c' hc' => ?_, _, sets, records', hx, ?_⟩
      · rcases List.mem_cons.mp hc' with rfl | hc'
        · exact ⟨List.mem_cons_self, hkind, hcarries⟩
        · exact hall c' hc'
      · rcases hbytes with hbytes | hlong
        · left
          rw [hbytes]
          rfl
        · right
          rw [List.length_append]
          omega
    | refused e d₁ hstep h =>
      obtain ⟨hall, bytes, sets, records, hx, hbytes⟩ := hlater h
      rw [attempt, hstep]
      exact ⟨hall, bytes, sets, records, hx, hbytes⟩
    | overlong e d₁ b hstep h hlong =>
      obtain ⟨hall, bytes, sets, records, hx, -⟩ := hlater h
      rw [attempt, hstep]
      refine ⟨hall, _, sets, records, hx, Or.inr ?_⟩
      rw [List.length_append]
      omega

/-! ## 4. Whole messages -/

theorem begin_eq_ok {buffer : Buffer} {x x' : Exporter} {encoding : Encoding} {kind : Kind}
    {time : UInt32} {d : Draft} (h : begin buffer x encoding kind time = (.ok (), d, x')) :
    d.buffer.toList = (headerChunks x time kind encoding).flatten ∧ d.encoding = encoding ∧
      d.kind = kind ∧ x' = x.advance := by
  rcases Nat.lt_or_ge buffer.capacity encoding.headerLength with hcap | hcap
  · obtain ⟨e, d', hb, -⟩ := begin_error x kind time hcap
    rw [hb] at h
    simp at h
  · obtain ⟨d', hb, hl, -, he, hk⟩ := begin_ok x kind time hcap
    rw [hb] at h
    simp only [Prod.mk.injEq, true_and] at h
    obtain ⟨rfl, rfl⟩ := h
    exact ⟨hl, he, hk, rfl⟩

theorem length_le_of_finish {d : Draft} {bytes : List UInt8} (h : d.finish.1 = .ok bytes) :
    d.buffer.length ≤ maxLength := by
  rcases Nat.lt_or_ge maxLength d.buffer.length with hl | hl
  · simp only [finish] at h
    rw [if_pos hl] at h
    simp at h
  · exact hl

/-- **A draft that is finished** was not too long, and is header and body. -/
theorem eq_message_of_finish {d : Draft} {bytes : List UInt8} (x : Exporter) (time : UInt32)
    {body : List UInt8}
    (hd : d.buffer.toList = (headerChunks x time d.kind d.encoding).flatten ++ body)
    (h : d.finish.1 = .ok bytes) :
    bytes = x.message d.encoding d.kind time body ∧
      d.encoding.headerLength + body.length ≤ maxLength := by
  have hmax := length_le_of_finish h
  rw [← Buffer.length_toList, hd, List.length_append, length_headerChunks] at hmax
  obtain ⟨d₁, hfin, -⟩ := finish_ok x time body hd hmax
  rw [hfin] at h
  exact ⟨(Except.ok.inj h).symm, hmax⟩

/-- **A message that is finished after any calls** is the header and the frames of those that
succeeded. -/
theorem finish_attempt {buffer : Buffer} {x x' : Exporter} {encoding : Encoding} {kind : Kind}
    {time : UInt32} {calls : List Call} {d d' : Draft} {bytes : List UInt8}
    (hb : begin buffer x encoding kind time = (.ok (), d, x'))
    (hf : (attempt calls d).2.finish = (.ok bytes, d')) :
    bytes = x.message encoding kind time (octetsOf encoding (attempt calls d).1) ∧
      encoding.headerLength + (octetsOf encoding (attempt calls d).1).length ≤ maxLength ∧
      ∀ c ∈ (attempt calls d).1, c ∈ calls ∧ c.kind = kind ∧
        encoding.Carries c.template c.count := by
  obtain ⟨hl, rfl, rfl, -⟩ := begin_eq_ok hb
  obtain ⟨hall, body, sets, records, hx, hbody⟩ := attempt_spec calls d
  have hfinished : (attempt calls d).2.finish.1 = .ok bytes := by rw [hf]
  rcases hbody with rfl | hlong
  · have hdraft := hx.toList
    rw [hl, ← hx.encoding, ← hx.kind] at hdraft
    obtain ⟨hmessage, hfit⟩ := eq_message_of_finish x time hdraft hfinished
    rw [hx.encoding, hx.kind] at hmessage
    rw [hx.encoding] at hfit
    exact ⟨hmessage, hfit, hall⟩
  · have hmax := length_le_of_finish hfinished
    have hlen := hx.length
    omega

end FlowExport.Draft

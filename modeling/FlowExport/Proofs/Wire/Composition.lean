/-
# Exactly when a message is composed

`Writes` says what a step does where its frame fits in the buffer and where it does not.  Between
the two lies a frame that fits but is too long to announce its length, which a buffer of more than
65535 octets has room for.  `Appends` covers it from the other side: a step that succeeds has
appended its frame.

With both, a message is composed exactly where header and frames fit in the buffer and in the
length that a header can announce (`compose_eq_ok_iff`), in a buffer of any capacity.  The
exporter's number is claimed with the header alone, whatever becomes of the frames
(`exporter_compose`).
-/
import FlowExport.Proofs.Wire.Calls

namespace FlowExport.Draft

/-! ## 1. Steps that succeed -/

/-- **A step that succeeds only by appending its frame.** -/
def Appends (encoding : Encoding) (kind : Kind) (step : Step Unit) (frame : Frame) : Prop :=
  ∀ d d' : Draft, d.encoding = encoding → d.kind = kind → step d = (.ok (), d') →
    ∃ records, Extends d d' frame.encode 1 records

/-- A set of encoded octets is named by the encoding and appended whole. -/
theorem addPieces_eq_ok {template : UInt16} {count : Nat} {pieces : List (List UInt8)}
    {d d' : Draft} (h : addPieces template count pieces d = (.ok (), d')) :
    d.encoding.Carries template count ∧ Extends d d'
      (Frame.ofSet d.encoding d.kind template count pieces.flatten).encode 1
      (recordsOf d.kind count) := by
  cases filling d template count pieces with
  | refused e d₁ ho _ => simp [addPieces, ho] at h
  | cut d₁ e d₂ ho hw _ => simp [addPieces, ho, hw] at h
  | overlong d₁ d₂ e bytes ho hw hcl _ _ => simp [addPieces, ho, hw, close, hcl] at h
  | closed d₁ d₂ d₃ bytes hc ho hw _ hcl hx =>
    refine ⟨hc, ?_⟩
    cases hk : d.kind with
    | template =>
      have hk₃ : d₃.kind = .template := hx.kind.trans hk
      simp only [addPieces, ho, hw, close, hcl, hk₃, Prod.mk.injEq, true_and] at h
      subst h
      rw [hk] at hx
      exact hx
    | data =>
      have hk₃ : d₃.kind = .data := hx.kind.trans hk
      simp only [addPieces, ho, hw, close, hcl, hk₃, Prod.mk.injEq, true_and] at h
      subst h
      rw [hk] at hx
      exact ⟨hx.toList, hx.capacity, hx.encoding, hk.symm, hx.sequence, hx.sets,
        congrArg (· + count) hx.records⟩

theorem appends_addPieces (encoding : Encoding) (kind : Kind) (template : UInt16) (count : Nat)
    (pieces : List (List UInt8)) :
    Appends encoding kind (addPieces template count pieces)
      (Frame.ofSet encoding kind template count pieces.flatten) := by
  rintro d d' rfl rfl h
  exact ⟨_, (addPieces_eq_ok h).2⟩

/-- A call that succeeds was of the message's kind and could be named. -/
theorem Call.step_eq_ok {c : Call} {d d' : Draft} (h : c.step d = (.ok (), d')) :
    c.kind = d.kind ∧ d.encoding.Carries c.template c.count ∧
      ∃ records, Extends d d' (c.frame d.encoding).encode 1 records := by
  cases c.outcome d with
  | added d₁ records hstep hk hc hx =>
    rw [h] at hstep
    obtain rfl := (Prod.mk.inj hstep).2
    exact ⟨hk, hc, records, hx⟩
  | refused e d₁ hstep _ => simp [h] at hstep
  | overlong e d₁ bytes hstep _ _ => simp [h] at hstep

theorem appends_call (encoding : Encoding) (kind : Kind) (c : Call) :
    Appends encoding kind c.step (c.frame encoding) := by
  rintro d d' rfl - h
  exact (Call.step_eq_ok h).2.2

/-- Whether the source visits as many records as it announces. -/
def Call.IsHonest : Call → Prop
  | .define _ => True
  | .add _ source => source.announced = source.records.length

/-- **An honest call writes its frame.** -/
theorem Call.writes {encoding : Encoding} {c : Call} (hc : encoding.Carries c.template c.count)
    (h : c.IsHonest) :
    Writes encoding c.kind c.step () (c.frame encoding) (recordsOf c.kind c.count) := by
  cases c with
  | define t => exact writes_addTemplate t hc
  | add t source =>
    obtain ⟨announced, records⟩ := source
    obtain rfl : announced = records.length := h
    exact writes_addSet_data t records hc

/-- **Only an honest call succeeds.** -/
theorem Call.isHonest_of_step {c : Call} {d d' : Draft} (h : c.step d = (.ok (), d')) :
    c.IsHonest := by
  cases c with
  | define t => trivial
  | add t source =>
    by_contra hcount
    obtain ⟨e, d₁, hfail, -⟩ := addData_dishonest t d fun heq => hcount heq.symm
    rw [step_add hfail] at h
    cases (Prod.mk.inj h).1

/-! ## 2. Many steps -/

section Fill

variable {ι : Type*} {encoding : Encoding} {kind : Kind} {step : ι → Step Unit}
  {frame : ι → Frame} {xs : List ι}

/-- **Steps that all succeed have appended their frames**, each in a draft of the same encoding and
kind. -/
theorem fillAll_eq_ok (hx : ∀ x ∈ xs, Appends encoding kind (step x) (frame x)) {d d' : Draft}
    (he : d.encoding = encoding) (hk : d.kind = kind)
    (h : fillAll (xs.map step) d = (.ok (), d')) :
    (∃ records, Extends d d' ((xs.map frame).flatMap Frame.encode) xs.length records) ∧
      ∀ x ∈ xs, ∃ d₁ d₂ : Draft, d₁.encoding = encoding ∧ d₁.kind = kind ∧
        step x d₁ = (.ok (), d₂) := by
  induction xs generalizing d with
  | nil =>
    obtain rfl := (Prod.mk.inj h).2
    exact ⟨⟨0, .refl d⟩, fun x hx => absurd hx List.not_mem_nil⟩
  | cons x xs ih =>
    rw [List.map_cons, fillAll] at h
    split at h
    · simp at h
    · rename_i d₁ hstep
      obtain ⟨records, h₁⟩ := hx x List.mem_cons_self d d₁ he hk hstep
      obtain ⟨⟨records', h₂⟩, hall⟩ := ih (fun y hy => hx y (List.mem_cons_of_mem _ hy))
        (h₁.encoding.trans he) (h₁.kind.trans hk) h
      refine ⟨⟨records + records', ?_⟩, ?_⟩
      · have htrans := h₁.trans h₂
        rw [Nat.add_comm 1] at htrans
        exact htrans
      · intro y hy
        rcases List.mem_cons.mp hy with rfl | hy
        · exact ⟨d, d₁, he, hk, hstep⟩
        · exact hall y hy

/-- **A number is claimed with the header**, and by nothing else. -/
theorem exporter_compose (buffer : Buffer) (x : Exporter) (encoding : Encoding) (kind : Kind)
    (time : UInt32) (fill : Step Unit) :
    (compose buffer x encoding kind time fill).2.2
      = if encoding.headerLength ≤ buffer.capacity then x.advance else x := by
  by_cases h : encoding.headerLength ≤ buffer.capacity
  · obtain ⟨d, hb, -⟩ := begin_ok x kind time h
    rw [if_pos h, compose, hb]
    rcases hf : fill d with ⟨_ | _, d₁⟩ <;> simp only [hf]
  · obtain ⟨e, d, hb, -⟩ := begin_error x kind time (Nat.lt_of_not_le h)
    rw [if_neg h, compose, hb]

/-- **A message that is composed** fits, and is header and frames. -/
theorem compose_eq_ok (hx : ∀ x ∈ xs, Appends encoding kind (step x) (frame x))
    {buffer : Buffer} {x : Exporter} {time : UInt32} {bytes : List UInt8}
    (h : (compose buffer x encoding kind time (fillAll (xs.map step))).1 = .ok bytes) :
    (bytes = x.message encoding kind time ((xs.map frame).flatMap Frame.encode) ∧
      encoding.headerLength + ((xs.map frame).flatMap Frame.encode).length ≤ buffer.capacity ∧
      encoding.headerLength + ((xs.map frame).flatMap Frame.encode).length ≤ maxLength) ∧
    ∀ y ∈ xs, ∃ d₁ d₂ : Draft, d₁.encoding = encoding ∧ d₁.kind = kind ∧
      step y d₁ = (.ok (), d₂) := by
  rcases Nat.lt_or_ge buffer.capacity encoding.headerLength with hcap | hcap
  · obtain ⟨e, d, hb, -⟩ := begin_error x kind time hcap
    simp [compose, hb] at h
  · obtain ⟨d, hb, hl, hc, he, hk⟩ := begin_ok x kind time hcap
    rw [compose, hb] at h
    rcases hf : fillAll (xs.map step) d with ⟨e | ⟨⟩, d₁⟩
    · simp [hf] at h
    · simp only [hf] at h
      obtain ⟨⟨records, h₁⟩, hall⟩ := fillAll_eq_ok hx he hk hf
      have hroom : d₁.buffer.length ≤ buffer.capacity := by
        rw [← hc, ← h₁.capacity]
        exact d₁.buffer.length_le_capacity
      have hdraft : d₁.buffer.toList = (headerChunks x time d₁.kind d₁.encoding).flatten
          ++ (xs.map frame).flatMap Frame.encode := by
        rw [h₁.toList, hl, h₁.kind, h₁.encoding, hk, he]
      obtain ⟨hmessage, hmax⟩ := eq_message_of_finish x time hdraft h
      rw [h₁.encoding, he, h₁.kind, hk] at hmessage
      rw [h₁.encoding, he] at hmax
      rw [h₁.length, ← Buffer.length_toList, hl, length_headerChunks] at hroom
      exact ⟨⟨hmessage, hroom, hmax⟩, hall⟩

/-- **A message is composed exactly where it fits**, in the buffer and in the length that its
header can announce. -/
theorem compose_eq_ok_iff {records : ι → Nat}
    (hw : ∀ x ∈ xs, Writes encoding kind (step x) () (frame x) (records x))
    (hx : ∀ x ∈ xs, Appends encoding kind (step x) (frame x))
    {buffer : Buffer} {x : Exporter} {time : UInt32} {bytes : List UInt8} :
    (compose buffer x encoding kind time (fillAll (xs.map step))).1 = .ok bytes ↔
      bytes = x.message encoding kind time ((xs.map frame).flatMap Frame.encode) ∧
      encoding.headerLength + ((xs.map frame).flatMap Frame.encode).length ≤ buffer.capacity ∧
      encoding.headerLength + ((xs.map frame).flatMap Frame.encode).length ≤ maxLength := by
  constructor
  · intro h
    exact (compose_eq_ok hx h).1
  · rintro ⟨rfl, hcap, hmax⟩
    obtain ⟨buffer', hc, -⟩ := compose_ok hw buffer x time hcap hmax
    rw [hc]

end Fill

end FlowExport.Draft

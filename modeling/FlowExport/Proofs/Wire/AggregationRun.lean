/-
# What an aggregation has been through

An aggregation is used between two forwards: accepted messages of either kind are merged, some of
them refused, and now and then everything is given up.  `Operation` is one such use and `run` any
number of them, so `(empty n m).run past` are the aggregations there are.  All of them are in
order (`Settled`, `Settled.run`).

The marks that a checkpoint leaves show in nothing: not in what can be asked of the aggregation or
written from it (`View`, `view_checkpoint`), nor in anything that is done to it afterwards
(`run_eq_of_checkpoint`).
-/
import FlowExport.Proofs.Wire.Retaining

namespace FlowExport.Aggregation

/-! ## 1. Operations -/

/-- **What is done to an aggregation**: a message that was accepted is merged, or everything that
is pending is given up. -/
inductive Operation where
  | merge (message : CompactMessage)
      (accepted : ∃ bytes, CompactMessage.parse bytes = .ok message)
  | reset

/-- One operation, with its outcome. -/
def step (a : Aggregation) : Operation → Except CodecError Nat × Aggregation
  | .merge message _ => a.merge message
  | .reset => (.ok 0, a.reset)

/-- **One operation after the other**, whatever their outcomes. -/
def run : List Operation → Aggregation → Aggregation
  | [], a => a
  | op :: later, a => run later (a.step op).2

/-- The outcomes of a run, in order. -/
def outcomes : List Operation → Aggregation → List (Except CodecError Nat)
  | [], _ => []
  | op :: later, a => (a.step op).1 :: outcomes later (a.step op).2

/-! ## 2. What stays true -/

/-- **An aggregation in order**, for so many places and messages of such a length: besides `Inv`,
no place is open without records. -/
structure Settled (maxTemplates maxMessage : Nat) (a : Aggregation) : Prop where
  maxTemplates : a.maxTemplates = maxTemplates
  maxMessage : a.maxMessage = maxMessage
  inv : a.Inv
  filled : ∀ e ∈ a.pending, e.2 ≠ []

/-- Sets with records add entries with records. -/
theorem filled_collectAll {sets : List CompactSet} (he : ∀ s ∈ sets, s.isEven = true)
    {entries : List (UInt16 × List (List UInt8))} (h : ∀ e ∈ entries, e.2 ≠ []) :
    ∀ e ∈ collectAll (·.1) joinValues (CompactSet.items sets) entries, e.2 ≠ [] := by
  refine collectAll_induction (fun e item hne _ => ?_) ?_ h
  · exact List.append_ne_nil_of_left_ne_nil hne _
  · intro item hi hnil
    obtain ⟨s, hs, rfl⟩ := List.mem_map.mp hi
    obtain ⟨hs, hc⟩ := List.mem_filter.mp hs
    have hl := CompactSet.length_records (he s hs)
    change s.records = [] at hnil
    rw [hnil, List.length_nil] at hl
    have hzero : s.count = 0 := UInt8.toNat_inj.mp hl.symm
    exact (of_decide_eq_true hc) hzero

section Invariant

variable {n m : Nat} {a : Aggregation}

theorem settled_empty (n : Nat) (h : Encoding.compact.headerLength ≤ m) :
    (empty n m).Settled n m := by
  refine ⟨rfl, rfl, inv_empty h, ?_⟩
  intro e he
  exact absurd he List.not_mem_nil

/-- **One operation** keeps an aggregation in order. -/
theorem Settled.step (h : a.Settled n m) (op : Operation) : (a.step op).2.Settled n m := by
  cases op with
  | reset =>
    refine ⟨h.maxTemplates, h.maxMessage, h.inv.reset, ?_⟩
    intro e he
    exact absurd he List.not_mem_nil
  | merge message accepted =>
    obtain ⟨bytes, hp⟩ := accepted
    change (a.merge message).2.Settled n m
    rcases hm : a.merge message with ⟨outcome, a'⟩
    cases outcome with
    | error e =>
      obtain ⟨hinv, hn, hmax, hpend, -⟩ := merge_error hp h.inv hm
      exact ⟨hn.trans h.maxTemplates, hmax.trans h.maxMessage, hinv, by rw [hpend]; exact h.filled⟩
    | ok count =>
      obtain ⟨hinv, hn, hmax, hpend, -⟩ := merge_ok hp h.inv hm
      refine ⟨hn.trans h.maxTemplates, hmax.trans h.maxMessage, hinv, ?_⟩
      change ∀ e ∈ a'.pending, e.2 ≠ []
      obtain ⟨-, -, -, -, hc⟩ := CompactMessage.parse_eq_ok hp
      rw [hpend, CompactMessage.items]
      cases hk : message.kind with
      | template => exact h.filled
      | data =>
        rw [hk] at hc
        exact filled_collectAll (fun s hs => CompactSet.isEven_of_check (hc s hs)) h.filled

/-- **Every aggregation there is** is in order. -/
theorem Settled.run (h : a.Settled n m) (past : List Operation) : (a.run past).Settled n m := by
  induction past generalizing a with
  | nil => exact h
  | cons op past ih => exact ih (h.step op)

end Invariant

/-! ## 3. What can be seen -/

/-- **What an aggregation shows**: its answers to every question that can be asked of it, and what
it writes into any message. -/
structure View where
  recordCount : Nat
  dataSets : Nat
  definitions : Nat
  isEmpty : Bool
  recordsFor : UInt16 → Nat
  dataMessageLength : Nat
  templateMessageLength : Nat
  writeData : Draft.Step Unit
  writeTemplates : Draft.Step Unit

/-- What this aggregation shows. -/
def view (a : Aggregation) : View :=
  { recordCount := a.recordCount
    dataSets := a.data.length
    definitions := a.templates.length
    isEmpty := a.isEmpty
    recordsFor := a.recordsFor
    dataMessageLength := a.dataMessageLength
    templateMessageLength := a.templateMessageLength
    writeData := a.writeData
    writeTemplates := a.writeTemplates }

/-- A checkpoint moves nothing but marks. -/
theorem map_data_checkpoint {β : Type} (a : Aggregation) (read : DataSlot → β)
    (h : ∀ slot mark, read { slot with mark } = read slot) :
    a.checkpoint.data.map read = a.data.map read := by
  rw [checkpoint, List.map_map]
  exact List.map_congr_left fun slot _ => h slot slot.count

/-- **A checkpoint is not seen.** -/
theorem view_checkpoint (a : Aggregation) : a.checkpoint.view = a.view := by
  have hcount : a.checkpoint.recordCount = a.recordCount :=
    congrArg total (map_data_checkpoint a (·.count) fun _ _ => rfl)
  have hsets : a.checkpoint.data.length = a.data.length := List.length_map _
  have hempty : a.checkpoint.isEmpty = a.isEmpty := List.isEmpty_map
  have hfor : a.checkpoint.recordsFor = a.recordsFor := by
    funext template
    simp only [recordsFor, checkpoint, List.find?_map, Option.map_map]
    rfl
  have hlength : a.checkpoint.dataMessageLength = a.dataMessageLength :=
    congrArg (Encoding.compact.headerLength + total ·)
      (map_data_checkpoint a (fun slot => setLength slot.bytes) fun _ _ => rfl)
  have hwrite : a.checkpoint.writeData = a.writeData :=
    congrArg Draft.fillAll (map_data_checkpoint a
      (fun slot => Draft.addRaw slot.template slot.count slot.bytes) fun _ _ => rfl)
  rw [view, hcount, hsets, hempty, hfor, hlength, hwrite]
  rfl

/-! ## 4. What is done later -/

theorem maxTemplates_checkpoint (a : Aggregation) : a.checkpoint.maxTemplates = a.maxTemplates :=
  rfl

theorem maxMessage_checkpoint (a : Aggregation) : a.checkpoint.maxMessage = a.maxMessage := rfl

theorem templates_checkpoint (a : Aggregation) : a.checkpoint.templates = a.templates := rfl

theorem templateMessageLength_checkpoint (a : Aggregation) :
    a.checkpoint.templateMessageLength = a.templateMessageLength := rfl

theorem checkpoint_checkpoint (a : Aggregation) : a.checkpoint.checkpoint = a.checkpoint := by
  simp only [checkpoint, List.length_map, List.map_map]
  rfl

theorem retain_checkpoint (s : CompactSet) (a : Aggregation) :
    a.checkpoint.retain s = ((a.retain s).1, (a.retain s).2.checkpoint) := by
  -- neither test that `retain` makes looks at a mark
  by_cases hany : a.templates.any (·.template == s.template) = true
  · refine (if_pos hany).trans ?_
    rw [retain, if_pos hany]
    rfl
  · refine (if_neg hany).trans ?_
    rw [retain, if_neg hany]
    by_cases hfull : a.maxTemplates ≤ a.templates.length
    · refine (if_pos hfull).trans ?_
      rw [if_pos hfull]
    · refine (if_neg hfull).trans ?_
      rw [if_neg hfull]
      rfl

theorem retainAll_checkpoint (sets : List CompactSet) (a : Aggregation) :
    a.checkpoint.retainAll sets
      = ((a.retainAll sets).1, (a.retainAll sets).2.checkpoint) := by
  induction sets generalizing a with
  | nil => rfl
  | cons s sets ih =>
    rw [retainAll, retainAll, retain_checkpoint]
    rcases a.retain s with ⟨e | u, a'⟩
    · rfl
    · exact ih a'

/-- **One operation** takes no notice of a checkpoint. -/
theorem step_checkpoint (op : Operation) (a : Aggregation) :
    (a.checkpoint.step op).1 = (a.step op).1 ∧
      (a.checkpoint.step op).2.checkpoint = (a.step op).2.checkpoint := by
  cases op with
  | reset => exact ⟨rfl, rfl⟩
  | merge message accepted =>
    change (a.checkpoint.merge message).1 = (a.merge message).1 ∧
      (a.checkpoint.merge message).2.checkpoint = (a.merge message).2.checkpoint
    cases hk : message.kind with
    | data =>
      have hsame : a.checkpoint.merge message = a.merge message := by
        simp only [merge, hk, checkpoint_checkpoint]
      rw [hsame]
      exact ⟨rfl, rfl⟩
    | template =>
      simp only [merge, hk, templateMessageLength_checkpoint, templates_checkpoint,
        maxTemplates_checkpoint, maxMessage_checkpoint, retainAll_checkpoint]
      split
      · exact ⟨rfl, checkpoint_checkpoint a⟩
      · split
        · exact ⟨rfl, checkpoint_checkpoint a⟩
        · rcases a.retainAll message.sets with ⟨e | u, a'⟩
          · exact ⟨rfl, checkpoint_checkpoint a'⟩
          · exact ⟨rfl, checkpoint_checkpoint a'⟩

theorem step_eq_of_checkpoint {a b : Aggregation} (h : a.checkpoint = b.checkpoint)
    (op : Operation) : (a.step op).1 = (b.step op).1 ∧
      (a.step op).2.checkpoint = (b.step op).2.checkpoint := by
  obtain ⟨ho, hs⟩ := step_checkpoint op a
  obtain ⟨ho', hs'⟩ := step_checkpoint op b
  rw [← ho, ← ho', ← hs, ← hs', h]
  exact ⟨rfl, rfl⟩

/-- **Whatever is done later** is done alike, and shows alike, where two aggregations differ in
their marks only. -/
theorem run_eq_of_checkpoint {a b : Aggregation} (h : a.checkpoint = b.checkpoint)
    (later : List Operation) :
    a.outcomes later = b.outcomes later ∧ (a.run later).view = (b.run later).view := by
  induction later generalizing a b with
  | nil =>
    have hview : a.view = b.view := by rw [← view_checkpoint a, h, view_checkpoint b]
    exact ⟨rfl, hview⟩
  | cons op later ih =>
    obtain ⟨ho, hs⟩ := step_eq_of_checkpoint h op
    obtain ⟨hos, hv⟩ := ih hs
    rw [outcomes, outcomes, ho, hos]
    exact ⟨rfl, hv⟩

end FlowExport.Aggregation

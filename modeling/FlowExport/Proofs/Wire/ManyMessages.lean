/-
# Data messages merged one after the other

A cycle brings any number of data messages.  Each is merged or refused by what stands there when
it comes (`merge_data_cases`), but that all of them are merged is one condition on the end: that
their records fit together with those that were pending (`acceptsAll_iff`).  It is so because what
fits with more joined to it fits without, the reason that held for the sets of one message
already, and because lists may be joined in several goes (`joined_append`).

What an aggregation answers about its data is said here by what is pending alone, so that two of
them which have the same pending give the same answers.
-/
import FlowExport.Proofs.Grouping
import FlowExport.Proofs.Wire.DataMerging

namespace FlowExport

/-- **A data message as it is received**: accepted by the reader, and carrying records. -/
structure DataMessage where
  message : CompactMessage
  accepted : ∃ bytes, CompactMessage.parse bytes = .ok message
  kind : message.kind = .data

/-- The records that the message brings, under their templates. -/
def DataMessage.items (d : DataMessage) : List (UInt16 × List (List UInt8)) :=
  CompactSet.items d.message.sets

/-- The message being merged. -/
def DataMessage.merging (d : DataMessage) : Aggregation.Operation :=
  .merge d.message d.accepted

/-- The message that consists of these frames. -/
def DataMessage.ofFrames (frames : List Frame)
    (hl : Encoding.compact.headerLength + (frames.flatMap Frame.encode).length ≤ maxLength)
    (hs : ∀ f ∈ frames, (CompactSet.ofFrame f).check .data = .ok ()) : DataMessage :=
  ⟨_, ⟨_, CompactMessage.parse_message {} .data 0 hl hs⟩, rfl⟩

theorem DataMessage.items_ofFrames {frames : List Frame}
    (hl : Encoding.compact.headerLength + (frames.flatMap Frame.encode).length ≤ maxLength)
    (hs : ∀ f ∈ frames, (CompactSet.ofFrame f).check .data = .ok ()) :
    (ofFrames frames hl hs).items = CompactSet.items (frames.map .ofFrame) :=
  congrArg CompactSet.items (CompactMessage.sets_mk _ (Frame.length_le_of_flatMap hl))

namespace Aggregation

/-! ## 1. All of them merged -/

/-- **Merges data messages in order**, whatever becomes of each. -/
def mergeAll (messages : List DataMessage) (a : Aggregation) : Aggregation :=
  a.run (messages.map (·.merging))

/-- **No message is refused** when all are merged in order. -/
def AcceptsAll (a : Aggregation) (messages : List DataMessage) : Prop :=
  ∀ outcome ∈ a.outcomes (messages.map (·.merging)), ∃ count, outcome = .ok count

section Messages

variable {n m : Nat} {a : Aggregation} {d : DataMessage} {messages : List DataMessage}

theorem acceptsAll_nil (a : Aggregation) : a.AcceptsAll [] :=
  fun _ h => absurd h List.not_mem_nil

theorem acceptsAll_cons : a.AcceptsAll (d :: messages) ↔
    (∃ count, (a.merge d.message).1 = .ok count) ∧ (a.merge d.message).2.AcceptsAll messages :=
  List.forall_mem_cons

theorem mergeAll_cons (a : Aggregation) (d : DataMessage) (messages : List DataMessage) :
    a.mergeAll (d :: messages) = (a.merge d.message).2.mergeAll messages := rfl

theorem Settled.mergeAll (h : a.Settled n m) (messages : List DataMessage) :
    (a.mergeAll messages).Settled n m :=
  h.run _

/-- **Messages are all merged or not**, and if they are, their records are joined to those that
were pending. -/
theorem mergeAll_spec (h : a.Settled n m) (messages : List DataMessage) :
    (a.AcceptsAll messages ↔ Fits n m (joined a.pending (messages.flatMap (·.items)))) ∧
    (a.AcceptsAll messages →
      (a.mergeAll messages).pending = joined a.pending (messages.flatMap (·.items))) := by
  induction messages generalizing a with
  | nil =>
    have hfits := fits_pending h.inv.data
    rw [h.maxTemplates, h.maxMessage] at hfits
    rw [List.flatMap_nil, joined_nil_right]
    exact ⟨iff_of_true (acceptsAll_nil a) hfits, fun _ => rfl⟩
  | cons d messages ih =>
    obtain ⟨bytes, hp⟩ := d.accepted
    have hstep : (a.merge d.message).2.Settled n m := h.step d.merging
    have hsplit : joined a.pending ((d :: messages).flatMap (·.items))
        = joined (joined a.pending d.items) (messages.flatMap (·.items)) := by
      rw [List.flatMap_cons, joined_append (nodup_pending h.inv.data)]
    rw [acceptsAll_cons, mergeAll_cons, hsplit]
    rcases merge_data_cases h hp d.kind with ⟨-, a', he, -, hpend, -⟩ | ⟨hnot, e, he⟩
    · rw [he] at hstep ⊢
      obtain ⟨hiff, hall⟩ := ih hstep
      rw [hpend] at hiff hall
      exact ⟨(and_iff_right ⟨_, rfl⟩).trans hiff, fun hacc => hall hacc.2⟩
    · -- what does not fit by itself does not fit with more joined to it
      have hrefused : ¬ ∃ count, (a.merge d.message).1 = .ok count := by
        rw [he]
        rintro ⟨count, hcount⟩
        simp at hcount
      exact ⟨iff_of_false (fun hacc => hrefused hacc.1) fun hf => hnot hf.of_joined,
        fun hacc => absurd hacc.1 hrefused⟩

/-- **When no message is refused**: if all their records fit. -/
theorem acceptsAll_iff (h : a.Settled n m) :
    a.AcceptsAll messages ↔ Fits n m (joined a.pending (messages.flatMap (·.items))) :=
  (mergeAll_spec h messages).1

/-- **What is pending then.** -/
theorem pending_mergeAll (h : a.Settled n m) (hacc : a.AcceptsAll messages) :
    (a.mergeAll messages).pending = joined a.pending (messages.flatMap (·.items)) :=
  (mergeAll_spec h messages).2 hacc

end Messages

/-- A record for template 256. -/
def oneRecord : DataMessage :=
  .ofFrames [⟨(0, 1), [1, 2]⟩] (by decide) (by decide)

/-- A record for template 257, and another for 256. -/
def otherFirst : DataMessage :=
  .ofFrames [⟨(1, 1), [3]⟩, ⟨(0, 1), [4, 5]⟩] (by decide) (by decide)

/-- Two messages that fill both places, and a message of 18 octets to the last. -/
theorem pending_oneRecord :
    (empty 2 18).AcceptsAll [oneRecord, otherFirst] ∧
    ((empty 2 18).mergeAll [oneRecord, otherFirst]).pending
      = [(256, [[1, 2], [4, 5]]), (257, [[3]])] := by
  have hs : (empty 2 18).Settled 2 18 := settled_empty 2 (by decide)
  have hitems : joined (empty 2 18).pending ([oneRecord, otherFirst].flatMap (·.items))
      = [(256, [[1, 2], [4, 5]]), (257, [[3]])] := by
    simp only [List.flatMap_cons, List.flatMap_nil, oneRecord, otherFirst,
      DataMessage.items_ofFrames]
    decide
  have hacc : (empty 2 18).AcceptsAll [oneRecord, otherFirst] := by
    rw [acceptsAll_iff hs, hitems]
    decide
  exact ⟨hacc, (pending_mergeAll hs hacc).trans hitems⟩

/-! ## 2. What is answered -/

section Answers

variable {a : Aggregation}

theorem length_pending (a : Aggregation) : a.pending.length = a.data.length :=
  List.length_map _

variable (h : a.DataInv)

include h

theorem recordCount_eq : a.recordCount = total (a.pending.map (·.2.length)) := by
  rw [recordCount, pending, List.map_map]
  exact congrArg total (List.map_congr_left fun slot hs => (h.slots slot hs).length_records.symm)

theorem recordsFor_eq (template : UInt16) :
    a.recordsFor template = (valuesOf template a.pending).length := by
  rw [recordsFor]
  cases hfind : a.data.find? (·.template == template) with
  | none =>
    have hnot : template ∉ a.pending.map (·.1) := by
      intro hmem
      obtain ⟨e, he, hkey⟩ := List.mem_map.mp hmem
      exact not_pending_of_find hfind e he hkey
    rw [valuesOf_of_not_mem hnot]
    rfl
  | some slot =>
    obtain ⟨hmem, -, -, -, ht, -⟩ := pending_of_find h hfind
    have hentry : (slot.template, slot.records) ∈ a.pending := List.mem_map.mpr ⟨slot, hmem, rfl⟩
    have hvalues := valuesOf_of_mem (nodup_pending h) hentry
    rw [← ht, hvalues, (h.slots slot hmem).length_records]
    rfl

theorem writeData_eq : a.writeData
    = Draft.fillAll (a.pending.map fun e => Draft.addRaw e.1 e.2.length e.2.flatten) := by
  have hdata := congrArg (List.map fun place : UInt16 × Nat × List UInt8 =>
    Draft.addRaw place.1 place.2.1 place.2.2) (data_eq_pending h)
  rw [List.map_map, List.map_map] at hdata
  exact congrArg Draft.fillAll hdata

/-- **The same pending** give the same answers, and are written alike. -/
theorem answers_of_pending_eq {b : Aggregation} (hb : b.DataInv) (heq : a.pending = b.pending) :
    a.writeData = b.writeData ∧ a.recordCount = b.recordCount ∧ a.data.length = b.data.length ∧
      ∀ template, a.recordsFor template = b.recordsFor template := by
  refine ⟨?_, ?_, ?_, fun template => ?_⟩
  · rw [writeData_eq h, writeData_eq hb, heq]
  · rw [recordCount_eq h, recordCount_eq hb, heq]
  · rw [← length_pending, ← length_pending, heq]
  · rw [recordsFor_eq h, recordsFor_eq hb, heq]

end Answers

end Aggregation

end FlowExport

/-
# The order of arrival does not decide what a cycle can hold

Data messages that were all merged in one order are all merged in any other, from whatever state,
and what is then pending differs in its order only (`merge_perm`).

That no message is refused is a condition on what all of them come to together (`acceptsAll_iff`),
and the four limits in it look at no order: the number of templates, the widths, the counts and
the length are the same of entries that are rearranged (`Fits.rearranged`).

An aggregation whose messages may not even be as long as a header has no such condition, for the
length with nothing in it is over its limit already.  It stays empty whatever comes (`Barren`), and
refuses every message that brings something.
-/
import FlowExport.Proofs.Wire.ManyMessages

namespace FlowExport.Aggregation

/-! ## 1. What fits, and what is answered -/

section Rearranged

variable {entries entries' : List (UInt16 × List (List UInt8))} (h : Rearranged entries entries')

include h

theorem lengthOf_rearranged : lengthOf entries = lengthOf entries' := by
  have hset : ∀ {values values' : List (List UInt8)}, values.Perm values' →
      setLength values.flatten = setLength values'.flatten := fun hp => by
    rw [setLength, setLength, hp.flatten.length_eq]
  rw [lengthOf, lengthOf, total_eq_sum, total_eq_sum, (h.perm_map hset).sum_nat]

/-- **What fits** does so in any order. -/
theorem Fits.rearranged {n m : Nat} (hf : Fits n m entries) : Fits n m entries' := by
  refine ⟨?_, ?_, ?_, ?_⟩
  · rw [← h.length_eq]
    exact hf.places
  · intro e' he' r hr r' hr'
    obtain ⟨e, he, -, hp⟩ := h.exists_entry he'
    exact hf.width e he r (hp.mem_iff.mpr hr) r' (hp.mem_iff.mpr hr')
  · intro e' he'
    obtain ⟨e, he, -, hp⟩ := h.exists_entry he'
    rw [← hp.length_eq]
    exact hf.count e he
  · rw [← lengthOf_rearranged h]
    exact hf.length

end Rearranged

/-- **The same answers** about data, and the same records for each template in some order. -/
structure Agree (a b : Aggregation) : Prop where
  dataMessageLength : a.dataMessageLength = b.dataMessageLength
  dataSets : a.data.length = b.data.length
  recordCount : a.recordCount = b.recordCount
  recordsFor : ∀ template, a.recordsFor template = b.recordsFor template
  records : ∀ template, (valuesOf template a.pending).Perm (valuesOf template b.pending)

theorem agree_of_rearranged {a b : Aggregation} (ha : a.DataInv) (hb : b.DataInv)
    (h : Rearranged a.pending b.pending) : a.Agree b := by
  refine ⟨?_, ?_, ?_, fun template => ?_, h.values⟩
  · rw [← lengthOf_pending ha, ← lengthOf_pending hb, lengthOf_rearranged h]
  · rw [← length_pending, ← length_pending, h.length_eq]
  · rw [recordCount_eq ha, recordCount_eq hb, total_eq_sum, total_eq_sum,
      (h.perm_map fun hp => hp.length_eq).sum_nat]
  · rw [recordsFor_eq ha, recordsFor_eq hb, (h.values template).length_eq]

theorem agree_of_data_eq {a b : Aggregation} (h : a.data = b.data) : a.Agree b := by
  have hp : a.pending = b.pending := congrArg (List.map _) h
  refine ⟨?_, by rw [h], ?_, fun template => ?_, fun template => by rw [hp]⟩
  · rw [dataMessageLength, dataMessageLength, h]
  · rw [recordCount, recordCount, h]
  · rw [recordsFor, recordsFor, h]

/-! ## 2. Limits below a header -/

/-- **An aggregation that stays empty**, since even a header is longer than its messages may be. -/
structure Barren (a : Aggregation) : Prop where
  short : a.maxMessage < Encoding.compact.headerLength
  data : a.data = []
  templates : a.templates = []

/-- The check of definitions gives back nothing where none is retained. -/
theorem le_of_checkTemplates {sets : List CompactSet} {free length length' : Nat}
    (h : checkTemplates [] sets free length = .ok length') : length ≤ length' := by
  induction sets generalizing free length with
  | nil => exact Nat.le_of_eq (Except.ok.inj h)
  | cons s later ih =>
    simp only [checkTemplates, List.find?_nil] at h
    split at h
    · exact ih h
    · cases free with
      | zero => simp at h
      | succ free => exact Nat.le_trans (Nat.le_add_right _ _) (ih h)

namespace Barren

variable {a : Aggregation} (h : a.Barren)

include h

theorem checkpoint : a.checkpoint.Barren :=
  ⟨h.short, by rw [Aggregation.checkpoint, h.data]; rfl, h.templates⟩

/-- **A set with records** is refused, and one without is passed over. -/
theorem mergeSet (s : CompactSet) :
    s.count = 0 ∧ a.mergeSet s = (.ok (), a) ∨
      s.count ≠ 0 ∧ ∃ e slots, a.mergeSet s = (.error e, { a with data := slots }) := by
  have hn : (a.data.map (·.template)).Nodup := by
    rw [h.data]
    exact List.nodup_nil
  by_cases hc : s.count = 0
  · exact Or.inl ⟨hc, if_pos hc⟩
  rcases mergeSet_cases s hn with ⟨h0, -⟩ | ⟨e, he⟩ | ⟨e, he⟩ |
      ⟨before, slot, after, -, hd, -⟩ | ⟨-, -, -, -, hlength, -⟩
  · exact absurd h0 hc
  · exact Or.inr ⟨hc, e, a.data, he⟩
  · exact Or.inr ⟨hc, e, _, he⟩
  · rw [h.data] at hd
    simp at hd
  · have hshort := h.short
    rw [dataMessageLength] at hlength
    omega

/-- **Sets are passed over** up to the first with records. -/
theorem mergeSets (sets : List CompactSet) :
    CompactSet.items sets = [] ∧ a.mergeSets sets = (.ok (), a) ∨
      CompactSet.items sets ≠ [] ∧
        ∃ e slots, a.mergeSets sets = (.error e, { a with data := slots }) := by
  induction sets with
  | nil => exact Or.inl ⟨rfl, rfl⟩
  | cons s sets ih =>
    rw [items_cons]
    rcases h.mergeSet s with ⟨hc, hs⟩ | ⟨hc, e, slots, hs⟩
    · have hitems : CompactSet.items [s] = [] := by simp [CompactSet.items, hc]
      rw [hitems, List.nil_append]
      simpa only [Aggregation.mergeSets, hs] using ih
    · rw [items_singleton hc]
      exact Or.inr ⟨by simp, e, slots, by simp only [Aggregation.mergeSets, hs]⟩

/-- **A data message that brings records** is refused. -/
theorem merge_data {message : CompactMessage} (hk : message.kind = .data) :
    (a.merge message).2.Barren ∧
      ((∃ count, (a.merge message).1 = .ok count) ↔ CompactSet.items message.sets = []) := by
  rcases h.checkpoint.mergeSets message.sets with ⟨hitems, hs⟩ | ⟨hitems, e, slots, hs⟩
  · have hmerge : a.merge message = (.ok message.recordCount, a.checkpoint) := by
      simp only [merge, hk, hs]
    rw [hmerge]
    exact ⟨h.checkpoint, iff_of_true ⟨_, rfl⟩ hitems⟩
  · have hmerge : a.merge message
        = (.error e, rollback { a.checkpoint with data := slots }) := by
      simp only [merge, hk, hs]
    -- rolling back leaves the places that there were before, and there were none
    have hmarked : a.checkpoint.marked = 0 := by
      rw [Aggregation.checkpoint, h.data]
      rfl
    rw [hmerge]
    refine ⟨⟨h.short, ?_, h.templates⟩, iff_of_false ?_ hitems⟩
    · simp only [rollback, hmarked, List.take_zero, List.map_nil]
    · rintro ⟨count, hcount⟩
      simp at hcount

/-- **No operation fills it.** -/
theorem step (op : Operation) : (a.step op).2.Barren := by
  cases op with
  | reset => exact ⟨h.short, rfl, rfl⟩
  | merge message accepted =>
    change (a.merge message).2.Barren
    cases hk : message.kind with
    | data => exact (h.merge_data hk).1
    | template =>
      simp only [merge, hk]
      split
      · exact h
      · rename_i length hcheck
        rw [h.templates] at hcheck
        have hle := le_of_checkTemplates hcheck
        have hshort := h.short
        rw [templateMessageLength] at hle
        rw [if_pos (by omega)]
        exact h

theorem run (past : List Operation) : (a.run past).Barren := by
  induction past generalizing a with
  | nil => exact h
  | cons op past ih => exact ih (h.step op)

/-- **No message is refused** if none of them brings anything. -/
theorem acceptsAll_iff (messages : List DataMessage) :
    a.AcceptsAll messages ↔ ∀ d ∈ messages, d.items = [] := by
  induction messages generalizing a with
  | nil => exact iff_of_true (acceptsAll_nil a) fun d hd => absurd hd List.not_mem_nil
  | cons d messages ih =>
    obtain ⟨hbarren, hone⟩ := h.merge_data d.kind
    rw [acceptsAll_cons, hone, ih hbarren, List.forall_mem_cons]
    rfl

end Barren

theorem barren_empty (n : Nat) {m : Nat} (h : m < Encoding.compact.headerLength) :
    (empty n m).Barren :=
  ⟨h, rfl, rfl⟩

/-! ## 3. The main statement -/

/-- **The order of arrival does not decide what a cycle can hold**, whatever the aggregation has
been through before.  Where data messages are all merged in one order, they are all merged in any
other; the length, the number of sets and the numbers of records are then the same, and so are the
records of each template but for their order. -/
theorem merge_perm (n m : Nat) (past : List Operation) {messages messages' : List DataMessage}
    (hperm : messages.Perm messages') :
    let a := (empty n m).run past
    a.AcceptsAll messages →
      a.AcceptsAll messages' ∧ (a.mergeAll messages).Agree (a.mergeAll messages') := by
  intro a hacc
  rcases Nat.lt_or_ge m Encoding.compact.headerLength with hm | hm
  · have hb : a.Barren := (barren_empty n hm).run past
    refine ⟨?_, agree_of_data_eq ?_⟩
    · rw [hb.acceptsAll_iff] at hacc ⊢
      intro d hd
      exact hacc d (hperm.mem_iff.mpr hd)
    · exact (hb.run _).data.trans (hb.run _).data.symm
  · have hs : a.Settled n m := (settled_empty n hm).run past
    have hrearranged := rearranged_joined (nodup_pending hs.inv.data)
      (hperm.flatMap_right fun d : DataMessage => d.items)
    have hacc' : a.AcceptsAll messages' :=
      (acceptsAll_iff hs).mpr (((acceptsAll_iff hs).mp hacc).rearranged hrearranged)
    refine ⟨hacc', agree_of_rearranged (hs.mergeAll _).inv.data (hs.mergeAll _).inv.data ?_⟩
    rw [pending_mergeAll hs hacc, pending_mergeAll hs hacc']
    exact hrearranged

/-- Two messages that fill an aggregation do so in either order. -/
theorem merge_perm_oneRecord :
    [oneRecord, otherFirst].Perm [otherFirst, oneRecord] ∧
    (empty 2 18).AcceptsAll [oneRecord, otherFirst] ∧
    (empty 2 18).AcceptsAll [otherFirst, oneRecord] ∧
    ((empty 2 18).mergeAll [oneRecord, otherFirst]).Agree
      ((empty 2 18).mergeAll [otherFirst, oneRecord]) := by
  have hperm : [oneRecord, otherFirst].Perm [otherFirst, oneRecord] := .swap _ _ _
  obtain ⟨hacc, -⟩ := pending_oneRecord
  exact ⟨hperm, hacc, merge_perm 2 18 [] hperm hacc⟩

end FlowExport.Aggregation

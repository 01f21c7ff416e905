/-
# What merging does to the pending data

`Aggregation.pending` is the data of an aggregation as a reader will have it: the records of each
template.  A set that is merged adds its records to those of its template, or opens a new entry
(`mergeSet_ok`); a data message does so with all its sets that hold records, in order
(`merge_data_ok`), or else leaves what was there at the checkpoint (`merge_data_error`): whatever
happens in between, rolling back gives the same (`rollback_mergeSets`).

`DataInv` is what stays true of the places: distinct templates, whole records, no more of either
than a compact message can carry.  So the pending data can always be written.
-/
import FlowExport.Proofs.Combining
import FlowExport.Proofs.Wire.Reading
import FlowExport.Wire.Aggregation

namespace FlowExport

/-! ## 1. Places -/

namespace DataSlot

/-- The records of a place. -/
def records (slot : DataSlot) : List (List UInt8) :=
  Octets.pieces slot.width slot.bytes

/-- A place that is opened for a set, still without its records. -/
def opened (s : CompactSet) : DataSlot :=
  ⟨s.template, s.recordWidth, 0, 0, []⟩

/-- The place with the records of one more set. -/
def grow (slot : DataSlot) (s : CompactSet) : DataSlot :=
  { slot with count := slot.count + s.count.toNat, bytes := slot.bytes ++ s.body }

theorem records_opened (s : CompactSet) : (opened s).records = [] := by
  simp [records, opened, Octets.pieces, Octets.cut]

/-- **A place with whole records**, as many as a compact set can count. -/
structure WellFormed (slot : DataSlot) : Prop where
  id_ge : minTemplateId ≤ slot.template
  id_le : slot.template ≤ maxCompactId
  width_pos : 0 < slot.width
  count_le : slot.count ≤ maxCompactCount
  length : slot.bytes.length = slot.count * slot.width

namespace WellFormed

variable {slot : DataSlot} (h : slot.WellFormed)

include h

theorem length_records : slot.records.length = slot.count := by
  rw [records, Octets.pieces, Octets.length_cut, h.length, Nat.mul_div_cancel _ h.width_pos]

theorem flatten_records : slot.records.flatten = slot.bytes :=
  Octets.flatten_pieces (by rw [h.length]; exact Nat.dvd_mul_left _ _)

/-- Records of the same width go behind those that are there. -/
theorem records_grow {s : CompactSet} (he : s.isEven = true) (hc : s.count ≠ 0)
    (hw : slot.width = s.recordWidth) : (slot.grow s).records = slot.records ++ s.records := by
  rw [CompactSet.records_eq_pieces he hc, ← hw]
  exact Octets.pieces_append (by rw [h.length]; exact Nat.dvd_mul_left _ _)

theorem grow {s : CompactSet} (he : s.isEven = true) (hw : slot.width = s.recordWidth)
    (hc : slot.count + s.count.toNat ≤ maxCompactCount) : (slot.grow s).WellFormed := by
  refine ⟨h.id_ge, h.id_le, h.width_pos, hc, ?_⟩
  simp only [DataSlot.grow, List.length_append, h.length, Nat.add_mul]
  rw [← CompactSet.count_mul_recordWidth he, hw]

end WellFormed

theorem cut_grow {slot : DataSlot} (s : CompactSet)
    (h : slot.mark * slot.width ≤ slot.bytes.length) : (slot.grow s).cut = slot.cut := by
  simp only [cut, DataSlot.grow, List.take_append_of_le_length h]

end DataSlot

/-- What a set brings to the pending data. -/
def CompactSet.item (s : CompactSet) : UInt16 × List (List UInt8) :=
  (s.template, s.records)

/-- **What the sets of a data message bring**: those without records bring nothing. -/
def CompactSet.items (sets : List CompactSet) : List (UInt16 × List (List UInt8)) :=
  (sets.filter (·.count ≠ 0)).map item

namespace Aggregation

/-- **The pending data**: the records of each template. -/
def pending (a : Aggregation) : List (UInt16 × List (List UInt8)) :=
  a.data.map fun slot => (slot.template, slot.records)

/-- **What is true of the places for data.** -/
structure DataInv (a : Aggregation) : Prop where
  nodup : (a.data.map (·.template)).Nodup
  slots : ∀ slot ∈ a.data, slot.WellFormed
  places : a.data.length ≤ a.maxTemplates
  length : a.dataMessageLength ≤ a.maxMessage

/-- The marks are within what is there. -/
structure Marked (a : Aggregation) : Prop where
  marked_le : a.marked ≤ a.data.length
  mark_le : ∀ slot ∈ a.data, slot.mark ≤ slot.count

/-- Merging data touches nothing else. -/
structure SameBounds (a a' : Aggregation) : Prop where
  maxTemplates : a'.maxTemplates = a.maxTemplates
  maxMessage : a'.maxMessage = a.maxMessage
  marked : a'.marked = a.marked
  templates : a'.templates = a.templates

/-! ## 2. One set -/

theorem appendRecords_cases (s : CompactSet) (slot : DataSlot) (needed : Nat) (a : Aggregation) :
    (∃ e, a.appendRecords s slot needed = (.error e, a)) ∨
      slot.width = s.recordWidth ∧ slot.count + s.count.toNat ≤ maxCompactCount ∧
        needed ≤ a.maxMessage ∧
        a.appendRecords s slot needed = (.ok (), { a with
          data := a.data.map fun other =>
            if other.template = s.template then slot.grow s else other }) := by
  simp only [appendRecords]
  split
  · exact Or.inl ⟨_, rfl⟩
  · split
    · exact Or.inl ⟨_, rfl⟩
    · split
      · exact Or.inl ⟨_, rfl⟩
      · rename_i hw hc hn
        exact Or.inr ⟨Decidable.not_not.mp hw, Nat.not_lt.mp hc, Nat.not_lt.mp hn, rfl⟩

/-- **What merging one set can do**: nothing, if it has no records or is refused; open a place that
is then refused; add to a place; or open one with its records. -/
theorem mergeSet_cases (s : CompactSet) {a : Aggregation}
    (hn : (a.data.map (·.template)).Nodup) :
    s.count = 0 ∧ a.mergeSet s = (.ok (), a) ∨
    (∃ e, a.mergeSet s = (.error e, a)) ∨
    (∃ e, a.mergeSet s = (.error e, { a with data := a.data ++ [.opened s] })) ∨
    (∃ before slot after, s.count ≠ 0 ∧ a.data = before ++ slot :: after ∧
      slot.template = s.template ∧ (∀ other ∈ before, other.template ≠ s.template) ∧
      slot.width = s.recordWidth ∧ slot.count + s.count.toNat ≤ maxCompactCount ∧
      a.dataMessageLength + s.body.length ≤ a.maxMessage ∧
      a.mergeSet s = (.ok (), { a with data := before ++ slot.grow s :: after })) ∨
    s.count ≠ 0 ∧ (∀ other ∈ a.data, other.template ≠ s.template) ∧
      a.data.length < a.maxTemplates ∧ s.count.toNat ≤ maxCompactCount ∧
      a.dataMessageLength + setLength s.body ≤ a.maxMessage ∧
      a.mergeSet s = (.ok (), { a with data := a.data ++ [(DataSlot.opened s).grow s] }) := by
  by_cases hc : s.count = 0
  · exact Or.inl ⟨hc, by rw [mergeSet, if_pos hc]⟩
  right
  simp only [mergeSet, if_neg hc]
  split
  · rename_i slot hfind
    rcases appendRecords_cases s slot (a.dataMessageLength + s.body.length) a with
      ⟨e, he⟩ | ⟨hw, hcount, hlen, hok⟩
    · exact Or.inl ⟨e, he⟩
    · right; right; left
      obtain ⟨before, after, hd, ht, hb, -, hm⟩ := split_of_find hn hfind (slot.grow s)
      refine ⟨before, slot, after, hc, hd, ht, hb, hw, hcount, hlen, ?_⟩
      rw [hok, hm]
  · rename_i hfind
    have hnot := not_mem_of_find_none hfind
    split
    · exact Or.inl ⟨_, rfl⟩
    · rename_i hfree
      have hkeep : ∀ slot : DataSlot, (a.data.map fun other =>
          if other.template = s.template then slot else other) = a.data := fun slot =>
        (List.map_congr_left fun other ho => if_neg (hnot other ho)).trans (List.map_id _)
      rcases appendRecords_cases s (.opened s) (a.dataMessageLength + setLength s.body)
        { a with data := a.data ++ [.opened s] } with ⟨e, he⟩ | ⟨-, hcount, hlen, hok⟩
      · exact Or.inr (Or.inl ⟨e, he⟩)
      · right; right; right
        refine ⟨hc, hnot, Nat.not_le.mp hfree, by simpa [DataSlot.opened] using hcount, hlen,
          ?_⟩
        have hnew : (DataSlot.opened s).template = s.template := rfl
        simp only [List.map_append, List.map_singleton, hkeep, hnew, if_true] at hok
        exact hok

theorem DataInv.checkpoint {a : Aggregation} (h : a.DataInv) : a.checkpoint.DataInv := by
  have hids : a.checkpoint.data.map (·.template) = a.data.map (·.template) := by
    rw [Aggregation.checkpoint, List.map_map]
    rfl
  refine ⟨by rw [hids]; exact h.nodup, ?_, ?_, ?_⟩
  · intro slot hs
    obtain ⟨other, ho, rfl⟩ := List.mem_map.mp hs
    obtain ⟨h₁, h₂, h₃, h₄, h₅⟩ := h.slots other ho
    exact ⟨h₁, h₂, h₃, h₄, h₅⟩
  · have : a.checkpoint.data.length = a.data.length := List.length_map _
    rw [this]
    exact h.places
  · have : a.checkpoint.dataMessageLength = a.dataMessageLength := by
      rw [dataMessageLength, Aggregation.checkpoint, List.map_map]
      rfl
    rw [this]
    exact h.length

theorem pending_checkpoint (a : Aggregation) : a.checkpoint.pending = a.pending := by
  rw [pending, checkpoint, List.map_map]
  rfl

theorem marked_checkpoint (a : Aggregation) : a.checkpoint.Marked := by
  refine ⟨Nat.le_of_eq (List.length_map _).symm, ?_⟩
  intro slot hs
  obtain ⟨other, -, rfl⟩ := List.mem_map.mp hs
  exact Nat.le_refl _

/-- Nothing was merged since the checkpoint, so there is nothing to take back. -/
theorem rollback_checkpoint {a : Aggregation} (h : a.DataInv) :
    a.checkpoint.rollback = a.checkpoint := by
  have hcut : ∀ slot ∈ a.checkpoint.data, slot.cut = slot := by
    intro slot hs
    obtain ⟨other, ho, rfl⟩ := List.mem_map.mp hs
    have hl := (h.slots other ho).length
    simp only [DataSlot.cut, ← hl, List.take_length]
  have hlen : a.checkpoint.data.length = a.data.length := List.length_map _
  have hdata : (a.checkpoint.data.take a.checkpoint.marked).map DataSlot.cut
      = a.checkpoint.data := by
    rw [show a.checkpoint.marked = a.checkpoint.data.length from hlen.symm, List.take_length]
    exact (List.map_congr_left hcut).trans (List.map_id _)
  rw [rollback, hdata]

/-- **One set is taken back like none**, whether it was merged or refused. -/
theorem rollback_mergeSet {a : Aggregation} (h : a.DataInv) (hm : a.Marked) (s : CompactSet) :
    (a.mergeSet s).2.rollback = a.rollback ∧ (a.mergeSet s).2.Marked := by
  have happend : ∀ slot : DataSlot, slot.mark ≤ slot.count →
      rollback { a with data := a.data ++ [slot] } = a.rollback ∧
        Marked { a with data := a.data ++ [slot] } := by
    intro slot hs
    refine ⟨?_, ?_, ?_⟩
    · simp only [rollback, List.take_append_of_le_length hm.marked_le]
    · exact Nat.le_trans hm.marked_le (by simp)
    · intro other ho
      rcases List.mem_append.mp ho with ho | ho
      · exact hm.mark_le other ho
      · rw [List.mem_singleton.mp ho]
        exact hs
  rcases mergeSet_cases s h.nodup with ⟨-, he⟩ | ⟨e, he⟩ | ⟨e, he⟩ |
      ⟨before, slot, after, -, hd, -, -, -, -, -, he⟩ | ⟨-, -, -, -, -, he⟩
  · rw [he]
    exact ⟨rfl, hm⟩
  · rw [he]
    exact ⟨rfl, hm⟩
  · rw [he]
    exact happend _ (Nat.le_refl 0)
  · have hslot : slot ∈ a.data := by
      rw [hd]
      simp
    have hcut : (slot.grow s).cut = slot.cut := by
      refine DataSlot.cut_grow s ?_
      rw [(h.slots slot hslot).length]
      exact Nat.mul_le_mul_right _ (hm.mark_le slot hslot)
    rw [he]
    refine ⟨?_, ?_, ?_⟩
    · simp only [rollback, hd, List.map_take, List.map_append, List.map_cons, hcut]
    · have := hm.marked_le
      rw [hd] at this
      simpa using this
    · intro other ho
      rcases List.mem_append.mp ho with ho | ho
      · exact hm.mark_le other (by rw [hd]; exact List.mem_append_left _ ho)
      · rcases List.mem_cons.mp ho with rfl | ho
        · exact Nat.le_trans (hm.mark_le slot hslot) (Nat.le_add_right _ _)
        · exact hm.mark_le other (by rw [hd]; simp [ho])
  · rw [he]
    exact happend _ (Nat.zero_le _)

theorem items_singleton {s : CompactSet} (hc : s.count ≠ 0) : CompactSet.items [s] = [s.item] := by
  simp [CompactSet.items, hc]

/-- More records for a template that has a place. -/
theorem DataInv.grow {a : Aggregation} (h : a.DataInv) {s : CompactSet}
    (he : s.isEven = true) {before after : List DataSlot} {slot : DataSlot}
    (hd : a.data = before ++ slot :: after) (hw : slot.width = s.recordWidth)
    (hcount : slot.count + s.count.toNat ≤ maxCompactCount)
    (hlen : a.dataMessageLength + s.body.length ≤ a.maxMessage) :
    DataInv { a with data := before ++ slot.grow s :: after } := by
  have hslot := h.slots slot (by rw [hd]; simp)
  refine ⟨?_, ?_, ?_, ?_⟩
  · have hn := h.nodup
    rw [hd, List.map_append, List.map_cons] at hn
    rw [List.map_append, List.map_cons]
    exact hn
  · intro other ho
    rcases List.mem_append.mp ho with ho | ho
    · exact h.slots other (by rw [hd]; exact List.mem_append_left _ ho)
    · rcases List.mem_cons.mp ho with rfl | ho
      · exact hslot.grow he hw hcount
      · exact h.slots other (by rw [hd]; simp [ho])
  · have hp := h.places
    rw [hd, List.length_append, List.length_cons] at hp
    rw [List.length_append, List.length_cons]
    exact hp
  · rw [dataMessageLength, hd] at hlen
    simp only [dataMessageLength, total_eq_sum, List.map_append, List.map_cons, List.sum_append,
      List.sum_cons, setLength, DataSlot.grow, List.length_append] at hlen ⊢
    omega

/-- Records for a template that has no place yet. -/
theorem DataInv.open {a : Aggregation} (h : a.DataInv) {s : CompactSet}
    (he : s.isEven = true) (hid : minTemplateId ≤ s.template ∧ s.template ≤ maxCompactId)
    (hc : s.count ≠ 0) (hnot : ∀ other ∈ a.data, other.template ≠ s.template)
    (hfree : a.data.length < a.maxTemplates) (hcount : s.count.toNat ≤ maxCompactCount)
    (hlen : a.dataMessageLength + setLength s.body ≤ a.maxMessage) :
    DataInv { a with data := a.data ++ [(DataSlot.opened s).grow s] } := by
  have hopened : (DataSlot.opened s).WellFormed :=
    ⟨hid.1, hid.2, CompactSet.recordWidth_pos he hc, Nat.zero_le _, by simp [DataSlot.opened]⟩
  refine ⟨?_, ?_, ?_, ?_⟩
  · rw [List.map_append, List.map_singleton, List.nodup_append]
    refine ⟨h.nodup, by simp, ?_⟩
    rintro t ht t' ht' rfl
    obtain ⟨other, ho, rfl⟩ := List.mem_map.mp ht
    exact hnot other ho (List.mem_singleton.mp ht')
  · intro other ho
    rcases List.mem_append.mp ho with ho | ho
    · exact h.slots other ho
    · rw [List.mem_singleton.mp ho]
      exact hopened.grow he rfl (by simpa [DataSlot.opened] using hcount)
  · rw [List.length_append, List.length_singleton]
    exact hfree
  · rw [dataMessageLength] at hlen
    simp only [dataMessageLength, total_eq_sum, List.map_append, List.map_singleton,
      List.sum_append, List.sum_singleton, setLength, DataSlot.grow, DataSlot.opened,
      List.nil_append] at hlen ⊢
    omega

/-- **A set that is merged** adds its records to the pending ones of its template. -/
theorem mergeSet_ok {a a' : Aggregation} (h : a.DataInv) {s : CompactSet}
    (he : s.isEven = true) (hid : minTemplateId ≤ s.template ∧ s.template ≤ maxCompactId)
    (hok : a.mergeSet s = (.ok (), a')) :
    a'.DataInv ∧ a.SameBounds a' ∧
      a'.pending = collectAll (·.1) joinValues (CompactSet.items [s]) a.pending := by
  rcases mergeSet_cases s h.nodup with ⟨hc, hm⟩ | ⟨e, hm⟩ | ⟨e, hm⟩ |
      ⟨before, slot, after, hc, hd, ht, hb, hw, hcount, hlen, hm⟩ |
      ⟨hc, hnot, hfree, hcount, hlen, hm⟩
  · rw [hm] at hok
    simp only [Prod.mk.injEq, true_and] at hok
    subst hok
    have hitems : CompactSet.items [s] = [] := by simp [CompactSet.items, hc]
    exact ⟨h, ⟨rfl, rfl, rfl, rfl⟩, by rw [hitems]; rfl⟩
  · rw [hm] at hok
    simp at hok
  · rw [hm] at hok
    simp at hok
  · rw [hm] at hok
    simp only [Prod.mk.injEq, true_and] at hok
    subst hok
    refine ⟨h.grow he hd hw hcount hlen, ⟨rfl, rfl, rfl, rfl⟩, ?_⟩
    have hslot := h.slots slot (by rw [hd]; simp)
    have hfront : ∀ e ∈ before.map fun slot => (slot.template, slot.records),
        e.1 ≠ s.item.1 := by
      intro e hmem
      obtain ⟨other, ho, rfl⟩ := List.mem_map.mp hmem
      exact hb other ho
    have htg : (slot.grow s).template = s.template := ht
    rw [items_singleton hc, collectAll_cons, pending, pending, hd]
    simp only [List.map_append, List.map_cons, hslot.records_grow he hc hw, htg, ht]
    have hsame : (s.template, slot.records).1 = s.item.1 := rfl
    exact (collect_split joinValues hsame _ hfront).symm
  · rw [hm] at hok
    simp only [Prod.mk.injEq, true_and] at hok
    subst hok
    refine ⟨h.open he hid hc hnot hfree hcount hlen, ⟨rfl, rfl, rfl, rfl⟩, ?_⟩
    have hopened : (DataSlot.opened s).WellFormed :=
      ⟨hid.1, hid.2, CompactSet.recordWidth_pos he hc, Nat.zero_le _, by simp [DataSlot.opened]⟩
    have hnew : ∀ e ∈ a.pending, e.1 ≠ s.item.1 := by
      intro e hmem
      obtain ⟨other, ho, rfl⟩ := List.mem_map.mp hmem
      exact hnot other ho
    rw [items_singleton hc, collectAll_cons, pending]
    simp only [List.map_append, List.map_singleton, hopened.records_grow he hc rfl,
      DataSlot.records_opened, List.nil_append]
    exact (collect_of_not_mem joinValues hnew).symm

/-! ## 3. Whole messages -/

theorem SameBounds.trans {a b c : Aggregation} (h₁ : a.SameBounds b) (h₂ : b.SameBounds c) :
    a.SameBounds c :=
  ⟨h₂.maxTemplates.trans h₁.maxTemplates, h₂.maxMessage.trans h₁.maxMessage,
    h₂.marked.trans h₁.marked, h₂.templates.trans h₁.templates⟩

theorem items_cons (s : CompactSet) (sets : List CompactSet) :
    CompactSet.items (s :: sets) = CompactSet.items [s] ++ CompactSet.items sets := by
  rw [CompactSet.items, CompactSet.items, CompactSet.items, ← List.map_append,
    ← List.filter_append, List.singleton_append]

/-- **Sets that are all merged** add their records in order. -/
theorem mergeSets_ok {sets : List CompactSet} {a a' : Aggregation} (h : a.DataInv)
    (he : ∀ s ∈ sets, s.isEven = true)
    (hid : ∀ s ∈ sets, minTemplateId ≤ s.template ∧ s.template ≤ maxCompactId)
    (hok : a.mergeSets sets = (.ok (), a')) :
    a'.DataInv ∧ a.SameBounds a' ∧
      a'.pending = collectAll (·.1) joinValues (CompactSet.items sets) a.pending := by
  induction sets generalizing a with
  | nil =>
    simp only [mergeSets, Prod.mk.injEq, true_and] at hok
    subst hok
    exact ⟨h, ⟨rfl, rfl, rfl, rfl⟩, rfl⟩
  | cons s sets ih =>
    simp only [mergeSets] at hok
    split at hok
    · simp at hok
    · rename_i a₁ hs
      obtain ⟨h₁, hb₁, hp₁⟩ := mergeSet_ok h (he s (by simp)) (hid s (by simp)) hs
      obtain ⟨h₂, hb₂, hp₂⟩ := ih h₁ (fun s' hs' => he s' (by simp [hs']))
        (fun s' hs' => hid s' (by simp [hs'])) hok
      refine ⟨h₂, hb₁.trans hb₂, ?_⟩
      rw [hp₂, hp₁, ← collectAll_append, ← items_cons]

/-- **Sets are taken back like none**, however many of them were merged. -/
theorem rollback_mergeSets {sets : List CompactSet} {a : Aggregation} (h : a.DataInv)
    (hm : a.Marked) (he : ∀ s ∈ sets, s.isEven = true)
    (hid : ∀ s ∈ sets, minTemplateId ≤ s.template ∧ s.template ≤ maxCompactId) :
    (a.mergeSets sets).2.rollback = a.rollback := by
  induction sets generalizing a with
  | nil => rfl
  | cons s sets ih =>
    obtain ⟨hr, hm'⟩ := rollback_mergeSet h hm s
    simp only [mergeSets]
    split
    · rename_i e a₁ hs
      rw [hs] at hr
      exact hr
    · rename_i a₁ hs
      rw [hs] at hr hm'
      obtain ⟨h₁, -, -⟩ := mergeSet_ok h (he s (by simp)) (hid s (by simp)) hs
      rw [ih h₁ hm' (fun s' hs' => he s' (by simp [hs'])) fun s' hs' => hid s' (by simp [hs'])]
      exact hr

section Message

variable {bytes : List UInt8} {m : CompactMessage} (hp : CompactMessage.parse bytes = .ok m)
  (hk : m.kind = .data) {a a' : Aggregation} (h : a.DataInv)

include hp hk h

/-- **A data message that is merged** adds the records of its sets, in order. -/
theorem merge_data_ok {n : Nat} (hok : a.merge m = (.ok n, a')) :
    n = m.recordCount ∧ a'.DataInv ∧ a.checkpoint.SameBounds a' ∧
      a'.pending = collectAll (·.1) joinValues (CompactSet.items m.sets) a.pending := by
  obtain ⟨-, -, -, -, hc⟩ := CompactMessage.parse_eq_ok hp
  rw [hk] at hc
  simp only [merge, hk] at hok
  split at hok
  · simp at hok
  · rename_i a₁ hs
    simp only [Prod.mk.injEq, Except.ok.injEq] at hok
    obtain ⟨rfl, rfl⟩ := hok
    obtain ⟨h', hb, hpend⟩ := mergeSets_ok h.checkpoint
      (fun s hs => CompactSet.isEven_of_check (hc s hs))
      (fun s hs => CompactMessage.template_of_mem_sets hp hs) hs
    rw [pending_checkpoint] at hpend
    exact ⟨rfl, h', hb, hpend⟩

/-- **A data message that is refused** leaves what was there at the checkpoint. -/
theorem merge_data_error {e : CodecError} (hok : a.merge m = (.error e, a')) :
    a' = a.checkpoint := by
  obtain ⟨-, -, -, -, hc⟩ := CompactMessage.parse_eq_ok hp
  rw [hk] at hc
  have hr := rollback_mergeSets h.checkpoint a.marked_checkpoint
    (fun s hs => CompactSet.isEven_of_check (hc s hs))
    (fun s hs => CompactMessage.template_of_mem_sets hp hs)
  rw [rollback_checkpoint h] at hr
  simp only [merge, hk] at hok
  split at hok
  · rename_i e' a₁ hs
    rw [hs] at hr
    simp only [Prod.mk.injEq] at hok
    rw [← hok.2]
    exact hr
  · simp at hok

end Message

end Aggregation

end FlowExport

/-
# A data message is merged whole or not at all

`merge_data_exact` says what merging a data message comes to, without the steps.  What would be
pending with the whole message is its records joined to those that are (`joined`), and the message
is merged exactly if that fits (`Fits`): a place for each template, one width and at most 255
records in each, and the message that carries them no longer than it may be.  Then that is what is
pending; otherwise everything shows as before, now and later.

The sets are merged one after the other, and each is refused or not by what stands there so far.
That this comes to one condition on the end has two reasons.  What fits with more joined to it
fits without (`Fits.of_joined`), so a message that fits has no set to stop at (`mergeSets_of_fits`);
and what stands there after sets that were merged fits, whatever they were (`fits_pending`).
-/
import FlowExport.Proofs.Wire.AggregationRun
import Mathlib.Algebra.Order.BigOperators.Group.List
import Mathlib.Algebra.Order.Group.Nat

namespace FlowExport.Aggregation

/-! ## 1. What fits -/

/-- The length of the data message that carries these records. -/
def lengthOf (entries : List (UInt16 × List (List UInt8))) : Nat :=
  Encoding.compact.headerLength + total (entries.map fun e => setLength e.2.flatten)

/-- **Whether records, under their templates, fit** into so many places and a message of such a
length. -/
structure Fits (maxTemplates maxMessage : Nat) (entries : List (UInt16 × List (List UInt8))) :
    Prop where
  places : entries.length ≤ maxTemplates
  /-- The records of a template are of one width. -/
  width : ∀ e ∈ entries, ∀ r ∈ e.2, ∀ r' ∈ e.2, r.length = r'.length
  count : ∀ e ∈ entries, e.2.length ≤ maxCompactCount
  length : lengthOf entries ≤ maxMessage

instance (n m : Nat) (entries : List (UInt16 × List (List UInt8))) :
    Decidable (Fits n m entries) :=
  decidable_of_iff
    (entries.length ≤ n ∧ (∀ e ∈ entries, ∀ r ∈ e.2, ∀ r' ∈ e.2, r.length = r'.length) ∧
      (∀ e ∈ entries, e.2.length ≤ maxCompactCount) ∧ lengthOf entries ≤ m)
    ⟨fun ⟨h₁, h₂, h₃, h₄⟩ => ⟨h₁, h₂, h₃, h₄⟩, fun ⟨h₁, h₂, h₃, h₄⟩ => ⟨h₁, h₂, h₃, h₄⟩⟩

namespace Fits

variable {n m : Nat} {entries items before after : List (UInt16 × List (List UInt8))}
  {e item : UInt16 × List (List UInt8)}

/-- **What fits with more joined to it** fits without. -/
theorem of_joined (h : Fits n m (joined entries items)) : Fits n m entries := by
  have hmem : ∀ e ∈ entries, (e.1, e.2 ++ valuesOf e.1 items) ∈ joined entries items :=
    fun e he => List.mem_append_left _ (List.mem_map.mpr ⟨e, he, rfl⟩)
  refine ⟨?_, ?_, ?_, ?_⟩
  · have hp := h.places
    rw [joined, List.length_append, List.length_map] at hp
    omega
  · intro e he r hr r' hr'
    exact h.width _ (hmem e he) r (List.mem_append_left _ hr) r' (List.mem_append_left _ hr')
  · intro e he
    have hc := h.count _ (hmem e he)
    rw [List.length_append] at hc
    omega
  · have hl := h.length
    have hle : (entries.map fun e => setLength e.2.flatten).sum
        ≤ (entries.map fun e => setLength (e.2 ++ valuesOf e.1 items).flatten).sum := by
      refine List.sum_le_sum fun e _ => ?_
      rw [setLength, setLength, List.flatten_append, List.length_append]
      omega
    simp only [lengthOf, joined, total_eq_sum, List.map_append, List.map_map, Function.comp_def,
      List.sum_append] at hl ⊢
    omega

/-- What it takes to join records to an entry. -/
theorem join (h : Fits n m (before ++ joinValues e item :: after)) :
    (∀ r ∈ e.2, ∀ r' ∈ item.2, r.length = r'.length) ∧
      e.2.length + item.2.length ≤ maxCompactCount ∧
      lengthOf (before ++ e :: after) + item.2.flatten.length ≤ m := by
  have hmem : joinValues e item ∈ before ++ joinValues e item :: after := by simp
  refine ⟨?_, ?_, ?_⟩
  · intro r hr r' hr'
    exact h.width _ hmem r (List.mem_append_left _ hr) r' (List.mem_append_right _ hr')
  · have hc := h.count _ hmem
    rwa [joinValues, List.length_append] at hc
  · have hl := h.length
    simp only [lengthOf, total_eq_sum, List.map_append, List.map_cons, List.sum_append,
      List.sum_cons, joinValues, List.flatten_append, setLength, List.length_append] at hl ⊢
    omega

/-- What it takes to add an entry. -/
theorem add (h : Fits n m (entries ++ [item])) :
    entries.length < n ∧ item.2.length ≤ maxCompactCount ∧
      lengthOf entries + setLength item.2.flatten ≤ m := by
  refine ⟨?_, h.count item (by simp), ?_⟩
  · have hp := h.places
    rwa [List.length_append, List.length_singleton] at hp
  · have hl := h.length
    simp only [lengthOf, total_eq_sum, List.map_append, List.map_singleton, List.sum_append,
      List.sum_singleton] at hl ⊢
    omega

end Fits

section Pending

variable {a : Aggregation} (h : a.DataInv)

include h

theorem lengthOf_pending : lengthOf a.pending = a.dataMessageLength := by
  rw [lengthOf, dataMessageLength, pending, List.map_map]
  refine congrArg (Encoding.compact.headerLength + total ·) (List.map_congr_left fun slot hs => ?_)
  rw [Function.comp_apply, (h.slots slot hs).flatten_records]

theorem nodup_pending : (a.pending.map (·.1)).Nodup := by
  rw [pending, List.map_map]
  exact h.nodup

/-- **What is pending fits.** -/
theorem fits_pending : Fits a.maxTemplates a.maxMessage a.pending := by
  refine ⟨?_, ?_, ?_, by rw [lengthOf_pending h]; exact h.length⟩
  · rw [pending, List.length_map]
    exact h.places
  · intro e he r hr r' hr'
    obtain ⟨slot, -, rfl⟩ := List.mem_map.mp he
    rw [Octets.length_of_mem_pieces hr, Octets.length_of_mem_pieces hr']
  · intro e he
    obtain ⟨slot, hs, rfl⟩ := List.mem_map.mp he
    rw [(h.slots slot hs).length_records]
    exact (h.slots slot hs).count_le

/-- The counts and octets of the places are those of what is pending. -/
theorem data_eq_pending :
    a.data.map (fun slot => (slot.template, slot.count, slot.bytes))
      = a.pending.map fun e => (e.1, e.2.length, e.2.flatten) := by
  rw [pending, List.map_map]
  refine List.map_congr_left fun slot hs => ?_
  rw [Function.comp_apply, (h.slots slot hs).length_records, (h.slots slot hs).flatten_records]

end Pending

/-! ## 2. What fits is merged -/

theorem appendRecords_ok {s : CompactSet} {slot : DataSlot} {needed : Nat} (a : Aggregation)
    (hw : slot.width = s.recordWidth) (hc : slot.count + s.count.toNat ≤ maxCompactCount)
    (hl : needed ≤ a.maxMessage) : ∃ a', a.appendRecords s slot needed = (.ok (), a') := by
  rcases appendRecords_cases s slot needed a with ⟨e, he⟩ | ⟨-, -, -, hok⟩
  · simp only [appendRecords] at he
    rw [if_neg (not_not_intro hw), if_neg (Nat.not_lt.mpr hc), if_neg (Nat.not_lt.mpr hl)] at he
    simp at he
  · exact ⟨_, hok⟩

/-- **What is pending for the template of a set** is in the place that is found for it. -/
theorem pending_of_find {a : Aggregation} (h : a.DataInv) {template : UInt16} {slot : DataSlot}
    (hfind : a.data.find? (·.template == template) = some slot) :
    slot ∈ a.data ∧ ∃ before after,
      a.pending = before ++ (slot.template, slot.records) :: after ∧ slot.template = template ∧
        ∀ e ∈ before, e.1 ≠ template := by
  obtain ⟨before, after, hd, ht, hbefore, -, -⟩ := split_of_find h.nodup hfind slot
  refine ⟨by rw [hd]; simp, before.map fun slot => (slot.template, slot.records),
    after.map fun slot => (slot.template, slot.records), ?_, ht, ?_⟩
  · rw [pending, hd, List.map_append, List.map_cons]
  · intro e he
    obtain ⟨other, ho, rfl⟩ := List.mem_map.mp he
    exact hbefore other ho

theorem not_pending_of_find {a : Aggregation} {template : UInt16}
    (hfind : a.data.find? (·.template == template) = none) : ∀ e ∈ a.pending, e.1 ≠ template := by
  intro e he
  obtain ⟨other, ho, rfl⟩ := List.mem_map.mp he
  exact not_mem_of_find_none hfind other ho

section Sets

variable {a : Aggregation} (h : a.DataInv) (hfilled : ∀ e ∈ a.pending, e.2 ≠ [])

include h hfilled

/-- **A set whose records fit** with those that are pending is not refused. -/
theorem mergeSet_of_fits {s : CompactSet} (he : s.isEven = true)
    (hf : Fits a.maxTemplates a.maxMessage
      (collectAll (·.1) joinValues (CompactSet.items [s]) a.pending)) :
    ∃ a', a.mergeSet s = (.ok (), a') := by
  by_cases hc : s.count = 0
  · exact ⟨a, by rw [mergeSet, if_pos hc]⟩
  rw [items_singleton hc] at hf
  change Fits _ _ (collect (·.1) joinValues s.item a.pending) at hf
  have hbody : s.item.2.flatten = s.body := CompactSet.flatten_records he
  have hcount : s.item.2.length = s.count.toNat := CompactSet.length_records he
  simp only [mergeSet, if_neg hc]
  split
  · rename_i slot hfind
    obtain ⟨hmem, before, after, hpend, ht, hbefore⟩ := pending_of_find h hfind
    have hsame : (slot.template, slot.records).1 = s.item.1 := ht
    rw [hpend, collect_split joinValues hsame after hbefore] at hf
    obtain ⟨hw, hn, hl⟩ := hf.join
    rw [← hpend, lengthOf_pending h, hbody] at hl
    rw [hcount, (h.slots slot hmem).length_records] at hn
    refine appendRecords_ok a ?_ hn hl
    -- both have records to compare
    obtain ⟨r, hr⟩ := List.exists_mem_of_ne_nil slot.records
      (hfilled (slot.template, slot.records) (by rw [hpend]; simp))
    obtain ⟨r', hr'⟩ := List.exists_mem_of_ne_nil s.item.2 (by
      intro hnil
      rw [hnil, List.length_nil] at hcount
      exact hc (UInt8.toNat_inj.mp hcount.symm))
    have hlen := hw r hr r' hr'
    rw [CompactSet.item, CompactSet.records_eq_pieces he hc] at hr'
    rwa [Octets.length_of_mem_pieces hr, Octets.length_of_mem_pieces hr'] at hlen
  · rename_i hfind
    rw [collect_of_not_mem joinValues (not_pending_of_find hfind)] at hf
    obtain ⟨hplaces, hn, hl⟩ := hf.add
    rw [lengthOf_pending h, hbody] at hl
    rw [pending, List.length_map] at hplaces
    rw [if_neg (Nat.not_le.mpr hplaces)]
    refine appendRecords_ok _ rfl ?_ hl
    rwa [hcount, ← Nat.zero_add s.count.toNat] at hn

/-- **Sets whose records fit**, all of them together, are all merged. -/
theorem mergeSets_of_fits {sets : List CompactSet} (he : ∀ s ∈ sets, s.isEven = true)
    (hid : ∀ s ∈ sets, minTemplateId ≤ s.template ∧ s.template ≤ maxCompactId)
    (hf : Fits a.maxTemplates a.maxMessage
      (collectAll (·.1) joinValues (CompactSet.items sets) a.pending)) :
    ∃ a', a.mergeSets sets = (.ok (), a') := by
  induction sets generalizing a with
  | nil => exact ⟨a, rfl⟩
  | cons s sets ih =>
    have hes := he s List.mem_cons_self
    have hall : ∀ s' ∈ [s], s'.isEven = true := by
      intro s' hs'
      rwa [List.mem_singleton.mp hs']
    rw [items_cons, collectAll_append] at hf
    -- the records of the first set fit, because they do so with the others joined to them
    have hnodup := nodup_collectAll joinValues_key (CompactSet.items [s]) (nodup_pending h)
    have hone := hf
    rw [collectAll_eq_joined _ hnodup] at hone
    obtain ⟨a₁, hs⟩ := mergeSet_of_fits h hfilled hes hone.of_joined
    obtain ⟨h₁, hb, hp⟩ := mergeSet_ok h hes (hid s List.mem_cons_self) hs
    have hfilled₁ : ∀ e ∈ a₁.pending, e.2 ≠ [] := by
      rw [hp]
      exact filled_collectAll hall hfilled
    rw [← hp, ← hb.maxTemplates, ← hb.maxMessage] at hf
    obtain ⟨a', hm⟩ := ih h₁ hfilled₁ (fun s' hs' => he s' (List.mem_cons_of_mem _ hs'))
      (fun s' hs' => hid s' (List.mem_cons_of_mem _ hs')) hf
    exact ⟨a', by rw [mergeSets, hs]; exact hm⟩

end Sets

/-! ## 3. Whole messages -/

/-- **When a data message is merged**: if its records fit with those that are pending; otherwise
nothing is left of it but marks. -/
theorem merge_data_cases {n m : Nat} {a : Aggregation} (h : a.Settled n m) {bytes : List UInt8}
    {message : CompactMessage} (hp : CompactMessage.parse bytes = .ok message)
    (hk : message.kind = .data) :
    Fits n m (joined a.pending (CompactSet.items message.sets)) ∧
        (∃ a', a.merge message = (.ok message.recordCount, a') ∧ a'.DataInv ∧
          a'.pending = joined a.pending (CompactSet.items message.sets) ∧
          a'.templates = a.templates) ∨
      ¬ Fits n m (joined a.pending (CompactSet.items message.sets)) ∧
        ∃ e, a.merge message = (.error e, a.checkpoint) := by
  have hd := h.inv.data
  have hcombined := collectAll_eq_joined (CompactSet.items message.sets) (nodup_pending hd)
  obtain ⟨-, -, -, -, hc⟩ := CompactMessage.parse_eq_ok hp
  rw [hk] at hc
  rcases hmerge : a.merge message with ⟨e | count, a'⟩
  · right
    rw [merge_data_error hp hk hd hmerge]
    refine ⟨fun hf => ?_, e, rfl⟩
    -- had the records fitted, no set would have been refused
    have hfilled : ∀ e ∈ a.checkpoint.pending, e.2 ≠ [] := by
      rw [pending_checkpoint]
      exact h.filled
    rw [← hcombined, ← pending_checkpoint, ← h.maxTemplates, ← h.maxMessage] at hf
    obtain ⟨a₁, hsets⟩ := mergeSets_of_fits hd.checkpoint hfilled
      (fun s hs => CompactSet.isEven_of_check (hc s hs))
      (fun s hs => CompactMessage.template_of_mem_sets hp hs) hf
    simp only [merge, hk, hsets] at hmerge
    simp at hmerge
  · left
    obtain ⟨rfl, hd', hb, hpend⟩ := merge_data_ok hp hk hd hmerge
    rw [hcombined] at hpend
    have hf := fits_pending hd'
    rw [hb.maxTemplates, hb.maxMessage, hpend, maxTemplates_checkpoint, maxMessage_checkpoint,
      h.maxTemplates, h.maxMessage] at hf
    exact ⟨hf, a', rfl, hd', hpend, hb.templates⟩

/-- **Merging a data message is exact and atomic**, whatever the aggregation has been through.
Let `combined` be what is pending with the records of all its sets behind those of their
templates.  The message is merged exactly if `combined` fits, and then it is `combined` that is
pending; the number returned is that of the message's records.  If it is refused, no difference to
an aggregation that was never given it can be seen, whatever is done later. -/
theorem merge_data_exact {n m : Nat} (hm : Encoding.compact.headerLength ≤ m)
    {bytes : List UInt8} {message : CompactMessage}
    (hp : CompactMessage.parse bytes = .ok message) (hk : message.kind = .data)
    (past : List Operation) :
    let a := (empty n m).run past
    let combined := joined a.pending (CompactSet.items message.sets)
    ((a.merge message).1 = .ok message.recordCount ↔ Fits n m combined) ∧
    (∀ count a', a.merge message = (.ok count, a') →
      count = message.recordCount ∧ a'.pending = combined ∧
      a'.data.map (fun slot => (slot.template, slot.count, slot.bytes))
        = combined.map (fun e => (e.1, e.2.length, e.2.flatten)) ∧
      a'.templates = a.templates) ∧
    (∀ e a', a.merge message = (.error e, a') →
      a'.pending = a.pending ∧ a'.templates = a.templates ∧ a'.view = a.view ∧
      ∀ later : List Operation,
        a'.outcomes later = a.outcomes later ∧ (a'.run later).view = (a.run later).view) := by
  intro a combined
  have hs : a.Settled n m := (settled_empty n hm).run past
  rcases merge_data_cases hs hp hk with ⟨hf, a₁, he, hd, hpend, htemplates⟩ | ⟨hnot, e, he⟩
  · rw [he]
    refine ⟨⟨fun _ => hf, fun _ => rfl⟩, ?_, ?_⟩
    · intro count a' hok
      obtain ⟨hcount, rfl⟩ := Prod.mk.inj hok
      refine ⟨(Except.ok.inj hcount).symm, hpend, ?_, htemplates⟩
      rw [data_eq_pending hd, hpend]
    · intro e a' herr
      simp at herr
  · rw [he]
    refine ⟨⟨?_, fun hf => absurd hf hnot⟩, ?_, ?_⟩
    · intro hok
      simp at hok
    · intro count a' hok
      simp at hok
    · intro e' a' herr
      obtain rfl := (Prod.mk.inj herr).2
      exact ⟨pending_checkpoint a, templates_checkpoint a, view_checkpoint a,
        run_eq_of_checkpoint (checkpoint_checkpoint a)⟩

/-- Three sets of one record each, the last with a wider record for the template of the first. -/
def twoWidths : List Frame :=
  [⟨(0, 1), [9]⟩, ⟨(1, 1), [1]⟩, ⟨(0, 1), [1, 2]⟩]

/-- Of a message with two widths for one template nothing stays, although its first two sets have
opened places before the third is refused. -/
theorem merge_data_exact_twoWidths :
    Encoding.compact.headerLength ≤ 64 ∧ ∃ message : CompactMessage,
      CompactMessage.parse (({} : Exporter).message .compact .data 0
        (twoWidths.flatMap Frame.encode)) = .ok message ∧
      message.kind = .data ∧
      ∃ e a', (empty 2 64).merge message = (.error e, a') ∧ a'.pending = [] ∧
        a'.view = (empty 2 64).view := by
  have hcheck : ∀ f ∈ twoWidths, (CompactSet.ofFrame f).check .data = .ok () := by decide
  have hlength : Encoding.compact.headerLength + (twoWidths.flatMap Frame.encode).length
      ≤ maxLength := by decide
  obtain ⟨message, hparse, hk, hsets⟩ : ∃ message : CompactMessage,
      CompactMessage.parse (({} : Exporter).message .compact .data 0
        (twoWidths.flatMap Frame.encode)) = .ok message ∧
      message.kind = .data ∧ message.sets = twoWidths.map CompactSet.ofFrame :=
    ⟨_, CompactMessage.parse_message {} .data 0 hlength hcheck, rfl,
      CompactMessage.sets_mk _ (Frame.length_le_of_flatMap hlength)⟩
  have hm : Encoding.compact.headerLength ≤ 64 := by decide
  obtain ⟨hiff, hok, herr⟩ := merge_data_exact (n := 2) hm hparse hk []
  rw [hsets] at hiff
  have hrefused : ¬ Fits 2 64 (joined (empty 2 64).pending
      (CompactSet.items (twoWidths.map CompactSet.ofFrame))) := by decide
  refine ⟨hm, message, hparse, hk, ?_⟩
  rcases hmerge : (empty 2 64).merge message with ⟨e | count, a'⟩
  · obtain ⟨hpend, -, hview, -⟩ := herr e a' hmerge
    exact ⟨e, a', rfl, hpend, hview⟩
  · obtain ⟨rfl, -⟩ := hok count a' hmerge
    exact absurd (hiff.mp (congrArg Prod.fst hmerge)) hrefused

end FlowExport.Aggregation

/-
# Aggregates of aggregates

The messages of one cycle may be collected at one place, or at several that forward what they
collected to another.  Where the several places could take their shares it comes to the same:
everything is accepted in the one arrangement exactly if it is in the other, and what is then
forwarded is the same to the octet (`flat_iff_stacked`).

What a message brings that was forwarded is what was pending there (`items_of_forwards`), and that
is what the messages of the share brought, grouped.  So the statement is about groups: those of the
groups are those of all (`grouped_flatMap_grouped`).
-/
import FlowExport.Proofs.Wire.Forwarding

namespace FlowExport

/-- The reader cuts the records of a place where they were joined. -/
theorem DataSlot.WellFormed.records_toSet {slot : DataSlot} (h : slot.WellFormed) :
    slot.toSet.records = slot.records := by
  have hread : (CompactSet.mk slot.template (UInt8.ofNat slot.records.length)
      slot.records.flatten).records = slot.records := by
    refine CompactSet.records_flatten h.width_pos (fun r hr => Octets.length_of_mem_pieces hr) ?_
    rw [h.length_records]
    exact h.count_le
  rwa [h.length_records, h.flatten_records] at hread

namespace Aggregation

/-! ## 1. One place -/

/-- **`d` is the data message of `a`**, written into some buffer, at some time and under some
number, as its receiver has it. -/
def Forwards (a : Aggregation) (d : DataMessage) : Prop :=
  ∃ (buffer : Buffer) (x : Exporter) (time : UInt32) (payload : List UInt8),
    (Draft.compose buffer x .compact .data time a.writeData).1 = .ok payload ∧
      CompactMessage.parse payload = .ok d.message

section Place

variable {n m : Nat} {a : Aggregation} (h : a.Settled n m)

include h

/-- Whatever is pending can be forwarded. -/
theorem exists_forwards (hmax : m ≤ maxLength) : ∃ d, a.Forwards d := by
  rw [← h.maxMessage] at hmax
  obtain ⟨payload, message, hw, -, hp, hk, -⟩ := forward_data hmax
    (Nat.le_of_eq (Buffer.capacity_ofCapacity a.maxMessage).symm) {} 0 h.inv.data
  exact ⟨⟨message, ⟨payload, hp⟩, hk⟩, _, _, _, payload, hw, hp⟩

/-- **A forwarded message brings what was pending.** -/
theorem items_of_forwards {d : DataMessage} (hd : a.Forwards d) : d.items = a.pending := by
  obtain ⟨buffer, x, time, payload, hw, hp⟩ := hd
  rw [writeData_eq_sets h.inv.data] at hw
  have hsets := CompactMessage.sets_of_compose h.inv.data.grammatical x time hw hp
  have hrecords : (d.message.sets.map fun s => (s.template, s.records)) = a.pending := by
    rw [hsets, List.map_map]
    refine List.map_congr_left fun slot hslot => ?_
    exact congrArg (slot.template, ·) (h.inv.data.slots slot hslot).records_toSet
  -- no place is without records, so the receiver passes over no set
  have hitems := CompactMessage.items_of_records hp d.kind hrecords h.filled
  rw [CompactMessage.items, d.kind] at hitems
  exact hitems

end Place

/-! ## 2. Several places -/

/-- **Several places forward** what they collected of their shares, each in one message. -/
abbrev ForwardAll (n m : Nat) : List (List DataMessage) → List DataMessage → Prop :=
  List.Forall₂ fun share d => ((empty n m).mergeAll share).Forwards d

section Places

variable {n m : Nat} {shares : List (List DataMessage)}
  (hm : Encoding.compact.headerLength ≤ m)

include hm

/-- Whatever the shares are, all that is collected of them can be forwarded. -/
theorem exists_forwardAll (hmax : m ≤ maxLength) (shares : List (List DataMessage)) :
    ∃ forwarded, ForwardAll n m shares forwarded := by
  induction shares with
  | nil => exact ⟨[], .nil⟩
  | cons share shares ih =>
    obtain ⟨forwarded, hall⟩ := ih
    obtain ⟨d, hd⟩ := exists_forwards ((settled_empty n hm).mergeAll share) hmax
    exact ⟨d :: forwarded, .cons hd hall⟩

/-- Share by share, what is forwarded is the share grouped. -/
theorem items_of_forwardAll {forwarded : List DataMessage}
    (hshares : ∀ share ∈ shares, (empty n m).AcceptsAll share)
    (h : ForwardAll n m shares forwarded) :
    forwarded.flatMap (·.items)
      = (shares.map fun share => share.flatMap (·.items)).flatMap grouped := by
  have hs := settled_empty n hm
  induction h with
  | nil => rfl
  | @cons share d shares forwarded hd _ ih =>
    have hpend := pending_mergeAll hs (hshares share List.mem_cons_self)
    rw [List.flatMap_cons, List.map_cons, List.flatMap_cons,
      items_of_forwards (hs.mergeAll share) hd, hpend,
      ih fun other ho => hshares other (List.mem_cons_of_mem _ ho)]
    exact congrArg (· ++ _) (joined_nil _)

/-- **What several places forward** comes to the same as all that they collected. -/
theorem joined_forwardAll {forwarded : List DataMessage}
    (hshares : ∀ share ∈ shares, (empty n m).AcceptsAll share)
    (h : ForwardAll n m shares forwarded) :
    joined (empty n m).pending (forwarded.flatMap (·.items))
      = joined (empty n m).pending (shares.flatten.flatMap (·.items)) := by
  have hflat : shares.flatten.flatMap (·.items)
      = (shares.map fun share => share.flatMap (·.items)).flatten := by
    rw [← List.flatMap_id, List.flatMap_assoc]
    rfl
  calc joined [] (forwarded.flatMap (·.items))
      = grouped (forwarded.flatMap (·.items)) := joined_nil _
    _ = grouped ((shares.map fun share => share.flatMap (·.items)).flatMap grouped) := by
        rw [items_of_forwardAll hm hshares h]
    _ = grouped (shares.flatten.flatMap (·.items)) := by rw [grouped_flatMap_grouped, hflat]
    _ = joined [] (shares.flatten.flatMap (·.items)) := (joined_nil _).symm

/-- **Hierarchical collection equals flat collection.**  Let each of several places collect its
share, no message of which is refused, and forward it.  Then all the messages are accepted at one
place exactly if all the forwarded ones are; and if they are, that place writes the same octets in
either case and gives the same answers. -/
theorem flat_iff_stacked (hmax : m ≤ maxLength)
    (hshares : ∀ share ∈ shares, (empty n m).AcceptsAll share) :
    (∃ forwarded, ForwardAll n m shares forwarded) ∧
    ∀ forwarded, ForwardAll n m shares forwarded →
      let flat := (empty n m).mergeAll shares.flatten
      let stacked := (empty n m).mergeAll forwarded
      ((empty n m).AcceptsAll shares.flatten ↔ (empty n m).AcceptsAll forwarded) ∧
      ((empty n m).AcceptsAll shares.flatten →
        (∀ (buffer : Buffer) (x : Exporter) (time : UInt32),
          Draft.compose buffer x .compact .data time flat.writeData
              = Draft.compose buffer x .compact .data time stacked.writeData ∧
            (m ≤ buffer.capacity → ∃ payload,
              (Draft.compose buffer x .compact .data time flat.writeData).1 = .ok payload)) ∧
        flat.recordCount = stacked.recordCount ∧ flat.data.length = stacked.data.length ∧
        ∀ template, flat.recordsFor template = stacked.recordsFor template) := by
  have hs := settled_empty n hm
  refine ⟨exists_forwardAll hm hmax shares, fun forwarded hforwarded => ?_⟩
  intro flat stacked
  have hjoined := joined_forwardAll hm hshares hforwarded
  have hiff : (empty n m).AcceptsAll shares.flatten ↔ (empty n m).AcceptsAll forwarded := by
    rw [acceptsAll_iff hs, acceptsAll_iff hs, hjoined]
  refine ⟨hiff, fun hacc => ?_⟩
  have hflat : flat.Settled n m := hs.mergeAll _
  have hstacked : stacked.Settled n m := hs.mergeAll _
  have hpending : flat.pending = stacked.pending := by
    rw [pending_mergeAll hs hacc, pending_mergeAll hs (hiff.mp hacc), hjoined]
  obtain ⟨hwrite, hanswers⟩ :=
    answers_of_pending_eq hflat.inv.data hstacked.inv.data hpending
  refine ⟨fun buffer x time => ⟨by rw [hwrite], fun hcap => ?_⟩, hanswers⟩
  rw [← hflat.maxMessage] at hmax hcap
  obtain ⟨payload, -, hw, -⟩ := forward_data hmax hcap x time hflat.inv.data
  exact ⟨payload, hw⟩

end Places

/-- Two places with a message each: what they forward fills a third as the messages would. -/
theorem flat_iff_stacked_oneRecord :
    Encoding.compact.headerLength ≤ 18 ∧ 18 ≤ maxLength ∧
    (∀ share ∈ [[oneRecord], [otherFirst]], (empty 2 18).AcceptsAll share) ∧
    ∃ forwarded, (empty 2 18).AcceptsAll forwarded ∧
      ((empty 2 18).mergeAll forwarded).recordCount = 3 := by
  have hm : Encoding.compact.headerLength ≤ 18 := by decide
  have hmax : 18 ≤ maxLength := by decide
  have hs : (empty 2 18).Settled 2 18 := settled_empty 2 hm
  have hshares : ∀ share ∈ [[oneRecord], [otherFirst]], (empty 2 18).AcceptsAll share := by
    simp only [List.forall_mem_cons, List.not_mem_nil, false_imp_iff, implies_true, and_true,
      acceptsAll_iff hs, List.flatMap_singleton, oneRecord, otherFirst,
      DataMessage.items_ofFrames]
    decide
  obtain ⟨⟨forwarded, hforwarded⟩, hall⟩ := flat_iff_stacked hm hmax hshares
  obtain ⟨hiff, hsame⟩ := hall forwarded hforwarded
  obtain ⟨hacc, hpend⟩ := pending_oneRecord
  obtain ⟨-, hcount, -⟩ := hsame hacc
  refine ⟨hm, hmax, hshares, forwarded, hiff.mp hacc, hcount.symm.trans ?_⟩
  refine (recordCount_eq (hs.mergeAll [oneRecord, otherFirst]).inv.data).trans ?_
  rw [hpend]
  decide

end Aggregation

end FlowExport

/-
# Who is tracked

A flow table is a bounded map that keeps whom it saw first.  What it holds is a function of what
was observed since it was last flushed and of its capacity, and of nothing else (`firstCome`): the
destinations in the order of their first appearance, as many of them as there is room for, each
with the sum of its bytes and the number of its packets, cut off where a counter ends.  In
particular a destination that was turned away once is turned away until the next flush, and the
packets that were lost this way leave no trace.

One observation takes the closed form of what was seen to the closed form of what is seen then
(`update_firstCome`); the state after any operations is that step, folded (`records_run`).
-/
import FlowExport.Flow.Table
import FlowExport.Observation
import FlowExport.Proofs.Octets
import Mathlib.Data.List.Induction

namespace FlowExport

/-! ## 1. First appearances -/

section FirstAppearances

variable {α : Type} [DecidableEq α]

/-- One more element appears for the first time, or it does not count. -/
theorem eraseDups_concat (l : List α) (a : α) :
    (l ++ [a]).eraseDups = if a ∈ l then l.eraseDups else l.eraseDups ++ [a] := by
  rw [List.eraseDups_append]
  split
  · rename_i h
    have hnone : [a].removeAll l = [] := by simp [List.removeAll, h]
    rw [hnone, List.eraseDups_nil, List.append_nil]
  · rename_i h
    have hone : [a].removeAll l = [a] := by simp [List.removeAll, h]
    rw [hone]
    rfl

/-- What appears appears for the first time once. -/
theorem nodup_eraseDups (l : List α) : l.eraseDups.Nodup := by
  induction l using List.reverseRecOn with
  | nil => exact List.nodup_nil
  | append_singleton l a ih =>
    rw [eraseDups_concat]
    split
    · exact ih
    · rename_i h
      rw [List.nodup_append]
      refine ⟨ih, List.pairwise_singleton _ _, ?_⟩
      rintro x hx y hy rfl
      rw [List.mem_singleton.mp hy, List.mem_eraseDups] at hx
      exact h hx

end FirstAppearances

/-! ## 2. What was observed, in closed form -/

/-- The largest value of a counter. -/
def counterLimit : Nat := 2 ^ 64 - 1

section Observed

variable (seen : List Observation)

/-- The destinations observed, in the order of their first appearance. -/
def destinationsOf : List Address :=
  (seen.map (·.destination)).eraseDups

/-- The bytes of all packets towards a destination. -/
def bytesTowards (d : Address) : Nat :=
  ((seen.filter (·.destination = d)).map (·.bytes.toNat)).sum

/-- The packets towards a destination. -/
def packetsTowards (d : Address) : Nat :=
  (seen.filter (·.destination = d)).length

/-- The record of a destination: both counts, cut off where a counter ends. -/
def tally (d : Address) : FlowRecord where
  destination := d
  bytes := UInt64.ofNat (min counterLimit (bytesTowards seen d))
  packets := UInt64.ofNat (min counterLimit (packetsTowards seen d))

/-- **What a table of so many places holds**: the destinations that came first. -/
def firstCome (capacity : Nat) : List FlowRecord :=
  ((destinationsOf seen).take capacity).map (tally seen)

variable {seen} (d : Address) (o : Observation)

theorem toNat_ofNat_min (n : Nat) :
    (UInt64.ofNat (min counterLimit n)).toNat = min counterLimit n := by
  rw [UInt64.toNat_ofNat', counterLimit]
  omega

theorem tally_bytes : (tally seen d).bytes.toNat = min counterLimit (bytesTowards seen d) :=
  toNat_ofNat_min _

theorem tally_packets : (tally seen d).packets.toNat = min counterLimit (packetsTowards seen d) :=
  toNat_ofNat_min _

/-- **One packet more** counts for its own destination, and cutting off twice is cutting off once:
the record of the sum is the sum of the records. -/
theorem tally_concat : tally (seen ++ [o]) d
    = if d = o.destination then (tally seen d).add o.bytes else tally seen d := by
  have hsize : UInt64.size = 2 ^ 64 := rfl
  split
  · rename_i hd
    have hb : bytesTowards (seen ++ [o]) d = bytesTowards seen d + o.bytes.toNat := by
      simp [bytesTowards, List.filter_append, hd]
    have hp : packetsTowards (seen ++ [o]) d = packetsTowards seen d + 1 := by
      simp [packetsTowards, List.filter_append, hd]
    rw [FlowRecord.add, FlowRecord.mk.injEq]
    refine ⟨rfl, UInt64.toNat_inj.mp ?_, UInt64.toNat_inj.mp ?_⟩
    · rw [tally_bytes, hb, toNat_saturatingAdd, tally_bytes, counterLimit]
      omega
    · rw [tally_packets, hp, toNat_saturatingAdd, tally_packets, UInt64.toNat_one, counterLimit]
      omega
  · rename_i hd
    have hnone : (seen ++ [o]).filter (·.destination = d) = seen.filter (·.destination = d) := by
      have hother : [o].filter (·.destination = d) = [] := by simpa using fun h => hd h.symm
      rw [List.filter_append, hother, List.append_nil]
    rw [tally, tally, bytesTowards, bytesTowards, packetsTowards, packetsTowards, hnone]

/-- The first packet towards a destination makes its record. -/
theorem tally_concat_new (h : o.destination ∉ seen.map (·.destination)) :
    tally (seen ++ [o]) o.destination = ⟨o.destination, o.bytes, 1⟩ := by
  have hnone : seen.filter (·.destination = o.destination) = [] := by
    rw [List.filter_eq_nil_iff]
    intro p hp heq
    exact h (List.mem_map.mpr ⟨p, hp, by simpa using heq⟩)
  have hzero : tally seen o.destination = ⟨o.destination, 0, 0⟩ := by
    rw [tally, bytesTowards, packetsTowards, hnone]
    rfl
  rw [tally_concat, if_pos rfl, hzero, FlowRecord.add, FlowRecord.mk.injEq]
  refine ⟨rfl, UInt64.toNat_inj.mp ?_, rfl⟩
  have := o.bytes.toNat_lt
  have hsize : UInt64.size = 2 ^ 64 := rfl
  rw [toNat_saturatingAdd, UInt64.toNat_zero]
  omega

/-- What is held of other destinations does not change. -/
theorem map_tally_concat {ds : List Address} (h : o.destination ∉ ds) :
    ds.map (tally (seen ++ [o])) = ds.map (tally seen) := by
  refine List.map_congr_left fun d hd => ?_
  rw [tally_concat, if_neg]
  rintro rfl
  exact h hd

theorem destinationsOf_concat : destinationsOf (seen ++ [o])
    = if o.destination ∈ seen.map (·.destination) then destinationsOf seen
      else destinationsOf seen ++ [o.destination] := by
  rw [destinationsOf, List.map_append, List.map_singleton, eraseDups_concat]
  rfl

/-- A table that is full has heard enough. -/
theorem take_destinationsOf_concat {capacity : Nat} (h : capacity ≤ (destinationsOf seen).length) :
    (destinationsOf (seen ++ [o])).take capacity = (destinationsOf seen).take capacity := by
  rw [destinationsOf_concat]
  split
  · rfl
  · exact List.take_append_of_le_length h

/-- Nobody was seen, nobody is tracked. -/
theorem firstCome_nil (capacity : Nat) : firstCome [] capacity = [] := by
  rw [firstCome, destinationsOf, List.map_nil, List.eraseDups_nil, List.take_nil, List.map_nil]

theorem map_destination_firstCome (capacity : Nat) :
    (firstCome seen capacity).map (·.destination) = (destinationsOf seen).take capacity := by
  rw [firstCome, List.map_map]
  exact List.map_id _

end Observed

/-! ## 3. One observation -/

namespace FlowTable

variable {t : FlowTable} {seen : List Observation}

/-- A destination is tracked if it has a record. -/
theorem tracks_iff (t : FlowTable) (d : Address) :
    t.tracks d = true ↔ d ∈ t.records.map (·.destination) := by
  rw [tracks, List.any_eq_true, List.mem_map]
  constructor
  · rintro ⟨r, hr, hd⟩
    exact ⟨r, hr, by simpa using hd⟩
  · rintro ⟨r, hr, rfl⟩
    exact ⟨r, hr, by simp⟩

/-- **What an observation comes to**, by whether its destination has a record and whether there is
room for one. -/
theorem outcome_iff (t : FlowTable) (o : Observation) :
    let kept := t.records.map (·.destination)
    ((t.update o.destination o.bytes).1 = .created ↔
        o.destination ∉ kept ∧ kept.length < t.capacity) ∧
      ((t.update o.destination o.bytes).1 = .updated ↔ o.destination ∈ kept) ∧
      ((t.update o.destination o.bytes).1 = .rejected ↔
        o.destination ∉ kept ∧ kept.length = t.capacity) := by
  intro kept
  have hlength : kept.length = t.records.length := List.length_map _
  have hmost := t.length_le
  by_cases hd : o.destination ∈ kept
  · have hupdated : (t.update o.destination o.bytes).1 = .updated := by
      rw [update, if_pos ((tracks_iff t _).mpr hd)]
    simp [hupdated, hd]
  · have ht : ¬ t.tracks o.destination = true := fun ht => hd ((tracks_iff t _).mp ht)
    rcases Nat.lt_or_ge t.records.length t.capacity with hroom | hfull
    · have hcreated : (t.update o.destination o.bytes).1 = .created := by
        rw [update, if_neg ht, dif_pos hroom]
      have hne : t.records.length ≠ t.capacity := by omega
      simp [hcreated, hd, hlength, hroom, hne]
    · have hrejected : (t.update o.destination o.bytes).1 = .rejected := by
        rw [update, if_neg ht, dif_neg (by omega)]
      have heq : kept.length = t.capacity := by omega
      simp [hrejected, hd, heq]

/-- A rejected observation changes nothing. -/
theorem update_of_rejected (o : Observation)
    (h : (t.update o.destination o.bytes).1 = .rejected) :
    (t.update o.destination o.bytes).2 = t := by
  revert h
  rw [update]
  split
  · intro h
    cases h
  · split
    · intro h
      cases h
    · intro _
      rfl

theorem update_capacity (t : FlowTable) (destination : Address) (bytes : UInt64) :
    (t.update destination bytes).2.capacity = t.capacity := by
  rw [update]
  split
  · rfl
  · split <;> rfl

/-- The two ways to count a packet do the same to the table. -/
theorem tryUpdate_eq (t : FlowTable) (o : Observation) :
    t.tryUpdate o.destination o.bytes
      = (if (t.update o.destination o.bytes).1 = .rejected then
          .error (.tableFull o.destination t.capacity)
        else .ok (t.update o.destination o.bytes).1, (t.update o.destination o.bytes).2) := by
  have hcapacity := update_capacity t o.destination o.bytes
  rw [tryUpdate]
  rcases hu : t.update o.destination o.bytes with ⟨_ | _ | _, t'⟩
  · rfl
  · rfl
  · rw [hu] at hcapacity
    rw [if_pos rfl, ← hcapacity]

/-- **One observation** takes the closed form of what was seen to that of what is seen then. -/
theorem update_firstCome (h : t.records = firstCome seen t.capacity) (o : Observation) :
    (t.update o.destination o.bytes).2.records = firstCome (seen ++ [o]) t.capacity := by
  have hkept : t.records.map (·.destination) = (destinationsOf seen).take t.capacity := by
    rw [h, map_destination_firstCome]
  have hlength : t.records.length = min t.capacity (destinationsOf seen).length := by
    rw [← List.length_map, hkept, List.length_take]
  simp only [update, tracks_iff, hkept]
  split
  · -- tracked: no new destination, and one record counts
    rename_i hd
    have hmem : o.destination ∈ seen.map (·.destination) :=
      List.mem_eraseDups.mp (List.mem_of_mem_take hd)
    change t.records.map _ = _
    rw [firstCome, destinationsOf_concat, if_pos hmem, h, firstCome, List.map_map]
    refine List.map_congr_left fun d _ => ?_
    rw [tally_concat]
    rfl
  · rename_i hd
    split
    · -- room: whoever was seen has a record, so the destination was not seen
      rename_i hroom
      have hall : (destinationsOf seen).length < t.capacity := by omega
      have htake : (destinationsOf seen).take t.capacity = destinationsOf seen :=
        List.take_of_length_le (by omega)
      rw [htake] at hd
      have hnew : o.destination ∉ seen.map (·.destination) :=
        fun hmem => hd (List.mem_eraseDups.mpr hmem)
      change t.records ++ [_] = _
      rw [firstCome, destinationsOf_concat, if_neg hnew, List.take_of_length_le (by simpa),
        List.map_append, List.map_singleton, map_tally_concat o hd, tally_concat_new o hnew, h,
        firstCome, htake]
    · -- full: whoever is seen now comes too late
      rename_i hfull
      have hcapacity : t.capacity ≤ (destinationsOf seen).length := by omega
      rw [firstCome, take_destinationsOf_concat o hcapacity, map_tally_concat o hd, h, firstCome]

/-! ## 4. Any operations -/

/-- **What is asked of a table** that may change it. -/
inductive Operation where
  | update (o : Observation)
  | tryUpdate (o : Observation)
  | flush

/-- The table after an operation. -/
def step (t : FlowTable) : Operation → FlowTable
  | .update o => (t.update o.destination o.bytes).2
  | .tryUpdate o => (t.tryUpdate o.destination o.bytes).2
  | .flush => t.flush

/-- The table after any operations. -/
def run (t : FlowTable) (operations : List Operation) : FlowTable :=
  operations.foldl step t

/-- What has been observed since the last flush, after one more operation. -/
def Operation.observe (seen : List Observation) : Operation → List Observation
  | .update o => seen ++ [o]
  | .tryUpdate o => seen ++ [o]
  | .flush => []

/-- **The observations since the last flush.** -/
def sinceFlush (operations : List Operation) : List Observation :=
  operations.foldl Operation.observe []

/-- One operation keeps the capacity and the closed form. -/
theorem step_firstCome (h : t.records = firstCome seen t.capacity) (operation : Operation) :
    (t.step operation).capacity = t.capacity ∧
      (t.step operation).records = firstCome (operation.observe seen) t.capacity := by
  cases operation with
  | update o => exact ⟨update_capacity t o.destination o.bytes, update_firstCome h o⟩
  | tryUpdate o =>
    rw [step, tryUpdate_eq]
    exact ⟨update_capacity t o.destination o.bytes, update_firstCome h o⟩
  | flush => exact ⟨rfl, (firstCome_nil _).symm⟩

/-- **After any operations a table holds those who came first since the last flush.** -/
theorem records_run (h : t.records = []) (operations : List Operation) :
    (t.run operations).capacity = t.capacity ∧
      (t.run operations).records = firstCome (sinceFlush operations) t.capacity := by
  induction operations using List.reverseRecOn with
  | nil => exact ⟨rfl, h.trans (firstCome_nil _).symm⟩
  | append_singleton operations operation ih =>
    obtain ⟨hcapacity, hrecords⟩ := ih
    rw [run, sinceFlush, List.foldl_append, List.foldl_append]
    rw [← hcapacity] at hrecords
    have hstep := step_firstCome hrecords operation
    rw [hcapacity] at hstep
    exact hstep

theorem get?_eq_some_iff (hn : (t.records.map (·.destination)).Nodup) (d : Address)
    (r : FlowRecord) : t.get? d = some r ↔ r ∈ t.records ∧ r.destination = d := by
  rw [get?]
  constructor
  · intro hget
    exact ⟨List.mem_of_find?_eq_some hget, by simpa using List.find?_some hget⟩
  · rintro ⟨hr, rfl⟩
    obtain ⟨before, after, heq⟩ := List.append_of_mem hr
    rw [heq, List.map_append, List.map_cons, List.nodup_append] at hn
    rw [List.find?_eq_some_iff_append]
    refine ⟨by simp, before, after, heq, fun a ha => ?_⟩
    have := hn.2.2 _ (List.mem_map_of_mem ha) _ (List.mem_cons_self ..)
    simpa using this

/-- **A flow table is a bounded map that keeps whom it saw first.**  Of every capacity from one to
255 there is a table; after any operations, with `seen` the observations since the last flush, it
holds the first distinct destinations of `seen` that fit, in order, each once, and for each of them
the sum of its bytes and the number of its packets, cut off at the largest value of a counter.  An
observation opens a record exactly if its destination has none and there is room, counts exactly if
there is one, and is rejected otherwise, as an error where that was asked for; one that is rejected
leaves the table as it is.  Looking a destination up and handing the records on present that same
list. -/
theorem tracks_first_come {capacity : Nat} (hpos : 0 < capacity)
    (hle : capacity ≤ maxFlowCapacity) :
    ∃ empty, ofCapacity capacity = .ok empty ∧ ∀ operations : List Operation,
      let t := empty.run operations
      let seen := sinceFlush operations
      let kept := ((seen.map (·.destination)).eraseDups).take capacity
      t.records.map (·.destination) = kept ∧ kept.Nodup ∧
      (∀ r ∈ t.records,
        r.bytes.toNat = min (2 ^ 64 - 1)
          ((seen.filter (·.destination = r.destination)).map (·.bytes.toNat)).sum ∧
        r.packets.toNat = min (2 ^ 64 - 1)
          (seen.filter (·.destination = r.destination)).length) ∧
      (∀ o : Observation,
        ((t.update o.destination o.bytes).1 = .created ↔
          o.destination ∉ kept ∧ kept.length < capacity) ∧
        ((t.update o.destination o.bytes).1 = .updated ↔ o.destination ∈ kept) ∧
        ((t.update o.destination o.bytes).1 = .rejected ↔
          o.destination ∉ kept ∧ kept.length = capacity) ∧
        ((t.update o.destination o.bytes).1 = .rejected →
          (t.update o.destination o.bytes).2 = t) ∧
        t.tryUpdate o.destination o.bytes
          = (if (t.update o.destination o.bytes).1 = .rejected then
              .error (.tableFull o.destination capacity)
            else .ok (t.update o.destination o.bytes).1,
            (t.update o.destination o.bytes).2)) ∧
      (∀ d r, t.get? d = some r ↔ r ∈ t.records ∧ r.destination = d) ∧
      t.source.records = t.records ∧ t.source.announced = t.records.length := by
  refine ⟨⟨capacity, [], hpos, hle, Nat.zero_le _⟩, dif_pos ⟨hpos, hle⟩, fun operations => ?_⟩
  intro t seen kept
  obtain ⟨hcapacity, hrecords⟩ :
      t.capacity = capacity ∧ t.records = firstCome seen capacity := records_run rfl operations
  have hkept : t.records.map (·.destination) = kept := by
    rw [hrecords, map_destination_firstCome]
    rfl
  have hnodup : kept.Nodup := (nodup_eraseDups _).sublist (List.take_sublist _ _)
  have hlength : t.records.length = kept.length := by rw [← hkept, List.length_map]
  have hmost : kept.length ≤ capacity := List.length_take_le _ _
  refine ⟨hkept, hnodup, ?_, ?_, get?_eq_some_iff (by rwa [hkept]), rfl, rfl⟩
  · intro r hr
    rw [hrecords] at hr
    obtain ⟨d, -, rfl⟩ := List.mem_map.mp hr
    exact ⟨tally_bytes d, tally_packets d⟩
  · intro o
    have houtcome := outcome_iff t o
    rw [hkept, hcapacity] at houtcome
    obtain ⟨hcreated, hupdated, hrejected⟩ := houtcome
    have htry := tryUpdate_eq t o
    rw [hcapacity] at htry
    exact ⟨hcreated, hupdated, hrejected, update_of_rejected o, htry⟩

/-- Three destinations at a table for two: the third is turned away, and the counter of the first
ends where it can count no further. -/
theorem tracks_first_come_third :
    let a : Address := ⟨List.replicate 16 1, rfl⟩
    let b : Address := ⟨List.replicate 16 2, rfl⟩
    let c : Address := ⟨List.replicate 16 3, rfl⟩
    let operations : List Operation := [.update ⟨c, 7⟩, .flush, .update ⟨a, 18446744073709551615⟩,
      .tryUpdate ⟨b, 20⟩, .update ⟨c, 5⟩, .update ⟨a, 3⟩]
    0 < 2 ∧ 2 ≤ maxFlowCapacity ∧ ∃ empty, ofCapacity 2 = .ok empty ∧
      (empty.run operations).records.map (·.destination) = [a, b] ∧
      (∀ r ∈ (empty.run operations).records, r.destination = a →
        r.bytes.toNat = 2 ^ 64 - 1 ∧ r.packets.toNat = 2) ∧
      ((empty.run operations).tryUpdate c 1).1 = .error (.tableFull c 2) := by
  intro a b c operations
  obtain ⟨empty, hempty, h⟩ := tracks_first_come (by decide : 0 < 2) (by decide)
  obtain ⟨hkept, -, htally, houtcome, -⟩ := h operations
  obtain ⟨-, -, hrejected, -, htry⟩ := houtcome ⟨c, 1⟩
  have hfirst : (((sinceFlush operations).map (·.destination)).eraseDups).take 2 = [a, b] := by
    decide
  rw [hfirst] at hkept hrejected
  refine ⟨by decide, by decide, empty, hempty, hkept, ?_, ?_⟩
  · intro r hr hd
    obtain ⟨hbytes, hpackets⟩ := htally r hr
    rw [hd] at hbytes hpackets
    exact ⟨hbytes.trans (by decide), hpackets.trans (by decide)⟩
  · have hc : ((empty.run operations).update c 1).1 = .rejected := hrejected.mpr (by decide)
    rw [htry, if_pos hc]

end FlowTable

end FlowExport

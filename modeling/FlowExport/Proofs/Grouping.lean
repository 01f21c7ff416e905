/-
# Grouping lists by key

Lists that are joined to entries of their keys may come in one go or in several (`joined_append`),
and may have been grouped before: grouping what is grouped changes nothing (`grouped_of_nodup`),
and neither does it matter to what is joined to (`joined_grouped`).  So groups of groups are the
groups of all (`grouped_flatMap_grouped`).

Lists that come in another order are joined to the same entries but for the order of the entries
and of the values in each: `Rearranged` says that much of two lists of entries (`rearranged_joined`),
and `Rearranged.perm_map` is what it is good for.
-/
import FlowExport.Proofs.Combining
import Mathlib.Data.List.Nodup

namespace FlowExport

variable {κ β : Type} [DecidableEq κ] {entries entries' items items' : List (κ × List β)} {key : κ}

/-! ## 1. One entry for each key -/

theorem valuesOf_of_not_mem (h : key ∉ entries.map (·.1)) : valuesOf key entries = [] := by
  have hnone : entries.filter (·.1 = key) = [] := by
    rw [List.filter_eq_nil_iff]
    intro e he hk
    exact h (List.mem_map.mpr ⟨e, he, of_decide_eq_true hk⟩)
  rw [valuesOf, hnone, List.flatMap_nil]

/-- The values of a key are those of its only entry. -/
theorem valuesOf_of_mem (hn : (entries.map (·.1)).Nodup) {e : κ × List β} (he : e ∈ entries) :
    valuesOf e.1 entries = e.2 := by
  induction entries with
  | nil => exact absurd he List.not_mem_nil
  | cons first entries ih =>
    rw [List.map_cons, List.nodup_cons] at hn
    rw [valuesOf_cons]
    rcases List.mem_cons.mp he with rfl | he
    · rw [if_pos rfl, valuesOf_of_not_mem hn.1, List.append_nil]
    · have hne : first.1 ≠ e.1 := fun h => hn.1 (List.mem_map.mpr ⟨e, he, h.symm⟩)
      rw [if_neg hne, ih hn.2 he, List.nil_append]

theorem nodup_grouped (items : List (κ × List β)) : ((grouped items).map (·.1)).Nodup := by
  rw [← collectAll_join]
  exact nodup_collectAll joinValues_key items List.nodup_nil

theorem nodup_joined (hn : (entries.map (·.1)).Nodup) (items : List (κ × List β)) :
    ((joined entries items).map (·.1)).Nodup := by
  rw [← collectAll_eq_joined items hn]
  exact nodup_collectAll joinValues_key items hn

theorem mem_keys_grouped : key ∈ (grouped items).map (·.1) ↔ key ∈ items.map (·.1) := by
  rw [grouped, List.map_map]
  change key ∈ (items.map (·.1)).eraseDups.map (fun k => k) ↔ _
  rw [List.map_id', List.mem_eraseDups]

theorem valuesOf_grouped (key : κ) (items : List (κ × List β)) :
    valuesOf key (grouped items) = valuesOf key items := by
  by_cases hk : key ∈ items.map (·.1)
  · have hmem : (key, valuesOf key items) ∈ grouped items :=
      List.mem_map.mpr ⟨key, List.mem_eraseDups.mpr hk, rfl⟩
    exact valuesOf_of_mem (nodup_grouped items) hmem
  · rw [valuesOf_of_not_mem hk, valuesOf_of_not_mem (mt mem_keys_grouped.mp hk)]

/-! ## 2. Grouping again -/

theorem joined_nil (items : List (κ × List β)) : joined [] items = grouped items := by
  rw [joined, List.map_nil, List.nil_append]
  simp

theorem joined_nil_right (entries : List (κ × List β)) : joined entries [] = entries := by
  simp [joined, valuesOf, grouped]

/-- Lists joined in two goes. -/
theorem joined_append (hn : (entries.map (·.1)).Nodup) (a b : List (κ × List β)) :
    joined entries (a ++ b) = joined (joined entries a) b := by
  rw [← collectAll_eq_joined _ hn, ← collectAll_eq_joined _ (nodup_joined hn a),
    ← collectAll_eq_joined _ hn, collectAll_append]

/-- Entries of distinct keys are added one behind the other. -/
theorem collectAll_of_nodup {front : List (κ × List β)} :
    ∀ {back : List (κ × List β)}, ((front ++ back).map (·.1)).Nodup →
      collectAll (·.1) joinValues back front = front ++ back
  | [], _ => (List.append_nil front).symm
  | e :: back, hn => by
    have hnew : ∀ y ∈ front, y.1 ≠ e.1 := by
      intro y hy heq
      rw [List.map_append, List.nodup_append] at hn
      exact hn.2.2 y.1 (List.mem_map.mpr ⟨y, hy, rfl⟩) e.1 List.mem_cons_self heq
    rw [collectAll_cons, collect_of_not_mem joinValues hnew,
      collectAll_of_nodup (by rwa [List.append_assoc]), List.append_assoc]
    rfl

/-- **What is grouped is grouped already.** -/
theorem grouped_of_nodup (hn : (entries.map (·.1)).Nodup) : grouped entries = entries := by
  rw [← collectAll_join]
  exact collectAll_of_nodup hn

/-- An entry is added to what is kept of some keys, or left out with its key. -/
theorem filter_collect (p : κ → Bool) (item : κ × List β) (entries : List (κ × List β)) :
    (collect (·.1) joinValues item entries).filter (p ·.1)
      = if p item.1 then collect (·.1) joinValues item (entries.filter (p ·.1))
        else entries.filter (p ·.1) := by
  induction entries with
  | nil => cases hp : p item.1 <;> simp [collect, hp]
  | cons e entries ih =>
    rw [collect]
    by_cases he : e.1 = item.1
    · have hj : (joinValues e item).1 = item.1 := he
      rw [if_pos he]
      cases hp : p item.1 <;> simp [collect, hj, he, hp]
    · rw [if_neg he]
      cases hpe : p e.1 <;> cases hp : p item.1 <;> simp [collect, he, hpe, hp, ih]

/-- What is kept of some keys may be grouped before or after. -/
theorem filter_grouped (p : κ → Bool) (items : List (κ × List β)) :
    (grouped items).filter (p ·.1) = grouped (items.filter (p ·.1)) := by
  have hall : ∀ items entries : List (κ × List β),
      (collectAll (·.1) joinValues items entries).filter (p ·.1)
        = collectAll (·.1) joinValues (items.filter (p ·.1)) (entries.filter (p ·.1)) := by
    intro items
    induction items with
    | nil => exact fun _ => rfl
    | cons item items ih =>
      intro entries
      rw [collectAll_cons, ih, filter_collect]
      cases hp : p item.1 with
      | true => rw [if_pos rfl, List.filter_cons, if_pos hp, collectAll_cons]
      | false => rw [if_neg (by simp), List.filter_cons, if_neg (by simp [hp])]
  rw [← collectAll_join, ← collectAll_join]
  exact hall items []

/-- **Lists may be grouped before they are joined.** -/
theorem joined_grouped (entries items : List (κ × List β)) :
    joined entries (grouped items) = joined entries items := by
  rw [joined, joined, filter_grouped (fun k => decide (k ∉ entries.map (·.1))),
    grouped_of_nodup (nodup_grouped _)]
  simp only [valuesOf_grouped]

/-- **The groups of groups** are the groups of all. -/
theorem grouped_flatMap_grouped (parts : List (List (κ × List β))) :
    grouped (parts.flatMap grouped) = grouped parts.flatten := by
  have hnil : (([] : List (κ × List β)).map (·.1)).Nodup := List.nodup_nil
  have happend : ∀ a b : List (κ × List β), grouped (a ++ b) = joined (grouped a) b := by
    intro a b
    rw [← joined_nil, joined_append hnil, joined_nil]
  induction parts with
  | nil => rfl
  | cons part parts ih =>
    rw [List.flatMap_cons, List.flatten_cons, happend, happend,
      grouped_of_nodup (nodup_grouped part), ← joined_grouped, ih, joined_grouped]

/-! ## 3. In another order -/

/-- **The same entries but for their order**, and for the order of the values in each. -/
structure Rearranged (entries entries' : List (κ × List β)) : Prop where
  nodup : (entries.map (·.1)).Nodup
  nodup' : (entries'.map (·.1)).Nodup
  keys : (entries.map (·.1)).Perm (entries'.map (·.1))
  values : ∀ key, (valuesOf key entries).Perm (valuesOf key entries')

theorem valuesOf_perm (h : items.Perm items') (key : κ) :
    (valuesOf key items).Perm (valuesOf key items') :=
  (h.filter _).flatMap_right _

theorem mem_keys_joined : key ∈ (joined entries items).map (·.1) ↔
    key ∈ entries.map (·.1) ∨ key ∈ items.map (·.1) := by
  rw [joined, List.map_append, List.mem_append, mem_keys_grouped, List.map_map]
  change key ∈ entries.map (·.1) ∨ _ ↔ _
  by_cases hk : key ∈ entries.map (·.1)
  · exact ⟨fun _ => Or.inl hk, fun _ => Or.inl hk⟩
  · refine or_congr_right ⟨fun h => ?_, fun h => ?_⟩
    · obtain ⟨item, hi, rfl⟩ := List.mem_map.mp h
      exact List.mem_map.mpr ⟨item, (List.mem_filter.mp hi).1, rfl⟩
    · obtain ⟨item, hi, rfl⟩ := List.mem_map.mp h
      exact List.mem_map.mpr ⟨item, List.mem_filter.mpr ⟨hi, decide_eq_true hk⟩, rfl⟩

/-- **Lists joined in another order** make the same entries. -/
theorem rearranged_joined (hn : (entries.map (·.1)).Nodup) (h : items.Perm items') :
    Rearranged (joined entries items) (joined entries items') := by
  refine ⟨nodup_joined hn items, nodup_joined hn items', ?_, fun key => ?_⟩
  · rw [List.perm_ext_iff_of_nodup (nodup_joined hn items) (nodup_joined hn items')]
    intro key
    rw [mem_keys_joined, mem_keys_joined, (h.map _).mem_iff]
  · rw [← collectAll_eq_joined items hn, ← collectAll_eq_joined items' hn]
    exact (valuesOf_collectAll key items entries).trans
      (((valuesOf_perm h key).append_left _).trans (valuesOf_collectAll key items' entries).symm)

namespace Rearranged

variable (h : Rearranged entries entries')

include h

/-- Every entry has its counterpart. -/
theorem exists_entry {e' : κ × List β} (he' : e' ∈ entries') :
    ∃ e ∈ entries, e.1 = e'.1 ∧ e.2.Perm e'.2 := by
  obtain ⟨e, he, hkey⟩ := List.mem_map.mp (h.keys.mem_iff.mpr (List.mem_map.mpr ⟨e', he', rfl⟩))
  refine ⟨e, he, hkey, ?_⟩
  have hvalues := h.values e.1
  rwa [valuesOf_of_mem h.nodup he, hkey, valuesOf_of_mem h.nodup' he'] at hvalues

/-- **What does not depend on the order of values** is the same of all entries, in some order. -/
theorem perm_map {γ : Type} {measure : List β → γ}
    (hm : ∀ {values values' : List β}, values.Perm values' → measure values = measure values') :
    (entries.map fun e => measure e.2).Perm (entries'.map fun e => measure e.2) := by
  have hread : ∀ {entries : List (κ × List β)}, (entries.map (·.1)).Nodup →
      entries.map (fun e => measure e.2)
        = (entries.map (·.1)).map fun key => measure (valuesOf key entries) := by
    intro entries hn
    rw [List.map_map]
    exact List.map_congr_left fun e he => by rw [Function.comp_apply, valuesOf_of_mem hn he]
  rw [hread h.nodup, hread h.nodup']
  refine (h.keys.map _).trans (List.Perm.of_eq (List.map_congr_left fun key _ => ?_))
  exact hm (h.values key)

theorem length_eq : entries.length = entries'.length := by
  have := h.keys.length_eq
  rwa [List.length_map, List.length_map] at this

end Rearranged

end FlowExport

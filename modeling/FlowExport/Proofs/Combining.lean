/-
# What collecting comes to

`collectAll` works entry by entry.  Here is what it comes to, said without the steps: every entry
that was there is combined, in its place, with all the later ones of its key in order, and the
entries of the keys that were not there are collected behind them from nothing
(`collectAll_eq_append`).  From nothing, one entry stands for each key, in order of first
appearance, combined from all those of the key (`collectAll_nil_eq`).

Two ways to combine are used.  Lists under keys are joined (`joined`, `collectAll_eq_joined`), and
of definitions the last one of each key replaces the others (`replaced`,
`collectAll_eq_replaced`).
-/
import FlowExport.Proofs.Collecting
import Mathlib.Data.List.Basic
import Mathlib.Data.List.Induction

namespace FlowExport

/-! ## 1. Entry by entry -/

section Closed

variable {α κ : Type} [DecidableEq κ] {f : α → κ} {combine : α → α → α}

/-- An entry whose key is there changes the entry of that key. -/
theorem collect_of_mem (x : α) : ∀ {ys : List α}, (ys.map f).Nodup → f x ∈ ys.map f →
    collect f combine x ys = ys.map fun y => if f x = f y then combine y x else y
  | [], _, hx => absurd hx List.not_mem_nil
  | y :: ys, hn, hx => by
    rw [List.map_cons, List.nodup_cons] at hn
    rw [collect, List.map_cons]
    by_cases hy : f y = f x
    · -- no other entry has the key
      have hrest : (ys.map fun z => if f x = f z then combine z x else z) = ys := by
        refine (List.map_congr_left fun z hz => if_neg ?_).trans (List.map_id ys)
        intro hxz
        exact hn.1 (List.mem_map.mpr ⟨z, hz, (hy.trans hxz).symm⟩)
      rw [if_pos hy, if_pos hy.symm, hrest]
    · rw [List.map_cons] at hx
      rcases List.mem_cons.mp hx with h | h
      · exact absurd h.symm hy
      · rw [if_neg hy, if_neg fun h' => hy h'.symm, collect_of_mem x hn.2 h]

/-- An entry whose key is in front stays in front. -/
theorem collect_append_of_mem {x : α} {front : List α} (back : List α)
    (hx : f x ∈ front.map f) :
    collect f combine x (front ++ back) = collect f combine x front ++ back := by
  induction front with
  | nil => exact absurd hx List.not_mem_nil
  | cons y front ih =>
    rw [List.cons_append, collect, collect]
    split
    · rfl
    · rename_i hy
      rw [List.map_cons] at hx
      rcases List.mem_cons.mp hx with h | h
      · exact absurd h.symm hy
      · rw [ih h, List.cons_append]

/-- An entry whose key is not in front is added behind. -/
theorem collect_append_of_not_mem {x : α} {front : List α} (back : List α)
    (hx : f x ∉ front.map f) :
    collect f combine x (front ++ back) = front ++ collect f combine x back := by
  induction front with
  | nil => rfl
  | cons y front ih =>
    rw [List.map_cons, List.mem_cons, not_or] at hx
    rw [List.cons_append, collect, if_neg fun h => hx.1 h.symm, ih hx.2, List.cons_append]

omit [DecidableEq κ] in
theorem key_foldl (hf : ∀ y x, f y = f x → f (combine y x) = f y) {xs : List α} {y : α}
    (h : ∀ x ∈ xs, f x = f y) : f (xs.foldl combine y) = f y := by
  induction xs generalizing y with
  | nil => rfl
  | cons x xs ih =>
    have hx : f (combine y x) = f y := hf y x (h x (by simp)).symm
    rw [List.foldl_cons, ih (fun z hz => (h z (by simp [hz])).trans hx.symm), hx]

variable (hf : ∀ y x, f y = f x → f (combine y x) = f y)

include hf

/-- **Old keys stay in front.**  Each old entry is combined with what was added under its key, and
behind them stands what was added under other keys. -/
theorem collectAll_eq_append (xs : List α) {ys : List α} (hn : (ys.map f).Nodup) :
    collectAll f combine xs ys
      = (ys.map fun y => (xs.filter (f · = f y)).foldl combine y)
        ++ collectAll f combine (xs.filter (f · ∉ ys.map f)) [] := by
  -- the induction adds the last entry to what stands there already
  induction xs using List.reverseRecOn with
  | nil => simp [collectAll]
  | append_singleton xs x ih =>
    have hlast : collectAll f combine (xs ++ [x]) ys
        = collect f combine x (collectAll f combine xs ys) := collectAll_append f combine xs [x] ys
    have hkey : ∀ y : α, f ((xs.filter (f · = f y)).foldl combine y) = f y := by
      intro y
      refine key_foldl hf fun z hz => ?_
      simpa using (List.mem_filter.mp hz).2
    have hkeys : (ys.map fun y => (xs.filter (f · = f y)).foldl combine y).map f = ys.map f := by
      rw [List.map_map]
      exact List.map_congr_left fun y _ => hkey y
    rw [hlast, ih]
    have hsplit : (xs ++ [x]).filter (f · ∉ ys.map f)
        = xs.filter (f · ∉ ys.map f) ++ if f x ∈ ys.map f then [] else [x] := by
      rw [List.filter_append, List.filter_cons, List.filter_nil]
      by_cases hx : f x ∈ ys.map f <;> simp [hx]
    rw [hsplit]
    by_cases hx : f x ∈ ys.map f
    · rw [collect_append_of_mem _ (by rw [hkeys]; exact hx),
        collect_of_mem x (by rw [hkeys]; exact hn) (by rw [hkeys]; exact hx), List.map_map,
        if_pos hx, List.append_nil]
      refine congrArg (· ++ _) (List.map_congr_left fun y _ => ?_)
      rw [Function.comp_apply, hkey, List.filter_append, List.foldl_append]
      by_cases hy : f x = f y <;> simp [hy]
    · rw [collect_append_of_not_mem _ (by rw [hkeys]; exact hx), if_neg hx, collectAll_append]
      refine congrArg (· ++ _) (List.map_congr_left fun y hy => ?_)
      have hne : f x ≠ f y := fun h => hx (List.mem_map.mpr ⟨y, hy, h.symm⟩)
      rw [List.filter_append, List.filter_cons_of_neg (by simpa using hne), List.filter_nil,
        List.append_nil]

omit hf in
/-- The entries of a key are not among those that other keys took away. -/
theorem filter_key {keys : List κ} {k : κ} (hk : k ∉ keys) (xs : List α) :
    (xs.filter (f · ∉ keys)).filter (f · = k) = xs.filter (f · = k) := by
  rw [List.filter_filter]
  refine List.filter_congr fun z _ => ?_
  by_cases hz : f z = k
  · rw [decide_eq_true hz, hz, decide_eq_true hk, Bool.and_true]
  · rw [decide_eq_false hz, Bool.false_and]

/-- The entries of a key, combined in order, if there are any. -/
def gather (f : α → κ) (combine : α → α → α) (xs : List α) (k : κ) : Option α :=
  match xs.filter (f · = k) with
  | [] => none
  | x :: later => some (later.foldl combine x)

/-- **From nothing**, one entry for each key, in order of first appearance. -/
theorem collectAll_nil_eq (xs : List α) :
    collectAll f combine xs [] = (xs.map f).eraseDups.filterMap (gather f combine xs) := by
  match xs with
  | [] => rfl
  | x :: xs =>
    have hone : ([x].map f).Nodup := by simp
    have hstart : collectAll f combine (x :: xs) [] = collectAll f combine xs [x] := rfl
    have hfirst : gather f combine (x :: xs) (f x)
        = some ((xs.filter (f · = f x)).foldl combine x) := by
      rw [gather, List.filter_cons_of_pos (by simp)]
    have hkeys : (xs.filter (f · ∉ [x].map f)).map f
        = (xs.map f).filter fun k => !k == f x := by
      rw [List.filter_map]
      refine congrArg (List.map f) (List.filter_congr fun z _ => ?_)
      by_cases hz : f z = f x <;> simp [hz]
    have hdistinct : ((x :: xs).map f).eraseDups
        = f x :: ((xs.map f).filter fun k => !k == f x).eraseDups := by
      rw [List.map_cons, List.eraseDups_cons]
    rw [hstart, collectAll_eq_append hf xs hone, collectAll_nil_eq (xs.filter _), hkeys,
      hdistinct, List.filterMap_cons, hfirst]
    refine congrArg (_ :: ·) (List.filterMap_congr fun k hk => ?_)
    have hne : k ≠ f x := by
      have := (List.mem_filter.mp (List.mem_eraseDups.mp hk)).2
      simpa using this
    have hnew : k ∉ [x].map f := by simpa using hne
    rw [gather, filter_key hnew, gather, List.filter_cons_of_neg (by simpa using hne.symm)]
termination_by xs.length
decreasing_by exact Nat.lt_succ_of_le (List.length_filter_le _ _)

end Closed

/-! ## 2. Lists under keys -/

section Joined

variable {κ β : Type} [DecidableEq κ]

omit [DecidableEq κ] in
theorem foldl_joinValues (e : κ × List β) (items : List (κ × List β)) :
    items.foldl joinValues e = (e.1, e.2 ++ items.flatMap (·.2)) := by
  induction items generalizing e with
  | nil => rw [List.foldl_nil, List.flatMap_nil, List.append_nil]
  | cons item items ih =>
    rw [List.foldl_cons, ih, List.flatMap_cons, ← List.append_assoc]
    rfl

theorem gather_joinValues {items : List (κ × List β)} {key : κ}
    (h : key ∈ items.map (·.1)) :
    gather (·.1) joinValues items key = some (key, valuesOf key items) := by
  rw [gather, valuesOf]
  split
  · rename_i hnil
    obtain ⟨item, hi, rfl⟩ := List.mem_map.mp h
    have hmem : item ∈ items.filter (·.1 = item.1) := List.mem_filter.mpr ⟨hi, by simp⟩
    rw [hnil] at hmem
    exact absurd hmem List.not_mem_nil
  · rename_i item later hcons
    have hmem : item ∈ items.filter (·.1 = key) := by
      rw [hcons]
      exact List.mem_cons_self
    have hkey : item.1 = key := by simpa using (List.mem_filter.mp hmem).2
    rw [hcons, foldl_joinValues, hkey, List.flatMap_cons]

/-- **Lists collected from nothing are grouped by key.** -/
theorem collectAll_join (items : List (κ × List β)) :
    collectAll (·.1) joinValues items [] = grouped items := by
  have hall : ∀ key ∈ (items.map (·.1)).eraseDups,
      gather (·.1) joinValues items key = some (key, valuesOf key items) :=
    fun key hk => gather_joinValues (List.mem_eraseDups.mp hk)
  rw [collectAll_nil_eq joinValues_key, grouped, List.filterMap_congr hall]
  exact congrFun List.filterMap_eq_map _

/-- **Entries with more lists joined to them.**  Each old key has its values and behind them the
new ones; the keys that are new follow in order of first appearance. -/
def joined (entries items : List (κ × List β)) : List (κ × List β) :=
  (entries.map fun e => (e.1, e.2 ++ valuesOf e.1 items))
    ++ grouped (items.filter (·.1 ∉ entries.map (·.1)))

theorem collectAll_eq_joined (items : List (κ × List β)) {entries : List (κ × List β)}
    (hn : (entries.map (·.1)).Nodup) :
    collectAll (·.1) joinValues items entries = joined entries items := by
  rw [collectAll_eq_append joinValues_key items hn, collectAll_join, joined]
  refine congrArg (· ++ _) (List.map_congr_left fun e _ => ?_)
  rw [foldl_joinValues]
  rfl

end Joined

/-! ## 3. The last of each key -/

section Replaced

variable {α κ : Type} [DecidableEq κ] {f : α → κ}

/-- The last entry of a key. -/
def latest (f : α → κ) (xs : List α) (k : κ) : Option α :=
  (xs.filter (f · = k)).getLast?

/-- **Entries replaced by later ones.**  Each old key has the last of its new entries, or else the
old one; the keys that are new follow in order of first appearance. -/
def replaced (f : α → κ) (xs ys : List α) : List α :=
  (ys.map fun y => (latest f xs (f y)).getD y)
    ++ ((xs.map f).filter (· ∉ ys.map f)).eraseDups.filterMap (latest f xs)

omit [DecidableEq κ] in
theorem foldl_keepLast (y : α) (xs : List α) : xs.foldl keepLast y = xs.getLast?.getD y := by
  induction xs generalizing y with
  | nil => rfl
  | cons x xs ih =>
    rw [List.foldl_cons, ih, List.getLast?_cons]
    rfl

theorem gather_keepLast (xs : List α) (k : κ) : gather f keepLast xs k = latest f xs k := by
  rw [gather, latest]
  split
  · rename_i h
    rw [h, List.getLast?_nil]
  · rename_i y later h
    rw [h, foldl_keepLast, List.getLast?_cons]

theorem collectAll_eq_replaced (xs : List α) {ys : List α} (hn : (ys.map f).Nodup) :
    collectAll f keepLast xs ys = replaced f xs ys := by
  have hkeys : (xs.filter (f · ∉ ys.map f)).map f = (xs.map f).filter (· ∉ ys.map f) := by
    rw [List.filter_map]
    rfl
  rw [collectAll_eq_append keepLast_key xs hn, collectAll_nil_eq keepLast_key, hkeys, replaced]
  refine congrArg₂ (· ++ ·) (List.map_congr_left fun y _ => foldl_keepLast y _) ?_
  refine List.filterMap_congr fun k hk => ?_
  have hnew : k ∉ ys.map f := by
    have := (List.mem_filter.mp (List.mem_eraseDups.mp hk)).2
    simpa using this
  rw [gather_keepLast, latest, filter_key hnew, latest]

theorem key_of_latest {xs : List α} {k : κ} {x : α} (h : latest f xs k = some x) : f x = k := by
  have hmem := List.mem_of_getLast? h
  simpa using (List.mem_filter.mp hmem).2

theorem exists_latest {xs : List α} {k : κ} (h : k ∈ xs.map f) : ∃ x, latest f xs k = some x := by
  obtain ⟨x, hx, rfl⟩ := List.mem_map.mp h
  have hmem : x ∈ xs.filter (f · = f x) := List.mem_filter.mpr ⟨hx, by simp⟩
  exact ⟨_, List.getLast?_eq_some_getLast (List.ne_nil_of_mem hmem)⟩

/-- **Old keys keep their places**, and new ones follow in order of first appearance. -/
theorem keys_replaced (xs ys : List α) : (replaced f xs ys).map f
    = ys.map f ++ ((xs.map f).filter (· ∉ ys.map f)).eraseDups := by
  rw [replaced, List.map_append, List.map_map, List.map_filterMap]
  refine congrArg₂ (· ++ ·) (List.map_congr_left fun y _ => ?_) ?_
  · rw [Function.comp_apply]
    cases hy : latest f xs (f y) with
    | none => rfl
    | some x => exact key_of_latest hy
  · refine (List.filterMap_congr fun k hk => ?_).trans List.filterMap_some
    have hk' : k ∈ xs.map f := (List.mem_filter.mp (List.mem_eraseDups.mp hk)).1
    obtain ⟨x, hx⟩ := exists_latest hk'
    rw [hx, Option.map_some, key_of_latest hx]

end Replaced

end FlowExport

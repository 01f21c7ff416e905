/-
# Collecting by key

A list whose entries have distinct keys is cut at the entry that a search finds, and replacing the
entries of that key changes this one only (`split_of_find`).

`collect` adds an entry to such a list: combined with the entry of its key, or else at the end.
The keys stay distinct and in place, a new one goes last (`keys_collect`), and the order in which
two keys are added shows in the order of the entries only (`collect_comm`).  Where lists are
collected under keys, no value is lost or added (`valuesOf_collectAll`); `grouped` is what they
give from nothing: one entry for each key in order of first appearance, with everything of that
key in order.
-/
namespace FlowExport

/-! ## 1. Replacing an entry -/

/-- **The entry that a search finds** is the only one of its key. -/
theorem split_of_find {α κ : Type} [DecidableEq κ] {f : α → κ} {xs : List α} {k : κ} {x : α}
    (hn : (xs.map f).Nodup) (hx : xs.find? (f · == k) = some x) (y : α) :
    ∃ before after, xs = before ++ x :: after ∧ f x = k ∧
      (∀ z ∈ before, f z ≠ k) ∧ (∀ z ∈ after, f z ≠ k) ∧
      (xs.map fun z => if f z = k then y else z) = before ++ y :: after := by
  obtain ⟨hk, before, after, rfl, hbefore⟩ := List.find?_eq_some_iff_append.mp hx
  have hk : f x = k := by simpa using hk
  have hbefore : ∀ z ∈ before, f z ≠ k := fun z hz => by simpa using hbefore z hz
  rw [List.map_append, List.map_cons, List.nodup_append, List.nodup_cons] at hn
  have hafter : ∀ z ∈ after, f z ≠ k := by
    intro z hz hzk
    exact hn.2.1.1 (List.mem_map.mpr ⟨z, hz, hzk.trans hk.symm⟩)
  have hkeep : ∀ zs : List α, (∀ z ∈ zs, f z ≠ k) →
      (zs.map fun z => if f z = k then y else z) = zs := by
    intro zs hzs
    exact (List.map_congr_left fun z hz => if_neg (hzs z hz)).trans (List.map_id zs)
  refine ⟨before, after, rfl, hk, hbefore, hafter, ?_⟩
  rw [List.map_append, List.map_cons, if_pos hk, hkeep _ hbefore, hkeep _ hafter]

theorem not_mem_of_find_none {α κ : Type} [DecidableEq κ] {f : α → κ} {xs : List α} {k : κ}
    (h : xs.find? (f · == k) = none) : ∀ z ∈ xs, f z ≠ k :=
  fun z hz => by simpa using List.find?_eq_none.mp h z hz

/-! ## 2. Collecting -/

section Collecting

variable {α κ : Type} [DecidableEq κ] (f : α → κ) (combine : α → α → α)

/-- **Adds an entry**, combined with the one of its key, or else at the end. -/
def collect (x : α) : List α → List α
  | [] => [x]
  | y :: ys => if f y = f x then combine y x :: ys else y :: collect x ys

/-- **Adds entries in order.** -/
def collectAll (xs ys : List α) : List α :=
  xs.foldl (fun ys x => collect f combine x ys) ys

theorem collectAll_append (a b ys : List α) :
    collectAll f combine (a ++ b) ys = collectAll f combine b (collectAll f combine a ys) :=
  List.foldl_append

theorem collectAll_cons (x : α) (xs ys : List α) :
    collectAll f combine (x :: xs) ys = collectAll f combine xs (collect f combine x ys) := rfl

variable {f}

theorem collect_of_not_mem {x : α} : ∀ {ys : List α}, (∀ y ∈ ys, f y ≠ f x) →
    collect f combine x ys = ys ++ [x]
  | [], _ => rfl
  | y :: ys, h => by
    rw [collect, if_neg (h y (by simp)), collect_of_not_mem fun z hz => h z (by simp [hz]),
      List.cons_append]

/-- The entry joins the one of its key, wherever that stands. -/
theorem collect_split {x y : α} (hxy : f y = f x) (after : List α) : ∀ {before : List α},
    (∀ z ∈ before, f z ≠ f x) →
      collect f combine x (before ++ y :: after) = before ++ combine y x :: after
  | [], _ => by rw [List.nil_append, collect, if_pos hxy, List.nil_append]
  | z :: before, h => by
    rw [List.cons_append, collect, if_neg (h z (by simp)),
      collect_split hxy after fun e he => h e (by simp [he]), List.cons_append]

variable {combine} (hf : ∀ y x, f y = f x → f (combine y x) = f y)

include hf

/-- The keys stay in place; a new one goes to the end. -/
theorem keys_collect (x : α) : ∀ ys : List α, (collect f combine x ys).map f
    = if f x ∈ ys.map f then ys.map f else ys.map f ++ [f x]
  | [] => by simp [collect]
  | y :: ys => by
    rw [collect, List.map_cons]
    by_cases hy : f y = f x
    · rw [if_pos hy, List.map_cons, hf y x hy, if_pos (by rw [hy]; exact List.mem_cons_self)]
    · rw [if_neg hy, List.map_cons, keys_collect x ys]
      by_cases hm : f x ∈ ys.map f
      · rw [if_pos hm, if_pos (List.mem_cons_of_mem _ hm)]
      · have hm' : f x ∉ f y :: ys.map f := by
          rw [List.mem_cons, not_or]
          exact ⟨fun h => hy h.symm, hm⟩
        rw [if_neg hm, if_neg hm', List.cons_append]

theorem nodup_collect (x : α) {ys : List α} (h : (ys.map f).Nodup) :
    ((collect f combine x ys).map f).Nodup := by
  rw [keys_collect hf]
  split
  · exact h
  · rename_i hm
    rw [List.nodup_append]
    refine ⟨h, by simp, ?_⟩
    rintro a ha b hb rfl
    rw [List.mem_singleton] at hb
    exact hm (hb ▸ ha)

theorem nodup_collectAll (xs : List α) {ys : List α} (h : (ys.map f).Nodup) :
    ((collectAll f combine xs ys).map f).Nodup := by
  induction xs generalizing ys with
  | nil => exact h
  | cons x xs ih =>
    rw [collectAll_cons]
    exact ih (nodup_collect hf x h)

/-- **Entries of two keys** are added in either order, but for the order they stand in. -/
theorem collect_comm {x z : α} (hxz : f x ≠ f z) : ∀ ys : List α,
    (collect f combine z (collect f combine x ys)).Perm
      (collect f combine x (collect f combine z ys))
  | [] => by
    rw [collect, collect, collect, if_neg hxz, collect, collect, if_neg hxz.symm, collect]
    exact List.Perm.swap _ _ _
  | y :: ys => by
    by_cases hx : f y = f x
    · have hz : f y ≠ f z := fun h => hxz (hx.symm.trans h)
      have hcx : f (combine y x) ≠ f z := fun h => hz ((hf y x hx).symm.trans h)
      rw [collect, if_pos hx, collect, if_neg hcx, collect, if_neg hz, collect, if_pos hx]
    · by_cases hz : f y = f z
      · have hcz : f (combine y z) ≠ f x := fun h => hx ((hf y z hz).symm.trans h)
        rw [collect, if_neg hx, collect, if_pos hz, collect, if_pos hz, collect, if_neg hcz]
      · rw [collect, if_neg hx, collect, if_neg hz, collect, if_neg hz, collect, if_neg hx]
        exact (collect_comm hxz ys).cons y

theorem find_collect_of_ne {x : α} {k : κ} (hk : f x ≠ k) : ∀ ys : List α,
    (collect f combine x ys).find? (f · == k) = ys.find? (f · == k)
  | [] => by rw [collect, List.find?_cons_of_neg (by simpa using hk)]
  | y :: ys => by
    rw [collect]
    split
    · rename_i hy
      have hy' : f y ≠ k := by rwa [hy]
      have hc : f (combine y x) ≠ k := by rwa [hf y x hy]
      rw [List.find?_cons_of_neg (by simpa using hc), List.find?_cons_of_neg (by simpa using hy')]
    · rw [List.find?_cons, List.find?_cons, find_collect_of_ne hk ys]

omit hf in
/-- Entries that stand in another order are added to alike. -/
theorem collect_perm (x : α) {ys zs : List α} (h : ys.Perm zs) (hn : (ys.map f).Nodup) :
    (collect f combine x ys).Perm (collect f combine x zs) := by
  by_cases hm : ∃ y ∈ ys, f y = f x
  · obtain ⟨y, hy, hyx⟩ := hm
    -- either list is cut at the one entry of the key
    have hcut : ∀ {l : List α}, y ∈ l → (l.map f).Nodup →
        ∃ before after, l.Perm (y :: (before ++ after)) ∧
          (collect f combine x l).Perm (combine y x :: (before ++ after)) := by
      intro l hl hnl
      obtain ⟨before, after, rfl⟩ := List.append_of_mem hl
      rw [List.map_append, List.map_cons, List.nodup_append] at hnl
      have hbefore : ∀ z ∈ before, f z ≠ f x := by
        intro z hz hzx
        exact hnl.2.2 (f z) (List.mem_map.mpr ⟨z, hz, rfl⟩) (f y) List.mem_cons_self
          (hzx.trans hyx.symm)
      rw [collect_split combine hyx after hbefore]
      exact ⟨before, after, List.perm_middle, List.perm_middle⟩
    obtain ⟨b₁, a₁, h₁, hc₁⟩ := hcut hy hn
    obtain ⟨b₂, a₂, h₂, hc₂⟩ := hcut (h.mem_iff.mp hy) ((h.map f).nodup_iff.mp hn)
    have hrest : (b₁ ++ a₁).Perm (b₂ ++ a₂) :=
      (List.perm_cons y).mp (h₁.symm.trans (h.trans h₂))
    exact hc₁.trans ((hrest.cons _).trans hc₂.symm)
  · have hys : ∀ y ∈ ys, f y ≠ f x := fun y hy hyx => hm ⟨y, hy, hyx⟩
    have hzs : ∀ z ∈ zs, f z ≠ f x := fun z hz => hys z (h.mem_iff.mpr hz)
    rw [collect_of_not_mem combine hys, collect_of_not_mem combine hzs]
    exact h.append_right [x]

theorem collectAll_perm (xs : List α) {ys zs : List α} (h : ys.Perm zs)
    (hn : (ys.map f).Nodup) : (collectAll f combine xs ys).Perm (collectAll f combine xs zs) := by
  induction xs generalizing ys zs with
  | nil => exact h
  | cons x xs ih => exact ih (collect_perm x h hn) (nodup_collect hf x hn)

omit hf in
/-- What the entries have in common stays common. -/
theorem collectAll_induction {P : α → Prop} (hc : ∀ y x, P y → P x → P (combine y x))
    {xs ys : List α} (hx : ∀ x ∈ xs, P x) (hy : ∀ y ∈ ys, P y) :
    ∀ z ∈ collectAll f combine xs ys, P z := by
  have hone : ∀ {x : α} {ys : List α}, P x → (∀ y ∈ ys, P y) →
      ∀ z ∈ collect f combine x ys, P z := by
    intro x ys hx
    induction ys with
    | nil =>
      intro _ z hz
      rwa [List.mem_singleton.mp hz]
    | cons y ys ih =>
      intro hy z hz
      rw [collect] at hz
      split at hz
      · rcases List.mem_cons.mp hz with rfl | hz
        · exact hc y x (hy y (by simp)) hx
        · exact hy z (by simp [hz])
      · rcases List.mem_cons.mp hz with rfl | hz
        · exact hy z (by simp)
        · exact ih (fun w hw => hy w (by simp [hw])) z hz
  induction xs generalizing ys with
  | nil => exact hy
  | cons x xs ih =>
    exact ih (fun w hw => hx w (by simp [hw])) (hone (hx x (by simp)) hy)

omit hf in
/-- Entries may be read before they are collected or after. -/
theorem map_collectAll {β : Type} {g : β → κ} {combineRead : β → β → β} (read : α → β)
    (hkey : ∀ x, g (read x) = f x)
    (hread : ∀ y x, read (combine y x) = combineRead (read y) (read x)) (xs ys : List α) :
    (collectAll f combine xs ys).map read
      = collectAll g combineRead (xs.map read) (ys.map read) := by
  have hone : ∀ (x : α) (ys : List α),
      (collect f combine x ys).map read = collect g combineRead (read x) (ys.map read) := by
    intro x ys
    induction ys with
    | nil => rfl
    | cons y ys ih =>
      rw [collect, List.map_cons, collect, hkey, hkey]
      split
      · rw [List.map_cons, hread]
      · rw [List.map_cons, ih]
  induction xs generalizing ys with
  | nil => rfl
  | cons x xs ih => rw [collectAll_cons, ih, hone, List.map_cons, collectAll_cons]

omit hf in
theorem length_le_collect (x : α) : ∀ ys : List α, ys.length ≤ (collect f combine x ys).length
  | [] => Nat.zero_le _
  | y :: ys => by
    rw [collect]
    split
    · exact Nat.le_refl _
    · exact Nat.succ_le_succ (length_le_collect x ys)

omit hf in
theorem length_le_collectAll (xs ys : List α) :
    ys.length ≤ (collectAll f combine xs ys).length := by
  induction xs generalizing ys with
  | nil => exact Nat.le_refl _
  | cons x xs ih => exact Nat.le_trans (length_le_collect x ys) (ih _)

end Collecting

/-! ## 3. The last entry of a key -/

section Last

variable {α κ : Type} [DecidableEq κ] {f : α → κ}

/-- The second entry, in the place of the first. -/
def keepLast (_ x : α) : α := x

omit [DecidableEq κ] in
theorem keepLast_key (y x : α) (h : f y = f x) : f (keepLast y x) = f y := h.symm

theorem collect_keepLast_same {x z : α} (h : f x = f z) : ∀ ys : List α,
    collect f keepLast z (collect f keepLast x ys) = collect f keepLast z ys
  | [] => by simp [collect, h, keepLast]
  | y :: ys => by
    by_cases hy : f y = f x
    · have hx : f (keepLast y x) = f z := h
      rw [collect, if_pos hy, collect, if_pos hx, collect, if_pos (hy.trans h)]
      rfl
    · rw [collect, if_neg hy, collect, if_neg (h ▸ hy), collect_keepLast_same h ys, collect,
        if_neg (h ▸ hy)]

/-- **An entry that another replaces later** leaves no trace but in the order. -/
theorem collectAll_superseded {x : α} {later : List α} (h : ∃ z ∈ later, f z = f x)
    {ys : List α} (hn : (ys.map f).Nodup) :
    (collectAll f keepLast later (collect f keepLast x ys)).Perm
      (collectAll f keepLast later ys) := by
  induction later generalizing ys with
  | nil =>
    obtain ⟨z, hz, -⟩ := h
    exact absurd hz List.not_mem_nil
  | cons z later ih =>
    rw [collectAll_cons, collectAll_cons]
    by_cases hzx : f z = f x
    · rw [collect_keepLast_same hzx.symm]
    · have hlater : ∃ w ∈ later, f w = f x := by
        obtain ⟨w, hw, hwx⟩ := h
        rcases List.mem_cons.mp hw with rfl | hw
        · exact absurd hwx hzx
        · exact ⟨w, hw, hwx⟩
      have hswap := collect_comm keepLast_key (fun heq => hzx heq.symm) ys (z := z) (x := x)
      have hnodup := nodup_collect keepLast_key z (nodup_collect keepLast_key x hn)
      exact (collectAll_perm keepLast_key later hswap hnodup).trans
        (ih hlater (nodup_collect keepLast_key z hn))

end Last

/-! ## 4. Lists under keys -/

section Join

variable {κ β : Type} [DecidableEq κ]

/-- The first entry with the values of the second behind its own. -/
def joinValues (y x : κ × List β) : κ × List β :=
  (y.1, y.2 ++ x.2)

omit [DecidableEq κ] in
theorem joinValues_key (y x : κ × List β) (_ : y.1 = x.1) : (joinValues y x).1 = y.1 := rfl

/-- The values of a key, in order. -/
def valuesOf (key : κ) (items : List (κ × List β)) : List β :=
  (items.filter (·.1 = key)).flatMap (·.2)

theorem valuesOf_append (key : κ) (a b : List (κ × List β)) :
    valuesOf key (a ++ b) = valuesOf key a ++ valuesOf key b := by
  rw [valuesOf, List.filter_append, List.flatMap_append]
  rfl

theorem valuesOf_singleton (key : κ) (item : κ × List β) :
    valuesOf key [item] = if item.1 = key then item.2 else [] := by
  by_cases h : item.1 = key <;> simp [valuesOf, h]

theorem valuesOf_cons (key : κ) (e : κ × List β) (entries : List (κ × List β)) :
    valuesOf key (e :: entries) = (if e.1 = key then e.2 else []) ++ valuesOf key entries := by
  rw [← List.singleton_append, valuesOf_append, valuesOf_singleton]

/-- One more item is found among the values of its key, wherever it was added. -/
theorem valuesOf_collect (key : κ) (item : κ × List β) : ∀ entries : List (κ × List β),
    (valuesOf key (collect (·.1) joinValues item entries)).Perm
      (valuesOf key entries ++ valuesOf key [item])
  | [] => List.Perm.refl _
  | e :: entries => by
    rw [collect]
    split
    · rename_i he
      rw [valuesOf_cons, valuesOf_cons, valuesOf_singleton, ← he]
      by_cases hk : e.1 = key
      · have hj : (joinValues e item).1 = key := hk
        rw [if_pos hj, if_pos hk, if_pos hk, joinValues, List.append_assoc, List.append_assoc]
        exact List.perm_append_comm.append_left _
      · have hj : (joinValues e item).1 ≠ key := hk
        rw [if_neg hj, if_neg hk, if_neg hk, List.append_nil]
    · rw [valuesOf_cons, valuesOf_cons, List.append_assoc]
      exact (valuesOf_collect key item entries).append_left _

/-- **Collecting loses no value** and adds none. -/
theorem valuesOf_collectAll (key : κ) (items entries : List (κ × List β)) :
    (valuesOf key (collectAll (·.1) joinValues items entries)).Perm
      (valuesOf key entries ++ valuesOf key items) := by
  induction items generalizing entries with
  | nil =>
    have hnil : valuesOf key ([] : List (κ × List β)) = [] := rfl
    rw [hnil, List.append_nil]
    exact List.Perm.refl _
  | cons item items ih =>
    rw [collectAll_cons, valuesOf_cons, ← valuesOf_singleton, ← List.append_assoc]
    exact (ih _).trans ((valuesOf_collect key item entries).append_right _)

/-- **Lists grouped by key**: one entry for each key, in order of first appearance, with all its
values in order. -/
def grouped (items : List (κ × List β)) : List (κ × List β) :=
  (items.map (·.1)).eraseDups.map fun key => (key, valuesOf key items)

theorem grouped_eq_nil_iff {items : List (κ × List β)} : grouped items = [] ↔ items = [] := by
  rw [grouped, List.map_eq_nil_iff]
  constructor
  · intro h
    cases items with
    | nil => rfl
    | cons item items =>
      rw [List.map_cons, List.eraseDups_cons] at h
      exact absurd h (List.cons_ne_nil _ _)
  · rintro rfl
    rfl

end Join

end FlowExport

/-
# The content of a buffer

`Buffer.toList` is the one view of a buffer, and this module says what every operation does to
it.  An append adds its octets where they fit (`append_ok`) and changes nothing where they do not
(`append_error`); a run of appends adds all its chunks exactly where their total fits
(`appendAll_ok`, `appendAll_error`); a patch writes over octets that are there (`patch_ok`); a cut
is `List.take`.  The capacity is the same after all of them, so room is a matter of lengths only.
`Does` puts the two outcomes of an operation into one statement.
-/
import FlowExport.Wire.Buffer

namespace FlowExport.Buffer

/-! ## 1. Storage as a list -/

theorem toList_eq_take (b : Buffer) : b.toList = b.storage.data.toList.take b.length := by
  simp [toList, ByteArray.data_extract]

@[simp] theorem length_toList (b : Buffer) : b.toList.length = b.length := by
  have h : b.length ≤ b.storage.data.size := b.length_le
  rw [toList_eq_take, List.length_take, Array.length_toList]
  omega

theorem length_le_capacity (b : Buffer) : b.length ≤ b.capacity :=
  b.length_le

/-- The front of a list up to an octet that was set. -/
theorem take_succ_set {bytes : List UInt8} {offset : Nat} (x : UInt8) (h : offset < bytes.length) :
    (bytes.set offset x).take (offset + 1) = bytes.take offset ++ [x] := by
  rw [List.take_succ_eq_append_getElem (by simpa using h), List.take_set_of_le (Nat.le_refl _)]
  simp

/-- Writing into the storage is laying octets over a stretch of it. -/
theorem toList_overwrite : ∀ (bytes : List UInt8) (storage : ByteArray) (offset : Nat),
    offset + bytes.length ≤ storage.size →
      (overwrite storage offset bytes).data.toList
        = storage.data.toList.take offset ++ bytes
          ++ storage.data.toList.drop (offset + bytes.length)
  | [], storage, offset, _ => by simp [overwrite]
  | x :: bytes, storage, offset, h => by
    rw [List.length_cons] at h
    have hsize : (storage.set! offset x).size = storage.size := Array.size_setIfInBounds
    have hset : (storage.set! offset x).data.toList = storage.data.toList.set offset x := by
      simp [ByteArray.set!]
    have hlt : offset < storage.data.toList.length := by
      rw [Array.length_toList]
      exact Nat.lt_of_lt_of_le (Nat.lt_add_of_pos_right (Nat.succ_pos _)) h
    have hdrop : (storage.data.toList.set offset x).drop (offset + 1 + bytes.length)
        = storage.data.toList.drop (offset + 1 + bytes.length) :=
      List.drop_set_of_lt (by omega)
    rw [overwrite, toList_overwrite bytes _ _ (by rw [hsize]; omega), hset, take_succ_set x hlt, hdrop,
      List.length_cons]
    simp only [List.append_assoc, List.cons_append, List.nil_append]
    rw [show offset + 1 + bytes.length = offset + (bytes.length + 1) by omega]

/-! ## 2. Appending -/

/-- **An append that fits** adds its octets. -/
theorem append_ok {b : Buffer} (bytes : List UInt8)
    (h : b.length + bytes.length ≤ b.capacity) :
    ∃ b', b.append bytes = (.ok (), b') ∧ b'.toList = b.toList ++ bytes
      ∧ b'.capacity = b.capacity := by
  have hs : b.length + bytes.length ≤ b.storage.size := h
  refine ⟨⟨overwrite b.storage b.length bytes, b.length + bytes.length, by simpa using hs⟩,
    by simp only [append]; rw [dif_pos hs], ?_, size_overwrite _ _ _⟩
  rw [toList_eq_take, toList_overwrite _ _ _ hs, toList_eq_take]
  refine List.take_left' ?_
  rw [List.length_append, ← toList_eq_take, length_toList]

/-- **An append that does not fit** changes nothing. -/
theorem append_error {b : Buffer} {bytes : List UInt8}
    (h : b.capacity < b.length + bytes.length) :
    b.append bytes = (.error (.bufferOverflow (b.length + bytes.length) b.capacity), b) := by
  have hs : ¬ b.length + bytes.length ≤ b.storage.size := Nat.not_le.mpr h
  simp only [append]
  rw [dif_neg hs]

theorem length_of_toList {b b' : Buffer} {bytes : List UInt8}
    (h : b'.toList = b.toList ++ bytes) : b'.length = b.length + bytes.length := by
  have := congrArg List.length h
  simpa using this

theorem appendAll_ok {b : Buffer} (chunks : List (List UInt8))
    (h : b.length + chunks.flatten.length ≤ b.capacity) :
    ∃ b', b.appendAll chunks = (.ok (), b') ∧ b'.toList = b.toList ++ chunks.flatten
      ∧ b'.capacity = b.capacity := by
  induction chunks generalizing b with
  | nil => exact ⟨b, rfl, by simp, rfl⟩
  | cons chunk chunks ih =>
    rw [List.flatten_cons, List.length_append] at h
    obtain ⟨b₁, h₁, hl₁, hc₁⟩ := append_ok (b := b) chunk (by omega)
    have hlen := length_of_toList hl₁
    obtain ⟨b₂, h₂, hl₂, hc₂⟩ := ih (b := b₁) (by omega)
    refine ⟨b₂, by rw [appendAll, h₁]; exact h₂, ?_, hc₂.trans hc₁⟩
    rw [hl₂, hl₁, List.flatten_cons, List.append_assoc]

/-- **Chunks that do not fit together** stop at one of them; those before it stay. -/
theorem appendAll_error {b : Buffer} (chunks : List (List UInt8))
    (h : b.capacity < b.length + chunks.flatten.length) :
    ∃ e b', b.appendAll chunks = (.error e, b') ∧ b.toList <+: b'.toList
      ∧ b'.capacity = b.capacity := by
  induction chunks generalizing b with
  | nil =>
    have := b.length_le_capacity
    simp only [List.flatten_nil, List.length_nil] at h
    omega
  | cons chunk chunks ih =>
    rw [List.flatten_cons, List.length_append] at h
    rcases Nat.lt_or_ge b.capacity (b.length + chunk.length) with hc | hc
    · exact ⟨_, b, by rw [appendAll, append_error hc], List.prefix_rfl, rfl⟩
    · obtain ⟨b₁, h₁, hl₁, hc₁⟩ := append_ok chunk hc
      have hlen := length_of_toList hl₁
      obtain ⟨e, b₂, h₂, hp₂, hc₂⟩ := ih (b := b₁) (by omega)
      refine ⟨e, b₂, by rw [appendAll, h₁]; exact h₂, ?_, hc₂.trans hc₁⟩
      exact List.IsPrefix.trans ⟨chunk, hl₁.symm⟩ hp₂

/-- Chunks appended in two runs: the second begins where the first got through. -/
theorem appendAll_append (b : Buffer) (first second : List (List UInt8)) :
    b.appendAll (first ++ second) = match b.appendAll first with
      | (.ok (), b) => b.appendAll second
      | (.error e, b) => (.error e, b) := by
  induction first generalizing b with
  | nil => rfl
  | cons chunk first ih =>
    rw [List.cons_append, appendAll, appendAll]
    rcases b.append chunk with ⟨_ | ⟨⟩, b₁⟩
    · rfl
    · exact ih b₁

/-! ## 3. Writing over, cutting, clearing -/

/-- **A patch within the content** writes over it. -/
theorem patch_ok {b : Buffer} (offset : Nat) (bytes : List UInt8)
    (h : offset + bytes.length ≤ b.length) :
    ∃ b', b.patch offset bytes = (.ok (), b')
      ∧ b'.toList = b.toList.take offset ++ bytes ++ b.toList.drop (offset + bytes.length)
      ∧ b'.capacity = b.capacity := by
  have hs : offset + bytes.length ≤ b.storage.size := Nat.le_trans h b.length_le
  refine ⟨⟨overwrite b.storage offset bytes, b.length, by simpa using b.length_le⟩,
    by simp only [patch]; rw [if_pos h], ?_, size_overwrite _ _ _⟩
  rw [toList_eq_take, toList_overwrite _ _ _ hs, toList_eq_take, List.take_take,
    Nat.min_eq_left (by omega), List.drop_take]
  have hl : (b.storage.data.toList.take offset ++ bytes).length = offset + bytes.length := by
    rw [List.length_append, List.length_take, Array.length_toList]
    have : offset ≤ b.storage.data.size := Nat.le_trans (Nat.le_add_right _ _) hs
    omega
  have hle : (b.storage.data.toList.take offset ++ bytes).length ≤ b.length := by omega
  rw [List.take_append, List.take_of_length_le hle, hl]

@[simp] theorem toList_truncate (b : Buffer) (n : Nat) :
    (b.truncate n).toList = b.toList.take n := by
  unfold truncate
  split
  · rename_i h
    rw [toList_eq_take, toList_eq_take, List.take_take, Nat.min_eq_left (Nat.le_of_lt h)]
  · rename_i h
    rw [List.take_of_length_le (by rw [length_toList]; omega)]

@[simp] theorem capacity_truncate (b : Buffer) (n : Nat) :
    (b.truncate n).capacity = b.capacity := by
  unfold truncate
  split <;> rfl

@[simp] theorem length_clear (b : Buffer) : b.clear.length = 0 := rfl

@[simp] theorem toList_clear (b : Buffer) : b.clear.toList = [] := by
  rw [← List.length_eq_zero_iff, length_toList, length_clear]

@[simp] theorem capacity_clear (b : Buffer) : b.clear.capacity = b.capacity := rfl

@[simp] theorem capacity_ofCapacity (n : Nat) : (ofCapacity n).capacity = n := by
  simp [ofCapacity, capacity, ByteArray.size]

@[simp] theorem toList_ofCapacity (capacity : Nat) : (ofCapacity capacity).toList = [] := by
  rw [← List.length_eq_zero_iff, length_toList]
  rfl

/-! ## 4. Either outcome -/

/-- **What comes of an operation on a buffer** that needs so much within such a limit: the content
that is given, or an error that names both numbers and nothing changed. -/
structure Does (b : Buffer) (needed limit : Nat) (content : List UInt8)
    (r : Except CodecError Unit × Buffer) : Prop where
  outcome : r.1 = if needed ≤ limit then .ok () else .error (.bufferOverflow needed limit)
  toList : r.2.toList = if needed ≤ limit then content else b.toList
  capacity : r.2.capacity = b.capacity

section Does

variable {b : Buffer} {needed limit : Nat} {content : List UInt8}
  {r : Except CodecError Unit × Buffer}

theorem Does.congr {content' : List UInt8} (h : b.Does needed limit content r)
    (hc : needed ≤ limit → content' = content) : b.Does needed limit content' r := by
  refine ⟨h.outcome, ?_, h.capacity⟩
  rw [h.toList]
  split
  · rename_i hle
    exact (hc hle).symm
  · rfl

theorem Does.succeeds_iff (h : b.Does needed limit content r) :
    (r.1 = .ok () ↔ needed ≤ limit) ∧ (r.1 = .ok () → r.2.toList = content) ∧
      (r.1 ≠ .ok () → r.1 = .error (.bufferOverflow needed limit) ∧ r.2.toList = b.toList) := by
  obtain ⟨houtcome, hcontent, -⟩ := h
  rw [houtcome, hcontent]
  split
  · rename_i hin
    exact ⟨⟨fun _ => hin, fun _ => rfl⟩, fun _ => rfl, fun h => absurd rfl h⟩
  · rename_i hout
    exact ⟨⟨fun h => by simp at h, fun h => absurd h hout⟩, fun h => by simp at h,
      fun _ => ⟨rfl, rfl⟩⟩

end Does

theorem append_does (b : Buffer) (bytes : List UInt8) :
    b.Does (b.toList ++ bytes).length b.capacity (b.toList ++ bytes) (b.append bytes) := by
  rw [List.length_append, length_toList]
  rcases Nat.lt_or_ge b.capacity (b.length + bytes.length) with hfull | hroom
  · rw [append_error hfull]
    exact ⟨(if_neg (Nat.not_le.mpr hfull)).symm, (if_neg (Nat.not_le.mpr hfull)).symm, rfl⟩
  · obtain ⟨b', hb, hl, hc⟩ := append_ok bytes hroom
    rw [hb]
    exact ⟨(if_pos hroom).symm, hl.trans (if_pos hroom).symm, hc⟩

theorem patch_does (b : Buffer) (offset : Nat) (bytes : List UInt8) :
    b.Does (offset + bytes.length) b.toList.length
      (b.toList.take offset ++ bytes ++ b.toList.drop (offset + bytes.length))
      (b.patch offset bytes) := by
  rw [length_toList]
  by_cases hin : offset + bytes.length ≤ b.length
  · obtain ⟨b', hb, hl, hc⟩ := patch_ok offset bytes hin
    rw [hb]
    exact ⟨(if_pos hin).symm, hl.trans (if_pos hin).symm, hc⟩
  · rw [patch, if_neg hin]
    exact ⟨(if_neg hin).symm, (if_neg hin).symm, rfl⟩

/-- Cutting needs no room. -/
theorem cut_does {b : Buffer} {content : List UInt8} {b' : Buffer} (hl : b'.toList = content)
    (hc : b'.capacity = b.capacity) : b.Does content.length b.capacity content (.ok (), b') := by
  have hle : content.length ≤ b.capacity := by
    rw [← hl, length_toList, ← hc]
    exact b'.length_le_capacity
  exact ⟨(if_pos hle).symm, hl.trans (if_pos hle).symm, hc⟩

end FlowExport.Buffer

/-
# A buffer is a list of bounded length

The storage of a buffer is used again and again, and behind the fill mark it still holds octets of
earlier, longer messages.  `Operation` is all that can be asked of a buffer, and on a byte list it is
what one expects: numbers are appended high octet first, a patch sets octets in place, a cut takes a
front (`Operation.onList`).  It can be done exactly if what it needs is within its limit, which for an
append is the capacity and for a patch what is written.  Lengths and offsets are numbers without a
bound, so no sum of them wraps.

One operation on a buffer is that operation on its content (`perform_does`), so a run of them is the
run on the list (`toList_run`), and a capacity and the operations alone say what a buffer holds.
Nothing else of its past can show: where it was cut or cleared, the rest of the run is that of a new
buffer which was only ever given what is left (`refines_bounded_list`).
-/
import FlowExport.Proofs.Wire.Alike

namespace FlowExport.Buffer

/-! ## 1. Operations -/

/-- **What is asked of a buffer.** -/
inductive Operation where
  | putOctet (value : UInt8)
  | putWord (value : UInt16)
  | putDoubleWord (value : UInt32)
  | putOctets (octets : List UInt8)
  | putZeros (count : Nat)
  | patchOctet (offset : Nat) (value : UInt8)
  | patchWord (offset : Nat) (value : UInt16)
  | truncate (length : Nat)
  | clear

/-- The outcome of an operation, and the buffer after it. -/
def perform (b : Buffer) : Operation → Except CodecError Unit × Buffer
  | .putOctet value => b.append [value]
  | .putWord value => b.append (Octets.ofNat 2 value.toNat)
  | .putDoubleWord value => b.append (Octets.ofNat 4 value.toNat)
  | .putOctets octets => b.append octets
  | .putZeros count => b.appendZeros count
  | .patchOctet offset value => b.patch offset [value]
  | .patchWord offset value => b.patch offset (Octets.ofNat 2 value.toNat)
  | .truncate length => (.ok (), b.truncate length)
  | .clear => (.ok (), b.clear)

/-- The buffer after any operations. -/
def run (b : Buffer) (operations : List Operation) : Buffer :=
  operations.foldl (fun b operation => (b.perform operation).2) b

namespace Operation

/-- **What an operation makes of a byte list**, where it can be done. -/
def onList (bytes : List UInt8) : Operation → List UInt8
  | putOctet value => bytes ++ [value]
  | putWord value => bytes ++ [(value >>> 8).toUInt8, value.toUInt8]
  | putDoubleWord value => bytes
      ++ [(value >>> 24).toUInt8, (value >>> 16).toUInt8, (value >>> 8).toUInt8, value.toUInt8]
  | putOctets octets => bytes ++ octets
  | putZeros count => bytes ++ List.replicate count 0
  | patchOctet offset value => bytes.set offset value
  | patchWord offset value =>
    (bytes.set offset (value >>> 8).toUInt8).set (offset + 1) value.toUInt8
  | truncate length => bytes.take length
  | clear => []

/-- How long the list has to be for a patch, and how long it becomes by any other operation. -/
def needed (bytes : List UInt8) : Operation → Nat
  | patchOctet offset _ => offset + 1
  | patchWord offset _ => offset + 2
  | operation => (operation.onList bytes).length

/-- What is needed has to be within the written octets for a patch, and within the capacity for any
other operation. -/
def limit (capacity : Nat) (bytes : List UInt8) : Operation → Nat
  | patchOctet .. => bytes.length
  | patchWord .. => bytes.length
  | _ => capacity

/-- **A byte list of bounded length** after an operation: unchanged, where it cannot be done. -/
def step (capacity : Nat) (bytes : List UInt8) (operation : Operation) : List UInt8 :=
  if operation.needed bytes ≤ operation.limit capacity bytes then operation.onList bytes else bytes

end Operation

/-! ## 2. Octets set in place -/

section Patch

variable {bytes : List UInt8} {offset : Nat} (x y : UInt8)

theorem set_eq_write (h : offset + 1 ≤ bytes.length) :
    bytes.set offset x = bytes.take offset ++ [x] ++ bytes.drop (offset + 1) := by
  rw [List.set_eq_take_append_cons_drop, if_pos (Nat.lt_of_succ_le h), List.append_assoc,
    List.singleton_append]

/-- Octets set one after the other are written together. -/
theorem set_set_eq_write (h : offset + 2 ≤ bytes.length) :
    (bytes.set offset x).set (offset + 1) y
      = bytes.take offset ++ [x, y] ++ bytes.drop (offset + 2) := by
  have hdrop : (bytes.set offset x).drop (offset + 2) = bytes.drop (offset + 2) :=
    List.drop_set_of_lt (by omega)
  rw [set_eq_write y (by rw [List.length_set]; exact h), take_succ_set x (by omega), hdrop]
  simp only [List.append_assoc, List.cons_append, List.nil_append]

end Patch

/-! ## 3. One operation -/

/-- **One operation on a buffer is that operation on its content.** -/
theorem perform_does (b : Buffer) (operation : Operation) :
    b.Does (operation.needed b.toList) (operation.limit b.capacity b.toList)
      (operation.onList b.toList) (b.perform operation) := by
  cases operation with
  | putOctet value => exact append_does b [value]
  | putWord value =>
    rw [perform, Octets.ofNat_word]
    exact append_does b _
  | putDoubleWord value =>
    rw [perform, Octets.ofNat_doubleWord]
    exact append_does b _
  | putOctets octets => exact append_does b octets
  | putZeros count => exact append_does b (List.replicate count 0)
  -- octets are set one by one on the list: within what is written, that is one write
  | patchOctet offset value => exact (patch_does b offset [value]).congr (set_eq_write value)
  | patchWord offset value =>
    have h := patch_does b offset [(value >>> 8).toUInt8, value.toUInt8]
    rw [perform, Octets.ofNat_word]
    exact h.congr (set_set_eq_write _ _)
  | truncate length => exact cut_does (toList_truncate b length) (capacity_truncate b length)
  | clear => exact cut_does (toList_clear b) (capacity_clear b)

/-! ## 4. Any operations -/

/-- **A run on a buffer is the run on its content**, and keeps the capacity. -/
theorem toList_run (b : Buffer) (operations : List Operation) :
    (b.run operations).toList = operations.foldl (Operation.step b.capacity) b.toList ∧
      (b.run operations).capacity = b.capacity := by
  induction operations generalizing b with
  | nil => exact ⟨rfl, rfl⟩
  | cons operation operations ih =>
    obtain ⟨-, hl, hc⟩ := perform_does b operation
    have hrest := ih (b.perform operation).2
    rw [hl, hc] at hrest
    exact hrest

/-- What a buffer holds later depends on its content and capacity alone. -/
theorem Alike.run {b b' : Buffer} (h : b.Alike b') (operations : List Operation) :
    (b.run operations).Alike (b'.run operations) := by
  obtain ⟨hl, hc⟩ := toList_run b operations
  obtain ⟨hl', hc'⟩ := toList_run b' operations
  exact ⟨by rw [hl, hl', h.toList, h.capacity], by rw [hc, hc', h.capacity]⟩

/-- Zeros are zeros, whatever stood in their place. -/
theorem drop_putZeros (b : Buffer) {count : Nat} (h : b.toList.length + count ≤ b.capacity) :
    (b.perform (.putZeros count)).2.toList.drop b.toList.length = List.replicate count 0 := by
  have hroom : (b.toList ++ List.replicate count 0).length ≤ b.capacity := by
    rw [List.length_append, List.length_replicate]
    exact h
  have hput : (b.perform (.putZeros count)).2.toList = b.toList ++ List.replicate count 0 :=
    (perform_does b (.putZeros count)).toList.trans (if_pos hroom)
  rw [hput]
  exact List.drop_left

/-- **A buffer that is cut back** goes on as a new one that was given what is left. -/
theorem run_truncate (b : Buffer) (length : Nat) (later : List Operation) :
    ((b.perform (.truncate length)).2.run later).toList
      = ((ofCapacity b.capacity).run (.putOctets (b.toList.take length) :: later)).toList := by
  have hkept : (b.toList.take length).length ≤ b.capacity := by
    have hle := b.length_le_capacity
    rw [List.length_take, length_toList]
    omega
  -- what is left fits, so a new buffer takes it and is then alike, up to what is left over behind
  obtain ⟨-, hput, hcapacity⟩ := append_does (ofCapacity b.capacity) (b.toList.take length)
  rw [toList_ofCapacity, List.nil_append, capacity_ofCapacity, if_pos hkept] at hput
  rw [capacity_ofCapacity] at hcapacity
  have hstart : Alike ((ofCapacity b.capacity).append (b.toList.take length)).2
      (b.truncate length) :=
    ⟨(toList_truncate b length).trans hput.symm, (capacity_truncate b length).trans hcapacity.symm⟩
  exact (hstart.run later).toList

/-- **A buffer that is cleared** goes on as a new one. -/
theorem run_clear (b : Buffer) (later : List Operation) :
    ((b.perform .clear).2.run later).toList = ((ofCapacity b.capacity).run later).toList := by
  have hstart : (ofCapacity b.capacity).Alike b.clear :=
    ⟨by rw [toList_clear, toList_ofCapacity], by rw [capacity_clear, capacity_ofCapacity]⟩
  exact (hstart.run later).toList

/-- **A buffer refines a byte list of bounded length.**  After any operations on a new buffer its
content is the list that the operations make, and is within the capacity, which stays the same.  A
further operation succeeds exactly if what it needs is within its limit, and the content is then what
it makes of the list; otherwise it fails, with both numbers, and the content stays.  What is asked
for as zeros is zeros.  Wherever the content is cut or cleared, the buffer goes on as a new one would
that was given what is left. -/
theorem refines_bounded_list (capacity : Nat) (operations : List Operation) :
    let b := (ofCapacity capacity).run operations
    let content := operations.foldl (Operation.step capacity) []
    b.toList = content ∧ b.length = content.length ∧ b.length ≤ capacity ∧
    b.capacity = capacity ∧
    (∀ operation : Operation,
      ((b.perform operation).1 = .ok () ↔
        operation.needed content ≤ operation.limit capacity content) ∧
      ((b.perform operation).1 = .ok () →
        (b.perform operation).2.toList = operation.onList content) ∧
      ((b.perform operation).1 ≠ .ok () →
        (b.perform operation).1 = .error (.bufferOverflow (operation.needed content)
          (operation.limit capacity content)) ∧
        (b.perform operation).2.toList = content)) ∧
    (∀ count, content.length + count ≤ capacity →
      (b.perform (.putZeros count)).2.toList.drop content.length = List.replicate count 0) ∧
    (∀ length later, ((b.perform (.truncate length)).2.run later).toList
      = ((ofCapacity capacity).run (.putOctets (content.take length) :: later)).toList) ∧
    ∀ later, ((b.perform .clear).2.run later).toList
      = ((ofCapacity capacity).run later).toList := by
  intro b content
  obtain ⟨hl, hc⟩ : b.toList = content ∧ b.capacity = capacity := by
    have h := toList_run (ofCapacity capacity) operations
    rwa [toList_ofCapacity, capacity_ofCapacity] at h
  have hlength : b.length = content.length := by rw [← hl, length_toList]
  have hle : b.length ≤ capacity := hc ▸ b.length_le_capacity
  refine ⟨hl, hlength, hle, hc, ?_, ?_, ?_, ?_⟩
  · intro operation
    have h := (perform_does b operation).succeeds_iff
    rwa [hl, hc] at h
  · intro count hroom
    rw [← hl] at hroom ⊢
    exact drop_putZeros b (by rwa [hc])
  · intro length later
    rw [run_truncate, hl, hc]
  · intro later
    rw [run_clear, hc]

/-- A long content is cut, and zeros are asked for where its octets still stand; after that a word
does not fit any more, and a patch reaches behind what is written. -/
theorem refines_bounded_list_reused :
    let b := (ofCapacity 6).run [.putDoubleWord 0x01020304, .putOctet 5, .truncate 1]
    b.toList = [1] ∧ (b.perform (.putZeros 4)).2.toList = [1, 0, 0, 0, 0] ∧
      (b.perform (.putZeros 4)).2.toList.drop 1 = List.replicate 4 0 ∧
      (b.perform (.patchWord 0 0x0607)).1 = .error (.bufferOverflow 2 1) ∧
      ((b.perform (.putZeros 4)).2.perform (.putWord 8)).1 = .error (.bufferOverflow 7 6) := by
  intro b
  obtain ⟨hl, -, -, -, hperform, hzeros, -, -⟩ := refines_bounded_list 6
    [.putDoubleWord 0x01020304, .putOctet 5, .truncate 1]
  obtain ⟨-, -, -, -, hperform', -, -, -⟩ := refines_bounded_list 6
    [.putDoubleWord 0x01020304, .putOctet 5, .truncate 1, .putZeros 4]
  obtain ⟨hput, hputs, -⟩ := hperform (.putZeros 4)
  obtain ⟨hpatch, -, hpatched⟩ := hperform (.patchWord 0 0x0607)
  obtain ⟨hword, -, hworded⟩ := hperform' (.putWord 8)
  refine ⟨hl.trans (by decide), (hputs (hput.mpr (by decide))).trans (by decide),
    hzeros 4 (by decide), ?_, ?_⟩
  · exact (hpatched (mt hpatch.mp (by decide))).1.trans (by decide)
  · exact (hworded (mt hword.mp (by decide))).1.trans (by decide)

end FlowExport.Buffer

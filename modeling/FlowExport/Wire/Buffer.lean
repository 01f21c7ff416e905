/-
# A byte buffer with a hard capacity

Messages are put together in storage that is set aside once and used again for every message of a
node's lifetime.  `Buffer` is that storage with a fill mark: octets beyond the mark are left over
from earlier, longer messages and are never read.  Its content is the list `toList`, and each
operation is one on that list: an append that fits, a cut, an overwrite within what is written.

Operations that may fail return the buffer in either case, because a failure leaves the buffer in
use: a single append or patch that fails changes nothing, while `appendAll` keeps the chunks that
came before the one that did not fit.
-/
import FlowExport.Octets
import FlowExport.Wire.Error

namespace FlowExport

/-- **Storage with a fill mark.** -/
structure Buffer where
  storage : ByteArray
  length : Nat
  length_le : length ≤ storage.size

namespace Buffer

/-! ## 1. The content -/

/-- An empty buffer for at most `capacity` octets. -/
def ofCapacity (capacity : Nat) : Buffer :=
  ⟨⟨Array.replicate capacity 0⟩, 0, Nat.zero_le _⟩

/-- The octets a buffer can hold. -/
def capacity (b : Buffer) : Nat :=
  b.storage.size

/-- The octets that can still be appended. -/
def remaining (b : Buffer) : Nat :=
  b.capacity - b.length

/-- Whether nothing is written. -/
def isEmpty (b : Buffer) : Bool :=
  b.length == 0

/-- **The content**: what stands before the mark. -/
def toList (b : Buffer) : List UInt8 :=
  (b.storage.extract 0 b.length).data.toList

instance : Inhabited Buffer := ⟨ofCapacity 0⟩

/-! ## 2. Writing into the storage -/

/-- The storage with `bytes` written from `offset` on. -/
def overwrite (storage : ByteArray) (offset : Nat) : List UInt8 → ByteArray
  | [] => storage
  | b :: bytes => overwrite (storage.set! offset b) (offset + 1) bytes

@[simp] theorem size_overwrite (storage : ByteArray) (offset : Nat) (bytes : List UInt8) :
    (overwrite storage offset bytes).size = storage.size := by
  induction bytes generalizing storage offset with
  | nil => rfl
  | cons b bytes ih =>
    rw [overwrite, ih]
    exact Array.size_setIfInBounds

/-- **Appends octets**, all of them or none. -/
def append (b : Buffer) (bytes : List UInt8) : Except CodecError Unit × Buffer :=
  let needed := b.length + bytes.length
  if h : needed ≤ b.storage.size then
    (.ok (), ⟨overwrite b.storage b.length bytes, needed, by simpa using h⟩)
  else (.error (.bufferOverflow needed b.capacity), b)

/-- Appends `count` zero octets. -/
def appendZeros (b : Buffer) (count : Nat) : Except CodecError Unit × Buffer :=
  b.append (List.replicate count 0)

/-- **Appends chunk after chunk** up to the first that does not fit; those before it stay. -/
def appendAll (b : Buffer) : List (List UInt8) → Except CodecError Unit × Buffer
  | [] => (.ok (), b)
  | chunk :: chunks =>
    match b.append chunk with
    | (.ok (), b) => b.appendAll chunks
    | (.error e, b) => (.error e, b)

/-- **Writes over octets that are already there**, wholly before the mark. -/
def patch (b : Buffer) (offset : Nat) (bytes : List UInt8) : Except CodecError Unit × Buffer :=
  if offset + bytes.length ≤ b.length then
    (.ok (), ⟨overwrite b.storage offset bytes, b.length, by simpa using b.length_le⟩)
  else (.error (.bufferOverflow (offset + bytes.length) b.length), b)

/-- Cuts the content back to `length` octets; a longer length changes nothing. -/
def truncate (b : Buffer) (length : Nat) : Buffer :=
  if h : length < b.length then ⟨b.storage, length, Nat.le_trans (Nat.le_of_lt h) b.length_le⟩
  else b

/-- Forgets the content. -/
def clear (b : Buffer) : Buffer :=
  ⟨b.storage, 0, Nat.zero_le _⟩

end Buffer

end FlowExport

/-
# Field specifiers

A template describes each field by its element id and its width; the id's high bit announces an
enterprise number, which then follows in four more octets.  So a specifier takes four octets or
eight, and the writer decides by the number while the reader decides by the bit.  `Valid` is the
rule that makes the two agree.
-/
import FlowExport.Wire.Buffer

namespace FlowExport

/-- **A field specifier**: element id, width in octets, and the private enterprise number, zero
for elements of the public registry. -/
structure FieldSpecifier where
  id : UInt16
  size : UInt16
  enterprise : UInt32
  deriving DecidableEq, Repr, Inhabited

namespace FieldSpecifier

/-- The width that stands for variable length, which is not supported. -/
def variableLength : UInt16 := 0xFFFF

/-- The private enterprise number of the mesh's own elements. -/
def meshEnterprise : UInt32 := 20763

/-- Whether an id carries the enterprise bit. -/
def hasEnterpriseBit (id : UInt16) : Bool :=
  0x8000 ≤ id

/-- **The rules for specifiers**: a fixed width of at least one octet, and the enterprise bit
exactly with an enterprise number. -/
def Valid (s : FieldSpecifier) : Prop :=
  s.size ≠ 0 ∧ s.size ≠ variableLength ∧ (hasEnterpriseBit s.id = true ↔ s.enterprise ≠ 0)

instance (s : FieldSpecifier) : Decidable s.Valid :=
  inferInstanceAs (Decidable (_ ∧ _ ∧ _))

/-- Whether the specifier carries an enterprise number. -/
def isEnterprise (s : FieldSpecifier) : Bool :=
  s.enterprise != 0

/-- The octets of the specifier in a template set. -/
def wireLength (s : FieldSpecifier) : Nat :=
  if s.isEnterprise then 8 else 4

/-- **A specifier that obeys the rules**, the width checked before the enterprise bit. -/
def make (id size : UInt16) (enterprise : UInt32) : Except CodecError FieldSpecifier :=
  if size = 0 ∨ size = variableLength then
    .error (.invalidElement id (.unsupportedSize size))
  else if hasEnterpriseBit id != (enterprise != 0) then
    .error (.invalidElement id (.enterpriseMismatch (hasEnterpriseBit id) enterprise))
  else .ok ⟨id, size, enterprise⟩

/-- **`make` builds exactly the valid specifiers.** -/
theorem make_eq_ok_iff {id size : UInt16} {enterprise : UInt32} {s : FieldSpecifier} :
    make id size enterprise = .ok s ↔ s = ⟨id, size, enterprise⟩ ∧ s.Valid := by
  unfold make
  split
  · rename_i h
    constructor
    · intro h'
      simp at h'
    · rintro ⟨rfl, hv⟩
      rcases h with h | h
      · exact absurd h hv.1
      · exact absurd h hv.2.1
  · rename_i h
    split
    · rename_i hm
      constructor
      · intro h'
        simp at h'
      · rintro ⟨rfl, hv⟩
        have hb := hv.2.2
        cases hbit : hasEnterpriseBit id <;> simp_all
    · rename_i hm
      constructor
      · intro h'
        simp only [Except.ok.injEq] at h'
        subst h'
        refine ⟨rfl, ?_, ?_, ?_⟩
        · exact fun h' => h (Or.inl h')
        · exact fun h' => h (Or.inr h')
        · cases hbit : hasEnterpriseBit id <;> simp_all
      · rintro ⟨rfl, -⟩
        rfl

/-- The parts of a specifier on the wire, in the order they are written. -/
def chunks (s : FieldSpecifier) : List (List UInt8) :=
  [Octets.ofNat 2 s.id.toNat, Octets.ofNat 2 s.size.toNat]
    ++ if s.isEnterprise then [Octets.ofNat 4 s.enterprise.toNat] else []

/-- **The octets of a specifier.** -/
def encode (s : FieldSpecifier) : List UInt8 :=
  s.chunks.flatten

@[simp] theorem length_encode (s : FieldSpecifier) : s.encode.length = s.wireLength := by
  unfold encode chunks wireLength
  split <;> simp

/-- Appends the specifier part by part. -/
def write (s : FieldSpecifier) (b : Buffer) : Except CodecError Unit × Buffer :=
  b.appendAll s.chunks

/-- **Reads one specifier from the front of `bytes`** and returns what follows it. -/
def read (bytes : List UInt8) : Except CodecError (FieldSpecifier × List UInt8) :=
  match bytes with
  | i₁ :: i₀ :: s₁ :: s₀ :: rest =>
    let id := Octets.word16 i₁ i₀
    let size := Octets.word16 s₁ s₀
    if hasEnterpriseBit id then
      match rest with
      | e₃ :: e₂ :: e₁ :: e₀ :: rest =>
        (make id size (Octets.word32 e₃ e₂ e₁ e₀)).map (·, rest)
      | _ => .error (.truncated 8 bytes.length)
    else (make id size 0).map (·, rest)
  | _ => .error (.truncated 4 bytes.length)

/-- **Reads `count` specifiers in a row** and returns what follows them. -/
def readMany : (count : Nat) → List UInt8 → Except CodecError (List FieldSpecifier × List UInt8)
  | 0, bytes => .ok ([], bytes)
  | count + 1, bytes => do
    let (specifier, bytes) ← read bytes
    let (specifiers, bytes) ← readMany count bytes
    return (specifier :: specifiers, bytes)

/-- What `read` leaves is shorter than what it was given. -/
theorem length_lt_of_read {bytes rest : List UInt8} {s : FieldSpecifier}
    (h : read bytes = .ok (s, rest)) : rest.length < bytes.length := by
  unfold read at h
  split at h
  · rename_i tail
    simp only at h
    split at h
    · split at h
      · rename_i tail'
        cases hm : make _ _ _ with
        | error e => rw [hm] at h; simp [Except.map] at h
        | ok s' =>
          rw [hm] at h
          simp only [Except.map, Except.ok.injEq, Prod.mk.injEq] at h
          rw [← h.2]
          simp only [List.length_cons]
          omega
      · simp at h
    · cases hm : make _ _ _ with
      | error e => rw [hm] at h; simp [Except.map] at h
      | ok s' =>
        rw [hm] at h
        simp only [Except.map, Except.ok.injEq, Prod.mk.injEq] at h
        rw [← h.2]
        simp only [List.length_cons]
        omega
  · simp at h

/-- What `readMany` leaves is no longer than what it was given. -/
theorem length_le_of_readMany {count : Nat} {bytes rest : List UInt8}
    {fields : List FieldSpecifier} (h : readMany count bytes = .ok (fields, rest)) :
    rest.length ≤ bytes.length := by
  induction count generalizing bytes rest fields with
  | zero =>
    simp only [readMany, Except.ok.injEq, Prod.mk.injEq] at h
    exact Nat.le_of_eq (congrArg List.length h.2.symm)
  | succ count ih =>
    simp only [readMany, bind, Except.bind] at h
    split at h
    · simp at h
    · rename_i first hfirst
      split at h
      · simp at h
      · rename_i others hothers
        simp only [pure, Except.pure, Except.ok.injEq, Prod.mk.injEq] at h
        have h₁ : first.2.length < bytes.length := length_lt_of_read hfirst
        have h₂ : others.2.length ≤ first.2.length := ih hothers
        rw [← h.2]
        omega

/-- **The specifiers of a body**, read one after the other until none is left or one cannot be
read. -/
def readAll (bytes : List UInt8) : List FieldSpecifier :=
  match _h : read bytes with
  | .ok (specifier, rest) => specifier :: readAll rest
  | .error _ => []
termination_by bytes.length
decreasing_by exact length_lt_of_read _h

end FieldSpecifier

end FlowExport

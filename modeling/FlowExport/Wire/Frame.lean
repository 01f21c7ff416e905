/-
# Frames: sets as they lie in a message

In both encodings a set starts with two octets that name it, followed by its length in two more,
which counts all four.  So both are cut in the same way.  `Frame.walk` does it with every check,
applying a rule to each set as it goes, and fails at the first set that is cut wrong or refused
by the rule; `Frame.split` cuts without checks what has been walked before.
-/
import FlowExport.Octets
import FlowExport.Wire.Error

namespace FlowExport

/-- **A set as it lies in a message**: its two leading octets and its body. -/
structure Frame where
  lead : UInt8 × UInt8
  body : List UInt8
  deriving DecidableEq, Repr

namespace Frame

/-- The octets in front of a body. -/
def headerLength : Nat := 4

/-- **The octets of a frame**: the leading two, the length, the body. -/
def encode (f : Frame) : List UInt8 :=
  f.lead.1 :: f.lead.2 :: Octets.ofNat 2 (headerLength + f.body.length) ++ f.body

/-- **Cuts one frame from the front of `bytes`** and returns what follows it; `name` gives the
set id under which a wrong length is reported. -/
def read (name : UInt8 × UInt8 → UInt16) (bytes : List UInt8) :
    Except CodecError (Frame × List UInt8) :=
  match bytes with
  | a :: b :: hi :: lo :: rest =>
    let length := Octets.word16 hi lo
    if length.toNat < headerLength ∨ bytes.length < length.toNat then
      .error (.malformedSet (name (a, b)) (.lengthMismatch length bytes.length))
    else
      .ok (⟨(a, b), rest.take (length.toNat - headerLength)⟩,
        rest.drop (length.toNat - headerLength))
  | _ => .error (.truncated headerLength bytes.length)

theorem length_lt_of_read {name : UInt8 × UInt8 → UInt16} {bytes rest : List UInt8} {f : Frame}
    (h : read name bytes = .ok (f, rest)) : rest.length < bytes.length := by
  unfold read at h
  split at h
  · simp only at h
    split at h
    · simp at h
    · simp only [Except.ok.injEq, Prod.mk.injEq] at h
      rw [← h.2]
      simp only [List.length_drop, List.length_cons]
      omega
  · simp at h

/-- **Cuts a whole message body into frames**, each put through `rule` before the next is cut. -/
def walk {α : Type} (name : UInt8 × UInt8 → UInt16) (rule : Frame → Except CodecError α)
    (bytes : List UInt8) : Except CodecError (List α) :=
  if bytes.isEmpty then .ok []
  else
    match _h : read name bytes with
    | .error e => .error e
    | .ok (frame, rest) => do
      let value ← rule frame
      let values ← walk name rule rest
      return value :: values
termination_by bytes.length
decreasing_by exact length_lt_of_read _h

/-- **Cuts a body that has been walked**, relying on its lengths. -/
def split : List UInt8 → List Frame
  | a :: b :: hi :: lo :: rest =>
    let length := (Octets.word16 hi lo).toNat - headerLength
    ⟨(a, b), rest.take length⟩ :: split (rest.drop length)
  | _ => []
termination_by bytes => bytes.length
decreasing_by
  simp only [List.length_drop, List.length_cons]
  omega

end Frame

end FlowExport

/-
# The two encodings and the two kinds of message

A report travels in one of two encodings.  The *full* one is IPFIX as collectors read it, the
*compact* one saves header octets on constrained hops; bodies are the same in both.  A message
carries either template definitions or data records, never both.
-/
namespace FlowExport

/-- **A wire encoding** of messages. -/
inductive Encoding where
  | full
  | compact
  deriving DecidableEq, Repr, Inhabited

/-- **What a message carries.** -/
inductive Kind where
  | template
  | data
  deriving DecidableEq, Repr, Inhabited

namespace Encoding

/-- The name of an encoding in configurations. -/
def name : Encoding → String
  | full => "full"
  | compact => "compact"

/-- The encoding of a name. -/
def ofName? : String → Option Encoding
  | "full" => some full
  | "compact" => some compact
  | _ => none

theorem ofName?_name (e : Encoding) : ofName? e.name = some e := by
  cases e <;> rfl

end Encoding

namespace Kind

/-- The name of a kind in reports. -/
def name : Kind → String
  | template => "template"
  | data => "data"

/-- **The code of a kind**: the low four bits of the first octet of a compact message. -/
def code : Kind → UInt8
  | template => 1
  | data => 2

/-- The kind of a code; fourteen of the sixteen codes name none. -/
def ofCode? (code : UInt8) : Option Kind :=
  if code = 1 then some template else if code = 2 then some data else none

theorem ofCode?_code (k : Kind) : ofCode? k.code = some k := by
  cases k <;> rfl

theorem eq_code_of_ofCode? {c : UInt8} {k : Kind} (h : ofCode? c = some k) : c = k.code := by
  unfold ofCode? at h
  split at h
  · rename_i hc
    cases h
    exact hc
  · split at h
    · rename_i hc
      cases h
      exact hc
    · simp at h

end Kind

end FlowExport

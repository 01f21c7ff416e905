/-
# Mesh addresses

A node is known in the whole mesh by a 128-bit address in the form of IPv6.  Flows are keyed by
the full address; the two-octet node id is only a short form of it on the wire, and two nodes may
share one.
-/
import FlowExport.Octets

namespace FlowExport

/-- **A mesh address**: sixteen octets in network order. -/
structure Address where
  octets : List UInt8
  length_octets : octets.length = 16
  deriving DecidableEq

namespace Address

attribute [simp] length_octets

/-- An address of exactly sixteen octets, if there are that many. -/
def ofOctets? (octets : List UInt8) : Option Address :=
  if h : octets.length = 16 then some ⟨octets, h⟩ else none

/-- The address with every bit clear. -/
def unspecified : Address :=
  ⟨List.replicate 16 0, by simp⟩

instance : Inhabited Address := ⟨unspecified⟩

/-- **The node id**: the last two octets of the address. -/
def nodeId (a : Address) : UInt16 :=
  UInt16.ofNat (Octets.toNat (a.octets.drop 14))

/-- Addresses are ordered as 128-bit numbers, which is the order of their octets. -/
def order (a b : Address) : Ordering :=
  compare (Octets.toNat a.octets) (Octets.toNat b.octets)

/-- The eight 16-bit groups of an address. -/
def groups (a : Address) : List Nat :=
  (Octets.pieces 2 a.octets).map Octets.toNat

theorem ofOctets?_octets (a : Address) : ofOctets? a.octets = some a := by
  simp [ofOctets?]

end Address

end FlowExport

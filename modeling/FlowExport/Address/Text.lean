/-
# The text of an address

Addresses are printed in the canonical form of RFC 5952: lower-case groups without leading zeros,
the first longest run of at least two zero groups as `::`, and an IPv4-mapped address, and only
that one, with its last four octets in dotted decimal.

Reading is more generous, as RFC 4291 allows: groups of one to four digits of either case, one
`::` for at least one group, and a dotted tail wherever at least two groups are still missing.
-/
import FlowExport.Address
import FlowExport.Text.Blank
import FlowExport.Text.Decimal

namespace FlowExport.Address

open FlowExport.Text

/-! ## 1. Printing -/

/-- One group, in lower-case hexadecimal without leading zeros. -/
def groupText (group : Nat) : String :=
  String.ofList (Nat.toDigits 16 group)

/-- Groups joined by colons. -/
def groupsText (groups : List Nat) : String :=
  ":".intercalate (groups.map groupText)

/-- The length of the run of zero groups that starts at place `i`. -/
def zeroRunAt (groups : List Nat) (i : Nat) : Nat :=
  ((groups.drop i).takeWhile (· == 0)).length

/-- **The first of the longest runs of zero groups**, as its place and its length. -/
def longestZeroRun (groups : List Nat) : Nat × Nat :=
  (List.range groups.length).foldl
    (fun best i => if best.2 < zeroRunAt groups i then (i, zeroRunAt groups i) else best) (0, 0)

/-- Four octets in dotted decimal. -/
def dotted (octets : List UInt8) : String :=
  ".".intercalate (octets.map fun b => toString b.toNat)

/-- Whether the address is `::ffff:0:0/96`, the range that stands for IPv4. -/
def isMapped (a : Address) : Bool :=
  a.octets.take 12 == List.replicate 10 0 ++ [0xff, 0xff]

/-- **The canonical text of an address.** -/
def text (a : Address) : String :=
  if a.isMapped then "::ffff:" ++ dotted (a.octets.drop 12)
  else
    let (start, length) := longestZeroRun a.groups
    if 1 < length then
      groupsText (a.groups.take start) ++ "::" ++ groupsText (a.groups.drop (start + length))
    else groupsText a.groups

/-! ## 2. Reading -/

/-- A group of one to four hexadecimal digits, and the rest of the text. -/
def readGroup? (cs : List Char) : Option (Nat × List Char) :=
  let digits := (cs.takeWhile (hexDigit? · |>.isSome)).filterMap hexDigit?
  if 1 ≤ digits.length && digits.length ≤ 4 then
    some (spelled 16 digits, cs.dropWhile (hexDigit? · |>.isSome))
  else none

/-- An octet in decimal without leading zeros, and the rest of the text. -/
def readOctet? (cs : List Char) : Option (Nat × List Char) :=
  let digits := (cs.takeWhile (digit? · |>.isSome)).filterMap digit?
  if digits.length == 1 || (2 ≤ digits.length && digits.length ≤ 3 && digits.head? != some 0) then
    if spelled 10 digits < 256 then
      some (spelled 10 digits, cs.dropWhile (digit? · |>.isSome))
    else none
  else none

/-- A character that must stand next, and the rest of the text after it. -/
def skip? (c : Char) : List Char → Option (List Char)
  | d :: cs => if d = c then some cs else none
  | [] => none

/-- Four octets in dotted decimal as two groups, and the rest of the text. -/
def readDotted? (cs : List Char) : Option (List Nat × List Char) := do
  let (a, cs) ← readOctet? cs
  let (b, cs) ← readOctet? (← skip? '.' cs)
  let (c, cs) ← readOctet? (← skip? '.' cs)
  let (d, cs) ← readOctet? (← skip? '.' cs)
  return ([a * 256 + b, c * 256 + d], cs)

/-- Groups read so far, whether a dotted tail ended them, and the rest of the text. -/
structure Groups where
  values : List Nat
  endsDotted : Bool
  rest : List Char

/-- **As many groups as there are, up to `room`.**  Every group but the first needs a colon in
front; a dotted tail counts for two and ends the run.  Where neither can be read the run stops
and the text stays as it is. -/
def readGroups : (room : Nat) → (first : Bool) → List Char → Groups
  | 0, _, cs => ⟨[], false, cs⟩
  | room + 1, first, cs =>
    match if first then some cs else skip? ':' cs with
    | none => ⟨[], false, cs⟩
    | some inner =>
      match if 1 ≤ room then readDotted? inner else none with
      | some (pair, rest) => ⟨pair, true, rest⟩
      | none =>
        match readGroup? inner with
        | none => ⟨[], false, cs⟩
        | some (group, rest) =>
          let more := readGroups room false rest
          ⟨group :: more.values, more.endsDotted, more.rest⟩

/-- The address of eight groups. -/
def ofGroups? (groups : List Nat) : Option Address :=
  ofOctets? (groups.flatMap (Octets.ofNat 2))

/-- **The address a whole text spells**, with nothing around it. -/
def read? (cs : List Char) : Option Address :=
  let front := readGroups 8 true cs
  if front.values.length = 8 then
    if front.rest.isEmpty then ofGroups? front.values else none
  else if front.endsDotted then none
  else
    match front.rest with
    | ':' :: ':' :: cs =>
      let back := readGroups (7 - front.values.length) true cs
      let gap := 8 - front.values.length - back.values.length
      if back.rest.isEmpty then
        ofGroups? (front.values ++ List.replicate gap 0 ++ back.values)
      else none
    | _ => none

/-! ## 3. Addresses typed by a person -/

/-- **Why a text is no address**: it names none, and this is the text. -/
structure Unreadable where
  text : String
  deriving DecidableEq, Repr

/-- The report of an unreadable address. -/
def Unreadable.message (e : Unreadable) : String :=
  "Invalid mesh address: " ++ e.text

/-- **The address in a text**, white space around it left aside. -/
def ofText (text : String) : Except Unreadable Address :=
  match read? (trimmed text.toList) with
  | some a => .ok a
  | none => .error ⟨text⟩

end FlowExport.Address

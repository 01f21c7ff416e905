/-
# Unquoted scalars of TOML documents

Truth values, numbers and dates are written without quotes and made of a few characters only, so
the whole run of such characters is taken first and then read as one scalar or refused.  Only a
date may be followed by a space and a time.

Integers are signed 64-bit numbers: decimal without leading zeros, or hexadecimal, octal or
binary without a sign.  In all of them, and in fractions, an underscore may stand between two
digits.  A positive fraction beyond the range of double precision is refused.
-/
import FlowExport.Document
import FlowExport.Toml.Blank

namespace FlowExport.Toml

open FlowExport.Text

/-! ## 1. Integers -/

/-- Digits with single underscores between them, without the underscores. -/
def grouped? (isDigit : Char → Bool) : List Char → Option (List Char)
  | [] => none
  | [c] => if isDigit c then some [c] else none
  | c :: '_' :: cs => if isDigit c then (grouped? isDigit cs).map (c :: ·) else none
  | c :: cs => if isDigit c then (grouped? isDigit cs).map (c :: ·) else none

/-- The number that grouped digits of a radix spell. -/
def digitsOf? (radix : Nat) (cs : List Char) : Option Nat := do
  let digits ← grouped? (fun c => (hexDigit? c).any (· < radix)) cs
  return spelled radix (digits.filterMap hexDigit?)

/-- Decimal digits without leading zeros, underscores removed. -/
def decimal? (cs : List Char) : Option (List Char) := do
  let digits ← grouped? (fun c => (digit? c).isSome) cs
  if digits.head? == some '0' && 1 < digits.length then none else some digits

/-- Whether a text starts with a minus, and the text without its sign. -/
def signed : List Char → Bool × List Char
  | '-' :: cs => (true, cs)
  | '+' :: cs => (false, cs)
  | cs => (false, cs)

/-- **An integer.** -/
def integer? (cs : List Char) : Option Int :=
  match cs with
  | '0' :: 'x' :: cs => (digitsOf? 16 cs).bind bounded
  | '0' :: 'o' :: cs => (digitsOf? 8 cs).bind bounded
  | '0' :: 'b' :: cs => (digitsOf? 2 cs).bind bounded
  | cs => do
    let (negative, cs) := signed cs
    let number := spelled 10 ((← decimal? cs).filterMap digit?)
    if negative then (if number ≤ 1 <<< 63 then some (-number) else none) else bounded number
where
  /-- A number without a sign, if it is within range. -/
  bounded (number : Nat) : Option Int :=
    if number < 1 <<< 63 then some number else none

/-! ## 2. Fractions -/

/-- A digit or an underscore. -/
def isGroupChar (c : Char) : Bool :=
  c == '_' || (digit? c).isSome

/-- **Whether `digits · 10 ^ exponent` rounds to infinity** in double precision: it lies at least
half a step above the largest finite number. -/
def exceedsDouble (digits : List Char) (exponent : Int) : Bool :=
  let number := spelled 10 (digits.filterMap digit?)
  let places : Int := (Nat.toDigits 10 number).length + exponent
  let bound := (1 <<< 1024) - (1 <<< 970)
  if number = 0 || places < 309 then false
  else if 310 ≤ places then true
  else if 0 ≤ exponent then bound ≤ number * Nat.pow 10 exponent.toNat
  else bound * Nat.pow 10 (-exponent).toNat ≤ number

/-- The value of an exponent, after its letter. -/
def exponent? (cs : List Char) : Option Int := do
  let (negative, cs) := signed cs
  let number := spelled 10 ((← grouped? (fun c => (digit? c).isSome) cs).filterMap digit?)
  return if negative then -number else number

/-- The decimals after a point and the value of the exponent behind them. -/
def tail? : List Char → Option (List Char × Int)
  | '.' :: cs => do
    let decimals ← grouped? (fun c => (digit? c).isSome) (cs.takeWhile isGroupChar)
    match cs.dropWhile isGroupChar with
    | [] => some (decimals, 0)
    | c :: cs => if c = 'e' || c = 'E' then return (decimals, ← exponent? cs) else none
  | c :: cs => if c = 'e' || c = 'E' then return ([], ← exponent? cs) else none
  | [] => none

/-- **Whether a text is a fraction**: digits with decimals or an exponent or both, or one of the
names of infinity and of no number. -/
def isFraction (cs : List Char) : Bool :=
  let (negative, cs) := signed cs
  cs == ['i', 'n', 'f'] || cs == ['n', 'a', 'n'] ||
    match decimal? (cs.takeWhile isGroupChar), tail? (cs.dropWhile isGroupChar) with
    | some digits, some (decimals, exponent) =>
      negative || !exceedsDouble (digits ++ decimals) (exponent - decimals.length)
    | _, _ => false

/-! ## 3. Dates and times -/

/-- The number that decimal digits spell, if all are. -/
def plain? (cs : List Char) : Option Nat :=
  (cs.mapM digit?).map (spelled 10)

/-- Two digits of at least `low` and at most `high`. -/
def isPair (low high : Nat) (a b : Char) : Bool :=
  (plain? [a, b]).any fun n => low ≤ n && n ≤ high

/-- The days of a month. -/
def daysIn (year month : Nat) : Nat :=
  if month = 2 then
    if year % 4 = 0 && (year % 100 ≠ 0 || year % 400 = 0) then 29 else 28
  else if month = 4 || month = 6 || month = 9 || month = 11 then 30
  else 31

/-- **A calendar date**, `YYYY-MM-DD`. -/
def isDate : List Char → Bool
  | [y₃, y₂, y₁, y₀, '-', m₁, m₀, '-', d₁, d₀] =>
    match plain? [y₃, y₂, y₁, y₀], plain? [m₁, m₀] with
    | some year, some month => isPair 1 12 m₁ m₀ && isPair 1 (daysIn year month) d₁ d₀
    | _, _ => false
  | _ => false

/-- The fraction of a second: a point and digits. -/
def isSecondFraction : List Char → Bool
  | '.' :: cs => !cs.isEmpty && (plain? cs).isSome
  | cs => cs.isEmpty

/-- **A time of day**, `HH:MM:SS` with an optional fraction; a leap second counts. -/
def isTime : List Char → Bool
  | h₁ :: h₀ :: ':' :: m₁ :: m₀ :: ':' :: s₁ :: s₀ :: cs =>
    isPair 0 23 h₁ h₀ && isPair 0 59 m₁ m₀ && isPair 0 60 s₁ s₀ && isSecondFraction cs
  | _ => false

/-- The offset from universal time. -/
def isOffset : List Char → Bool
  | [c] => c == 'Z' || c == 'z'
  | [sign, h₁, h₀, ':', m₁, m₀] =>
    (sign == '+' || sign == '-') && isPair 0 23 h₁ h₀ && isPair 0 59 m₁ m₀
  | _ => false

/-- A time of day with an optional offset. -/
def isTimeWithOffset (cs : List Char) : Bool :=
  let clock := cs.takeWhile fun c => (digit? c).isSome || c == ':' || c == '.'
  let offset := cs.drop clock.length
  isTime clock && (offset.isEmpty || isOffset offset)

/-- **A date, a time, or a date with a time.** -/
def isMoment (cs : List Char) : Bool :=
  isDate cs || isTime cs ||
    match cs.drop 10 with
    | c :: time => (c == 'T' || c == 't') && isDate (cs.take 10) && isTimeWithOffset time
    | [] => false

/-! ## 4. Scalars -/

/-- A character of an unquoted scalar. -/
def isScalarChar (c : Char) : Bool :=
  c.isAlphanum || c == '_' || c == '+' || c == '-' || c == '.' || c == ':'

/-- **The scalar that a run of characters spells.** -/
def scalarOf? (cs : List Char) : Option Document :=
  if cs == "true".toList then some (.boolean true)
  else if cs == "false".toList then some (.boolean false)
  else if isMoment cs then some .moment
  else if isFraction cs then some .fraction
  else (integer? cs).map .integer

/-- **An unquoted scalar.** -/
def scalar : Reader Document := fun cs =>
  let run := cs.takeWhile isScalarChar
  let rest := cs.drop run.length
  let time := (rest.drop 1).takeWhile isScalarChar
  if isDate run && rest.head? == some ' ' && isTimeWithOffset time then
    some (.moment, rest.drop (1 + time.length))
  else (scalarOf? run).map (·, rest)

end FlowExport.Toml

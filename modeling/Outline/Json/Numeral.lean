import Outline.Number.Count
import Outline.Number.Double
import Outline.Text.Basic

/-!
# Numerals

A JSON number is kept as it is written, since its form decides what it may stand for: a count is
written with digits alone, while any numeral can stand for a float.

* `Numeral`, `Numeral.read?`: the parts of a numeral, and reading one.
* `Numeral.count?`: the numeral as a count of 64 bits.
* `Numeral.single?`: the numeral as a 32-bit float.
-/

namespace Outline

/-- A number as it is written. -/
structure Numeral where
  negative : Bool
  /-- The digits before the point. -/
  whole : Text
  /-- The digits after the point. -/
  fraction : Option Text
  /-- Whether the exponent is negative, and its digits. -/
  exponent : Option (Bool × Text)
  deriving DecidableEq, Repr

namespace Numeral

/-! ## Reading -/

/-- One digit or more, and the rest. -/
def digits? (t : Text) : Option (Text × Text) :=
  match t.takeWhile Char.isDigit with
  | [] => none
  | ds => some (ds, t.dropWhile Char.isDigit)

/-- The digits before the point: no nought comes before another digit. -/
def whole? (t : Text) : Option (Text × Text) := do
  let (ds, rest) ← digits? t
  if ds.head? = some '0' && 1 < ds.length then none else some (ds, rest)

/-- The digits after a point, if there is a point. -/
def fraction? : Text → Option (Option Text × Text)
  | '.' :: t => (digits? t).map fun (ds, rest) => (some ds, rest)
  | t => some (none, t)

/-- The sign of an exponent: whether it is negative. -/
def exponentSign : Text → Bool × Text
  | '+' :: t => (false, t)
  | '-' :: t => (true, t)
  | t => (false, t)

/-- The exponent after its letter, if there is one. -/
def exponent? : Text → Option (Option (Bool × Text) × Text)
  | c :: t =>
    if c = 'e' ∨ c = 'E' then
      let (negative, t) := exponentSign t
      (digits? t).map fun (ds, rest) => (some (negative, ds), rest)
    else some (none, c :: t)
  | [] => some (none, [])

/-- The parts after the sign. -/
def unsigned? (negative : Bool) (t : Text) : Option (Numeral × Text) := do
  let (whole, t) ← whole? t
  let (fraction, t) ← fraction? t
  let (exponent, t) ← exponent? t
  return (⟨negative, whole, fraction, exponent⟩, t)

/-- The numeral that a text begins with, and the rest. -/
def read? : Text → Option (Numeral × Text)
  | '-' :: t => unsigned? true t
  | t => unsigned? false t

/-! ## Values -/

/-- The value of a digit. -/
def digitValue (c : Char) : Nat := c.toNat - '0'.toNat

/-- The number that digits stand for. -/
def value (digits : Text) : Nat := digits.foldl (fun n c => 10 * n + digitValue c) 0

/-- Whether there are only digits, perhaps after a sign. -/
def isWhole (n : Numeral) : Bool := n.fraction.isNone && n.exponent.isNone

/-- The count that a numeral stands for. -/
def count? (n : Numeral) : Option Nat :=
  if !n.negative && n.isWhole && value n.whole < countLimit then some (value n.whole) else none

/-- A significand with further digits, as long as it stays below the limit of counts, and how many
digits it took. -/
def gather (significand : Nat) : Text → Nat × Nat
  | [] => (significand, 0)
  | c :: cs =>
    let next := 10 * significand + digitValue c
    if next < countLimit then
      let (total, taken) := gather next cs
      (total, taken + 1)
    else (significand, 0)

/-- The exponent that is written. -/
def writtenExponent (n : Numeral) : Int :=
  match n.exponent with
  | none => 0
  | some (true, ds) => -(value ds : Int)
  | some (false, ds) => value ds

/-- The significand and the power of ten.  Digits that the significand has no room for only move
the point. -/
def scientific (n : Numeral) : Nat × Int :=
  let (whole, taken) := gather 0 n.whole
  let (significand, places) := gather whole (n.fraction.getD [])
  (significand, (n.whole.length - taken : Nat) - places + n.writtenExponent)

/-- The greatest magnitude of a whole number that is rounded to 32 bits in one step. -/
def directLimit (negative : Bool) : Nat := if negative then 0x8000000000000000 else countLimit - 1

/-- The 32-bit float that a numeral stands for.  Whole numbers of a word are rounded in one step,
all others by way of 64 bits; none when those do not reach. -/
def single? (n : Numeral) : Option Single :=
  if n.isWhole && value n.whole ≤ directLimit n.negative then
    some { Single.ofNat (value n.whole) with negative := n.negative }
  else
    let (significand, exponent) := n.scientific
    (Double.ofScientific? significand exponent).map (Double.narrowed n.negative)

end Numeral

end Outline

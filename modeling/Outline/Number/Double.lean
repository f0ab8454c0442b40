import Outline.Number.Decimal

/-!
# 64-bit values

Averages are quotients of whole numbers, rounded to 64-bit floats, and a decimal in a settings
file is read as a 64-bit float before it is narrowed.  Signs are kept apart, so a value is a count
of units of `2 ^ -1074`.

* `Double.ofNat`, `Double.mul`, `Double.div`: rounded arithmetic.
* `Double.ofScientific?`: a significand with a power of ten.
* `Double.narrowed`: the nearest 32-bit value.
* `Double.written`: the value in a report.
-/

namespace Outline

/-- A 64-bit float that is not negative, as a count of units of `2 ^ -1074`. -/
structure Double where
  units : Nat
  deriving DecidableEq, Repr, Inhabited

namespace Double

/-- A whole number. -/
def ofNat (n : Nat) : Double := ⟨Format.double.units n 1⟩

/-- The product of two values. -/
def mul (x y : Double) : Double :=
  ⟨Format.double.units (x.units * y.units) (Nat.pow 2 (2 * Format.double.scale))⟩

/-- The quotient of two values. -/
def div (x y : Double) : Double := ⟨Format.double.units x.units y.units⟩

def zero : Double := ⟨0⟩

/-- Whether the value is in the finite range. -/
def isFinite (x : Double) : Bool := x.units < Nat.pow 2 Format.double.limit

/-- The average of so many numbers with the given sum; nought if there are none. -/
def average (sum count : Nat) : Double := if count = 0 then zero else (ofNat sum).div (ofNat count)

/-! ## Powers of ten -/

/-- The largest power of ten in the format has this exponent. -/
def largestPower : Nat := 308

/-- A power of ten. -/
def powerOfTen (exponent : Nat) : Double := ofNat (Nat.pow 10 exponent)

/-- The value with the point moved to the right; none when that leaves the finite range. -/
def raised? (x : Double) (places : Nat) : Option Double :=
  if places ≤ largestPower then
    let product := x.mul (powerOfTen places)
    if product.isFinite then some product else none
  else if x = zero then some zero
  else none

/-- The value with the point moved to the left, by at most the largest power of ten at a time. -/
def lowered (x : Double) (places : Nat) : Double :=
  if places ≤ largestPower then x.div (powerOfTen places)
  else if x = zero then zero
  else lowered (x.div (powerOfTen largestPower)) (places - largestPower)
termination_by places
decreasing_by simp only [largestPower] at *; omega

/-- A significand with a power of ten, rounded after each step; none when it leaves the finite
range. -/
def ofScientific? (significand : Nat) : Int → Option Double
  | .ofNat e => (ofNat significand).raised? e
  | .negSucc e => some ((ofNat significand).lowered (e + 1))

/-! ## Other forms -/

/-- The nearest 32-bit value, with a sign. -/
def narrowed (negative : Bool) (x : Double) : Single :=
  ⟨negative, Format.single.units x.units (Nat.pow 2 Format.double.scale)⟩

/-- The value in a report. -/
def written (x : Double) : String :=
  (Decimal.shortest Format.double x.units).written Positions.double

end Double

end Outline

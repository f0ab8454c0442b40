import Outline.Number.Rounding

/-!
# 32-bit floating values

Confidences and strengths are 32-bit floats.  Every finite one is a whole number of units of
`2 ^ -149`, so a value is kept as a sign and such a count, and the order of values is the order
of integers.  The infinite magnitude is the first count that is out of range.  No operation of
this library produces a value that is not a number, so there is none.

* `Single.value`: the signed count of units, which orders the values.
* `Single.ofRatio`, `Single.ofNat`: rounding into the format.
* `Single.div`, `Single.add`: rounded arithmetic on values that are not negative.
* `Single.clamp`, `Single.lesser`: the choices made between given values.
-/

namespace Outline

/-- A 32-bit float, as a sign and a count of units of `2 ^ -149`. -/
structure Single where
  negative : Bool
  units : Nat
  deriving DecidableEq, Repr, Inhabited

namespace Single

/-- The signed number of units.  Both zeros have the value `0`. -/
def value (x : Single) : Int :=
  if x.negative then -(x.units : Int) else x.units

/-- Whether the value is in the finite range. -/
def isFinite (x : Single) : Bool :=
  x.units < Nat.pow 2 Format.single.limit

instance : LE Single := ⟨fun x y => x.value ≤ y.value⟩
instance : LT Single := ⟨fun x y => x.value < y.value⟩

instance (x y : Single) : Decidable (x ≤ y) :=
  inferInstanceAs (Decidable (x.value ≤ y.value))

instance (x y : Single) : Decidable (x < y) :=
  inferInstanceAs (Decidable (x.value < y.value))

/-- Equality of values: the two zeros are equal. -/
def same (x y : Single) : Bool := x.value == y.value

/-- The quotient of two whole numbers. -/
def ofRatio (num den : Nat) : Single :=
  ⟨false, Format.single.units num den⟩

/-- A whole number. -/
def ofNat (n : Nat) : Single := ofRatio n 1

/-- `n` hundredths. -/
def percent (n : Nat) : Single := ofRatio n 100

def zero : Single := ⟨false, 0⟩
def one : Single := ofNat 1

/-- The quotient of two values that are not negative. -/
def div (x y : Single) : Single := ofRatio x.units y.units

/-- The sum of two values that are not negative. -/
def add (x y : Single) : Single :=
  ofRatio (x.units + y.units) (Nat.pow 2 Format.single.scale)

/-- `x` moved into the range from `lo` to `hi`. -/
def clamp (lo hi x : Single) : Single :=
  if x < lo then lo else if hi < x then hi else x

/-- The smaller of two values, the first one when they are equal. -/
def lesser (x y : Single) : Single :=
  if x ≤ y then x else y

/-- Whether the value lies between `0` and `1`. -/
def inUnitRange (x : Single) : Bool :=
  zero ≤ x && x ≤ one

end Single

end Outline

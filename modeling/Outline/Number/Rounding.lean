/-!
# Rounding a quotient to a binary format

A binary floating format holds the whole multiples of a smallest unit `2 ^ -scale` whose
leading `precision` bits carry all the information.  Rounding therefore needs nothing but
`Nat` division: count the units in the quotient, look how many bits that count has, and round
the count to a multiple of the power of two that is too fine to be kept.

* `halfEven`: the nearest whole number to a quotient, a tie going to the even neighbour.
* `Format`: precision, scale and the first magnitude that is out of range.
* `Format.units`: the rounded magnitude of a quotient, counted in smallest units.
-/

namespace Outline

/-- The whole number nearest to `num / den`; of two nearest the even one. -/
def halfEven (num den : Nat) : Nat :=
  let q := num / den
  let r := num % den
  if 2 * r < den then q
  else if den < 2 * r then q + 1
  else q + q % 2

/-- A binary floating format. -/
structure Format where
  /-- Significant bits of a value. -/
  precision : Nat
  /-- The smallest unit is `2 ^ -scale`. -/
  scale : Nat
  /-- Values of `2 ^ limit` units and more are infinite. -/
  limit : Nat

namespace Format

/-- The 32-bit format: 24 bits, units of `2 ^ -149`, infinite from `2 ^ 128` on. -/
def single : Format := ⟨24, 149, 277⟩

/-- The 64-bit format: 53 bits, units of `2 ^ -1074`, infinite from `2 ^ 1024` on. -/
def double : Format := ⟨53, 1074, 2098⟩

/-- `num / den` rounded to the format, counted in smallest units.  The step is the power of two
below which the quotient has no room for its last bits; a quotient that small that it has room
for all of them is rounded to a whole number of units. -/
def units (f : Format) (num den : Nat) : Nat :=
  let scaled := num * Nat.pow 2 f.scale
  let step := Nat.pow 2 ((scaled / den).log2 + 1 - f.precision)
  min (halfEven scaled (den * step) * step) (Nat.pow 2 f.limit)

end Format

end Outline

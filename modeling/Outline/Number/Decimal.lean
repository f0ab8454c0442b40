import Outline.Number.Single

/-!
# The fewest digits that read back

A binary value is written with the fewest decimal digits that still round to it, and of those
the nearest.  The reals that round to a value form an interval around it; on the grid of
decimals with one digit, two digits and so on, the two grid points next to the value are tried
until one of them lies in that interval.

* `Decimal.shortest`: the digits.
* `Decimal.positional`: the digits written without an exponent.
* `Positions`, `Decimal.written`: the digits written with a point kept, and with an exponent
  outside a stated range.
-/

namespace Outline

/-- The number `digits · 10 ^ exponent`. -/
structure Decimal where
  digits : Nat
  exponent : Int
  deriving DecidableEq, Repr, Inhabited

namespace Decimal

/-- How often `den` has to be multiplied by ten to exceed `num`. -/
def powersBelow (num den : Nat) : Nat → Nat
  | 0 => 0
  | fuel + 1 => if den ≤ num then powersBelow num (den * 10) fuel + 1 else 0

/-- The place of the leading digit of `num / den`: `0` for the units, negative after the point. -/
def leadingPlace (num den : Nat) : Int :=
  if den ≤ num then (powersBelow num den (num.log2 + 1) : Int) - 1
  else -(powersBelow (den - 1) num (den.log2 + 1) : Int)

/-- Drops zeros at the end of the digits. -/
def trimZeros (d : Decimal) : Nat → Decimal
  | 0 => d
  | fuel + 1 =>
    if d.digits ≠ 0 ∧ d.digits % 10 = 0 then trimZeros ⟨d.digits / 10, d.exponent + 1⟩ fuel
    else d

/-- The better of the two decimals with step `10 ^ place` around `num / den`, if one of them lies
between `lo / den` and `hi / den`, whose ends count when `closed`. -/
def onGrid (num lo hi den : Nat) (closed : Bool) (place : Int) : Option Decimal :=
  let up := Nat.pow 10 (-place).toNat
  let down := den * Nat.pow 10 place.toNat
  let below := num * up / down
  let fits (d : Nat) : Bool :=
    let x := d * down
    if closed then lo * up ≤ x && x ≤ hi * up else lo * up < x && x < hi * up
  let nearBelow := 2 * (num * up) ≤ (2 * below + 1) * down
  if fits below && (nearBelow || !fits (below + 1)) then some ⟨below, place⟩
  else if fits (below + 1) then some ⟨below + 1, place⟩
  else none

/-- The first grid, from the coarsest on, with a point in the interval. -/
def firstGrid (num lo hi den : Nat) (closed : Bool) (place : Int) : Nat → Decimal
  | 0 => ⟨0, 0⟩
  | fuel + 1 =>
    match onGrid num lo hi den closed place with
    | some d => d.trimZeros 20
    | none => firstGrid num lo hi den closed (place - 1) fuel

/-- The decimal with the fewest digits that rounds to the given count of units. -/
def shortest (f : Format) (units : Nat) : Decimal :=
  if units = 0 then ⟨0, 0⟩
  else
    let bits := units.log2 + 1
    let step := Nat.pow 2 (bits - f.precision)
    let below := if f.precision < bits && units == Nat.pow 2 (bits - 1) then step else 2 * step
    let num := 4 * units
    let den := 4 * Nat.pow 2 f.scale
    firstGrid num (num - below) (num + 2 * step) den (units / step % 2 == 0)
      (leadingPlace num den) 18

def zeros (n : Nat) : String := String.ofList (List.replicate n '0')

/-- The decimal digits of a whole number. -/
def ofWhole (n : Nat) : String := String.ofList (Nat.toDigits 10 n)

/-- The digits with a point after the first `n` of them. -/
def withPoint (digits : String) (n : Nat) : String :=
  String.ofList (digits.toList.take n) ++ "." ++ String.ofList (digits.toList.drop n)

/-- Written without an exponent; a whole number has no point. -/
def positional (d : Decimal) : String :=
  let text := ofWhole d.digits
  let point : Int := text.length + d.exponent
  if 0 ≤ d.exponent then text ++ zeros d.exponent.toNat
  else if 0 < point then withPoint text point.toNat
  else "0." ++ zeros (-point).toNat ++ text

end Decimal

/-- The places between which a number is written without an exponent. -/
structure Positions where
  /-- The point may stand this many places before the first digit, less one. -/
  low : Int
  /-- The point may stand at most this many places after the first digit. -/
  high : Int

namespace Positions

/-- Positional from a millionth up to ten million millions. -/
def single : Positions := ⟨-6, 13⟩

/-- Positional from a hundred-thousandth up to ten thousand million millions. -/
def double : Positions := ⟨-5, 16⟩

end Positions

namespace Decimal

/-- Written with a point when positional, and with an exponent otherwise. -/
def written (p : Positions) (d : Decimal) : String :=
  let text := ofWhole d.digits
  let point : Int := text.length + d.exponent
  if d.digits = 0 then "0.0"
  else if 0 ≤ d.exponent && point ≤ p.high then text ++ zeros d.exponent.toNat ++ ".0"
  else if 0 < point && point ≤ p.high then withPoint text point.toNat
  else if p.low < point && point ≤ 0 then "0." ++ zeros (-point).toNat ++ text
  else
    let mantissa := if text.length = 1 then text else withPoint text 1
    let power := point - 1
    mantissa ++ "e" ++ (if power < 0 then "-" else "") ++ ofWhole power.natAbs

end Decimal

namespace Single

/-- The value in a message: positional, with the fewest digits. -/
def text (x : Single) : String :=
  (if x.negative then "-" else "") ++
    if x.isFinite then (Decimal.shortest Format.single x.units).positional else "inf"

/-- The value in a settings file or a report. -/
def written (x : Single) : String :=
  (if x.negative then "-" else "") ++
    (Decimal.shortest Format.single x.units).written Positions.single

end Single

end Outline

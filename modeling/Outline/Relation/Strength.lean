import Outline.Number.Single
import Outline.Structure.Location

/-!
# Strength of containment

A contained structure matters the more, the more of its parent it fills or the nearer it is to
the start of its parent.  All strengths lie between a tenth and one.

* `StrengthStrategy`, `StrengthStrategy.strength`.
-/

namespace Outline

/-- How the strength of containment is found. -/
inductive StrengthStrategy where
  /-- The lines of the child in proportion to those of the parent. -/
  | sizeRatio
  /-- Less with the distance between the first lines. -/
  | distanceDecay
  deriving DecidableEq, Repr, Inhabited

namespace StrengthStrategy

/-- The written name. -/
def name : StrengthStrategy → String
  | .sizeRatio => "size_ratio"
  | .distanceDecay => "distance_decay"

/-- The strategy with a written name. -/
def ofName? (s : String) : Option StrengthStrategy :=
  [sizeRatio, distanceDecay].find? fun k => k.name == s

/-- The least strength. -/
def least : Single := Single.ofRatio 1 10

/-- The strength before it is moved into its range; every step is rounded. -/
def raw (s : StrengthStrategy) (parent child : Location) : Single :=
  match s with
  | .sizeRatio => (Single.ofNat child.lineCount).div (Single.ofNat parent.lineCount)
  | .distanceDecay =>
    let distance := Single.ofNat (max child.start parent.start - min child.start parent.start)
    Single.one.div (Single.one.add (distance.div (Single.ofNat 10)))

/-- The strength with which a parent contains a child. -/
def strength (s : StrengthStrategy) (parent child : Location) : Single :=
  Single.clamp least Single.one (s.raw parent child)

end StrengthStrategy

end Outline

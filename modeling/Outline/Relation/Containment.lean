import Outline.Number.Count
import Outline.Relation.Basic
import Outline.Relation.Strength

/-!
# Containment

One structure contains another when its span encloses the other's.  Of two structures with the
same span the earlier one contains the later one.

* `Span`, `spanOf`: from the first to the last place of a structure.
* `containment`: all pairs.
-/

namespace Outline

/-- The places between which a structure lies. -/
structure Span where
  start : Point
  stop : Point
  deriving DecidableEq, Repr

/-- A column behind every other one. -/
def lastColumn : Nat := countLimit - 1

/-- The span of the node of a structure, or else all of its lines. -/
def spanOf (tree : Option SyntaxTree) (s : Ref) : Span :=
  let node? := do
    let t ← tree
    let id ← s.node
    t.get? id
  match node? with
  | some n => ⟨n.start, n.stop⟩
  | none => ⟨⟨s.location.start - 1, 0⟩, ⟨s.location.stop - 1, lastColumn⟩⟩

/-- Whether a span lies inside another one. -/
def Span.encloses (outer inner : Span) : Bool :=
  outer.start ≤ inner.start && inner.stop ≤ outer.stop

/-- Whether the structure at position `i` with span `outer` contains the one at `j`. -/
def holdsAt (outer inner : Span) (i j : Nat) : Bool :=
  i != j && outer.encloses inner && (outer != inner || i < j)

/-- All pairs of a structure and one that it contains. -/
def containment (strategy : StrengthStrategy) (structures : List Ref)
    (tree : Option SyntaxTree) : List Edge :=
  let spans := (structures.map fun s => (s, spanOf tree s)).zipIdx
  spans.flatMap fun ((parent, outer), i) =>
    (spans.filter fun ((_, inner), j) => holdsAt outer inner i j).map
      fun ((child, _), _) =>
        ⟨parent, child, .containment, strategy.strength parent.location child.location⟩

end Outline

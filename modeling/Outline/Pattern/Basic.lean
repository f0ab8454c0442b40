import Outline.Text.Basic

/-!
# Patterns

A pattern describes a piece of text.  Where it matches in several ways the choice is fixed by
order: the left alternative comes before the right one, one more round of a greedy repetition
before none, none before one more round of a reluctant repetition.  The matcher tries the ways
in that order and hands each to the rest of the pattern, so the first way that lets everything
succeed is taken.

## The matcher

`Pattern.run` turns a pattern into a function on continuations: given what is to come after it,
it answers where the whole ends.  It recurses on the pattern; a repetition runs the matcher of
its body at most as often as the text has characters, since a round that consumes nothing is
refused.

* `Attempt`: a place in the text together with the groups captured on the way.
* `Anchor.holds`: conditions on a place.
* `Pattern.run`: the matcher.
-/

namespace Outline

/-- A place in a text, with what was captured on the way to it. -/
structure Attempt where
  /-- The character just before the place. -/
  before : Option Char
  /-- The text from the place on. -/
  rest : Text
  /-- The number of characters before the place. -/
  index : Nat
  /-- Captured groups with their first and last places, the latest first. -/
  groups : List (Nat × Nat × Nat)
  deriving DecidableEq, Repr

namespace Attempt

/-- One character on. -/
def advance (a : Attempt) (c : Char) (cs : Text) : Attempt :=
  { a with before := some c, rest := cs, index := a.index + 1 }

/-- Group `n` was captured from `start` to this place. -/
def record (a : Attempt) (n start : Nat) : Attempt :=
  { a with groups := (n, start, a.index) :: a.groups }

end Attempt

/-- A condition on a place that consumes nothing. -/
inductive Anchor where
  /-- The start of the text. -/
  | textStart
  /-- The end of the text. -/
  | textEnd
  /-- The start of the text, or just after a line feed. -/
  | lineStart
  /-- The end of the text, or just before a line feed. -/
  | lineEnd
  /-- A line start where a carriage return, alone or with a line feed, also ends a line. -/
  | rowStart
  /-- A line end where a carriage return, alone or with a line feed, also ends a line. -/
  | rowEnd
  /-- A word character on exactly one side. -/
  | boundary
  deriving DecidableEq, Repr

namespace Anchor

/-- Whether the condition holds at a place. -/
def holds : Anchor → Attempt → Bool
  | .textStart, a => a.before.isNone
  | .textEnd, a => a.rest.isEmpty
  | .lineStart, a => a.before.isNone || a.before == some '\n'
  | .lineEnd, a => a.rest.isEmpty || a.rest.head? == some '\n'
  | .rowStart, a =>
    a.before.isNone || a.before == some '\n' ||
      (a.before == some '\r' && a.rest.head? != some '\n')
  | .rowEnd, a =>
    a.rest.isEmpty || a.rest.head? == some '\r' ||
      (a.rest.head? == some '\n' && a.before != some '\r')
  | .boundary, a => a.before.any isWord != a.rest.head?.any isWord

end Anchor

/-- A description of a piece of text. -/
inductive Pattern where
  /-- Nothing. -/
  | empty
  /-- One character of a class. -/
  | char (accepts : Char → Bool)
  /-- A condition on the place. -/
  | anchor (condition : Anchor)
  /-- One after the other. -/
  | seq (first second : Pattern)
  /-- One or else the other. -/
  | alt (first second : Pattern)
  /-- Any number of rounds; the most rounds first when `greedy`, the fewest first otherwise. -/
  | star (greedy : Bool) (body : Pattern)
  /-- Remembered as the group with a number. -/
  | group (number : Nat) (body : Pattern)

/-- A matcher: from what is to come after and a place, the place where all ends. -/
abbrev Matcher := (Attempt → Option Attempt) → Attempt → Option Attempt

namespace Matcher

/-- Up to `n` rounds that each consume something, the most first. -/
def most (m : Matcher) : Nat → Matcher
  | 0, k, a => k a
  | n + 1, k, a =>
    (m (fun b => if b.index = a.index then none else most m n k b) a).orElse fun _ => k a

/-- Up to `n` rounds that each consume something, the fewest first. -/
def fewest (m : Matcher) : Nat → Matcher
  | 0, k, a => k a
  | n + 1, k, a =>
    (k a).orElse fun _ => m (fun b => if b.index = a.index then none else fewest m n k b) a

end Matcher

namespace Pattern

/-- The matcher of a pattern in a text of `limit` characters. -/
def run (limit : Nat) : Pattern → Matcher
  | .empty, k, a => k a
  | .char accepts, k, a =>
    match a.rest with
    | [] => none
    | c :: cs => if accepts c then k (a.advance c cs) else none
  | .anchor condition, k, a => if condition.holds a then k a else none
  | .seq p q, k, a => p.run limit (q.run limit k) a
  | .alt p q, k, a => (p.run limit k a).orElse fun _ => q.run limit k a
  | .star true p, k, a => Matcher.most (p.run limit) limit k a
  | .star false p, k, a => Matcher.fewest (p.run limit) limit k a
  | .group n p, k, a => p.run limit (fun b => k (b.record n a.index)) a

/-- The largest group number. -/
def groupCount : Pattern → Nat
  | .empty | .char _ | .anchor _ => 0
  | .seq p q | .alt p q => max p.groupCount q.groupCount
  | .star _ p => p.groupCount
  | .group n p => max n p.groupCount

end Pattern

end Outline

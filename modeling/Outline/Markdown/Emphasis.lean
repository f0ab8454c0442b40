import Outline.Text.Char
import Outline.Text.Basic

/-!
# Emphasis

Runs of `*`, `_` and `~` may open or close emphasis, depending on the characters around them.
Marks that find a partner vanish from the text; the others stay in it.

* `Run`, `Run.ofContext`: a run of marks and what it may do.
* `Span`: a piece of text or a run.
* `Emphasis.resolve`: the text that is left when all runs have been paired.
-/

namespace Outline.Markdown

/-- A run of one mark. -/
structure Run where
  mark : Char
  length : Nat
  opens : Bool
  closes : Bool
  deriving DecidableEq, Repr

namespace Run

def isMark (c : Char) : Bool := c == '*' || c == '_' || c == '~'

/-- Marks that may stand inside a word. -/
def insideWords (mark : Char) (length : Nat) : Bool :=
  mark == '*' || (mark == '~' && 1 < length)

/-- Whether a run may open emphasis: something has to follow that is not blank, and either the
mark may stand inside words and no punctuation follows, or a blank or punctuation stands
before it. -/
def canOpen (mark : Char) (length : Nat) (before after : Option Char) : Bool :=
  match after, before with
  | none, _ => false
  | some a, none => !isSpace a
  | some a, some b =>
    !isSpace a && ((insideWords mark length && !isPunctuation a) || isSpace b || isPunctuation b)

/-- Whether a run may close emphasis: the mirror image. -/
def canClose (mark : Char) (length : Nat) (before after : Option Char) : Bool :=
  match before, after with
  | none, _ => false
  | some b, none => !isSpace b
  | some b, some a =>
    !isSpace b && ((insideWords mark length && !isPunctuation b) || isSpace a || isPunctuation a)

/-- A run between two characters, if it can do anything. -/
def ofContext? (mark : Char) (length : Nat) (before after : Option Char) : Option Run :=
  let run : Run :=
    ⟨mark, length, canOpen mark length before after, canClose mark length before after⟩
  if (run.opens || run.closes) && (mark != '~' || length ≤ 2) then some run else none

/-- Whether a closing run may be paired with an opening one: the rule of three keeps runs that can
do both from being torn apart, and strikes pair only with their own length. -/
def pairs (opening closing : Run) : Bool :=
  opening.mark == closing.mark &&
    (closing.mark != '~' || opening.length == closing.length) &&
    ((!(opening.opens && opening.closes) && !(closing.opens && closing.closes)) ||
      (opening.length + closing.length) % 3 != 0 ||
      (opening.length % 3 == 0 && closing.length % 3 == 0))

end Run

/-- A piece of the content of a block. -/
inductive Span where
  | text (t : Text)
  | run (r : Run)
  deriving DecidableEq, Repr

namespace Emphasis

/-- A run that waits for a partner: the marks it still has, and the text between the opening run
before it and itself. -/
structure Opener where
  run : Run
  left : Nat
  before : Text
  deriving Repr

namespace Opener

/-- The text of an opener that found no partner for the marks it has left. -/
def text (o : Opener) : Text := o.before ++ List.replicate o.left o.run.mark

end Opener

/-- Waiting runs, the last one first, with the text after the last one. -/
structure State where
  openers : List Opener := []
  tail : Text := []

namespace State

/-- Adds text. -/
def write (s : State) (t : Text) : State := { s with tail := s.tail ++ t }

/-- The last waiting run that pairs with a closing one: the runs behind it, which become text,
then itself and the runs before it. -/
def partner? (closing : Run) : List Opener → Text → Option (Text × Opener × List Opener)
  | [], _ => none
  | o :: os, behind =>
    if o.run.pairs closing then some (behind, o, os)
    else partner? closing os (o.text ++ behind)

/-- Pairs the marks of a closing run as long as there are partners; answers also how many marks
are left.  Each round uses up a waiting run or all the marks. -/
def close (closing : Run) : Nat → State → Nat → State × Nat
  | 0, s, left => (s, left)
  | fuel + 1, s, left =>
    if left = 0 then (s, 0)
    else match partner? closing s.openers s.tail with
      | none => (s, left)
      | some (behind, o, os) =>
        let used := min left o.left
        if used < o.left then
          close closing fuel ⟨{ o with left := o.left - used } :: os, behind⟩ (left - used)
        else close closing fuel ⟨os, o.before ++ behind⟩ (left - used)

/-- One more piece. -/
def step (s : State) : Span → State
  | .text t => s.write t
  | .run r =>
    let (s, left) := if r.closes then s.close r (s.openers.length + 1) r.length else (s, r.length)
    if left = 0 then s
    else if r.opens then ⟨⟨r, left, s.tail⟩ :: s.openers, []⟩
    else s.write (List.replicate left r.mark)

/-- The text, when no more pieces come. -/
def finish (s : State) : Text :=
  s.openers.foldl (fun behind o => o.text ++ behind) s.tail

end State

/-- The text of pieces when all runs have been paired. -/
def resolve (spans : List Span) : Text := (spans.foldl State.step {}).finish

end Emphasis

end Outline.Markdown

import Outline.Number.Count
import Outline.Text.Bytes

/-!
# Lines

A line ends at a line feed, or at a carriage return with a line feed after it; the end of the
text also ends a line, but an empty rest is not a line.  Lines are numbered from one when they
name a place in a file, and from zero when they index a list of lines.

* `Text.lines`: the lines without their ends.
* `Text.lineOfByte`: the number of the line that holds a byte.
* `Text.lineAt`: the number of the line that holds a character.
* `sliceLines`: some of the lines, joined again.
* `indentWidth`, `bracketDelta`: what block ends are found by.
-/

namespace Outline

namespace Text

/-- The lines of a text. -/
def lines : Text → List Text
  | [] => []
  | '\n' :: cs => [] :: lines cs
  | '\r' :: '\n' :: cs => [] :: lines cs
  | c :: cs =>
    match lines cs with
    | [] => [[c]]
    | l :: ls => (c :: l) :: ls

/-- The number of lines. -/
def lineCount (t : Text) : Nat := t.lines.length

/-- The number of the line that holds byte `offset`, counted from one; offsets behind the end
belong to the last line. -/
def lineOfByte (t : Text) (offset : Nat) : Nat := newlinesBefore offset t + 1

/-- The number of the line that holds the character at `index`, counted from one. -/
def lineAt (t : Text) (index : Nat) : Nat := newlines (t.take index) + 1

end Text

/-- Lines `start` to `stop`, counted from zero, joined by line feeds.  At least line `start` is
taken, if there is one. -/
def sliceLines (lines : List Text) (start stop : Nat) : Text :=
  Text.joinLines ((lines.drop start).take (max stop start + 1 - start))

/-- The width of the white space a line begins with; a tab is four wide. -/
def indentWidth (line : Text) : Nat :=
  sumOf ((line.takeWhile isSpace).map fun c => if c = '\t' then 4 else 1)

/-- Brackets opened less brackets closed. -/
def bracketDelta (line : Text) : Int :=
  line.foldl (fun depth c =>
    if c = '(' ∨ c = '[' ∨ c = '\x7b' then depth + 1
    else if c = ')' ∨ c = ']' ∨ c = '\x7d' then depth - 1
    else depth) 0

/-- Whether a line opens more brackets than it closes. -/
def hasUnclosedBracket (line : Text) : Bool := 0 < bracketDelta line

end Outline

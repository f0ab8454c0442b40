import Outline.Text.Basic

/-!
# Line ends and margins

Markdown is read line by line, and what a line means depends on the blanks at its front.  A tab
reaches to the next multiple of four columns; when fewer columns are asked for than a tab is
wide, the rest of the tab stays pending.

* `afterLineEnd?`, `afterBlankLine?`: what follows the end of a line, or a blank line.
* `cutLine`: the rest of a line and what follows it.
* `Margin`: a place near the front of a line, with its column.
-/

namespace Outline.Markdown

/-- Blanks inside a line: space, tab, vertical tab and form feed. -/
def isBlankChar (c : Char) : Bool := c == ' ' || c == '\t' || c == '\x0b' || c == '\x0c'

/-- Blanks and the characters that end lines. -/
def isBlankOrEnd (c : Char) : Bool := isBlankChar c || c == '\n' || c == '\r'

/-- What follows the end of a line, if the line ends here.  The end of the text ends a line. -/
def afterLineEnd? : Text → Option Text
  | [] => some []
  | '\n' :: rest => some rest
  | '\r' :: '\n' :: rest => some rest
  | '\r' :: rest => some rest
  | _ => none

/-- Whether a line ends here. -/
def atLineEnd (t : Text) : Bool := (afterLineEnd? t).isSome

/-- Without blanks at the front. -/
def skipBlanks (t : Text) : Text := t.dropWhile isBlankChar

/-- What follows the line, if the rest of it is blank. -/
def afterBlankLine? (t : Text) : Option Text := afterLineEnd? (skipBlanks t)

/-- Whether the rest of the line is blank. -/
def isBlankLine (t : Text) : Bool := (afterBlankLine? t).isSome

def isLineEndChar (c : Char) : Bool := c == '\n' || c == '\r'

/-- The rest of the line, and what follows its end. -/
def cutLine (t : Text) : Text × Text :=
  let rest := t.dropWhile fun c => !isLineEndChar c
  (t.takeWhile fun c => !isLineEndChar c, (afterLineEnd? rest).getD rest)

/-- What follows the next line feed.  Raw blocks count only line feeds as line ends. -/
def afterLineFeed (t : Text) : Text := (t.dropWhile (· != '\n')).drop 1

/-- The text up to the next line feed. -/
def untilLineFeed (t : Text) : Text := t.takeWhile (· != '\n')

/-- The number of times a character is repeated at the front. -/
def runLength (c : Char) (t : Text) : Nat := (t.takeWhile (· == c)).length

/-- A place near the front of a line. -/
structure Margin where
  rest : Text
  /-- The column of the place. -/
  column : Nat
  /-- Columns of the last tab that were not asked for. -/
  pending : Nat
  deriving Repr

namespace Margin

/-- The front of a line. -/
def start (t : Text) : Margin := ⟨t, 0, 0⟩

/-- Passes over up to `n` columns of spaces and tabs from a place without pending columns. -/
def skipFrom : Nat → Nat → Nat → Text → Margin × Nat
  | 0, column, pending, t => (⟨t, column, pending⟩, 0)
  | n + 1, column, _, ' ' :: t => skipFrom n (column + 1) 0 t
  | n + 1, column, _, '\t' :: t =>
    let width := 4 - column % 4
    skipFrom (n + 1 - width) (column + width) (width - (n + 1)) t
  | n + 1, column, pending, t => (⟨t, column, pending⟩, n + 1)
termination_by _ _ _ t => t.length

/-- Passes over up to `n` columns of spaces and tabs; answers also how many were missing. -/
def skip (m : Margin) (n : Nat) : Margin × Nat :=
  let used := min m.pending n
  skipFrom (n - used) m.column (m.pending - used) m.rest

/-- Passes over `n` characters, which are not blanks. -/
def advance (m : Margin) (n : Nat) : Margin := ⟨m.rest.drop n, m.column + n, m.pending⟩

/-- Passes over the mark of a quotation and one column after it. -/
def quoteMark? (m : Margin) : Option Margin :=
  match m.rest with
  | '>' :: _ => some ((m.advance 1).skip 1).1
  | _ => none

end Margin

end Outline.Markdown

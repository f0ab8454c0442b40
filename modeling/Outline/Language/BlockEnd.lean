import Outline.Language.Basic
import Outline.Pattern.Search
import Outline.Text.Lines

/-!
# Where a construct ends

A pattern finds the first line of a construct; its last line is found by the block style of the
language.  Braces are counted, indentation is compared, `end` lines are matched with the lines
that open a block; where that leads nowhere the construct ends before the next blank line.

All scans work on the lines from the first line of the construct on and answer with indices into
the whole list of lines.

* `braceBlockEnd?`, `indentationBlockEnd`, `endKeywordBlockEnd?`, `blankLineEnd`: the scans.
* `blockEnd`: the last line of a construct, for each block style.
-/

namespace Outline

open Pattern

/-- Braces opened less braces closed, from the first opening brace on. -/
structure BraceCount where
  balance : Int
  /-- Whether a brace has been opened. -/
  opened : Bool
  deriving DecidableEq, Repr

namespace BraceCount

def zero : BraceCount := ⟨0, false⟩

/-- One more character; a closing brace before the first opening one does not count. -/
def step (b : BraceCount) (c : Char) : BraceCount :=
  if c = '\x7b' then ⟨b.balance + 1, true⟩
  else if c = '\x7d' && b.opened then ⟨b.balance - 1, true⟩
  else b

/-- The characters of a line. -/
def scan (b : BraceCount) (line : Text) : BraceCount := line.foldl step b

end BraceCount

/-- Whether a line ends in a semicolon, apart from white space. -/
def endsInSemicolon (line : Text) : Bool := line.trimEnd.getLast? == some ';'

/-- The end of a brace block among the lines from index `i` on.  Before the first brace a blank
line ends the construct on the line before it, except on its first line, and a semicolon at the
end of a line ends it there. -/
def braceScan (i : Nat) (isFirst : Bool) (b : BraceCount) : List Text → Option Nat
  | [] => none
  | line :: rest =>
    if !b.opened && !isFirst && line.isBlank then some (i - 1)
    else
      let b := b.scan line
      if b.opened && b.balance ≤ 0 then some i
      else if !b.opened && endsInSemicolon line then some i
      else braceScan (i + 1) false b rest

/-- The last line of the brace block that begins on line `start`; none if the braces never
balance. -/
def braceBlockEnd? (lines : List Text) (start : Nat) : Option Nat :=
  braceScan start true .zero (lines.drop start)

/-- The end of an indented block among the lines from index `i` on: lines inside open brackets
and lines indented deeper than the header belong to it, blank lines only between such lines. -/
def indentationScan (header : Nat) (i : Nat) (depth : Int) (last : Nat) : List Text → Nat
  | [] => last
  | line :: rest =>
    if line.isBlank then indentationScan header (i + 1) depth last rest
    else if 0 < depth then indentationScan header (i + 1) (depth + bracketDelta line) i rest
    else if indentWidth line ≤ header then last
    else indentationScan header (i + 1) (depth + bracketDelta line) i rest

/-- The last line of the indented block that begins on line `start`. -/
def indentationBlockEnd (lines : List Text) (start : Nat) : Nat :=
  match lines.drop start with
  | [] => start
  | header :: rest =>
    indentationScan (indentWidth header) (start + 1) (bracketDelta header) start rest

/-- A line that begins with a word that opens a block, or ends in `do`, perhaps with arguments. -/
def blockOpener : Pattern := oneOf [
  chain [textStart, spaces, words ["class", "module", "def", "if", "unless", "case", "while",
    "until", "for", "begin"], boundary],
  chain [boundary, "do", boundary, spaces, opt (chain ["|", many (except "|"), "|"]), spaces,
    textEnd]]

/-- A line whose first word is `end`. -/
def blockCloser : Pattern := chain [textStart, spaces, "end", boundary]

/-- Blocks that a line opens, less those that it closes; on the first line of a construct an `end`
after a semicolon counts too. -/
def endKeywordDelta (isFirst : Bool) (line : Text) : Int :=
  (blockOpener.all line).length - (if blockCloser.occursIn line then 1 else 0)
    - (if isFirst && Text.contains "; end".toList line then 1 else 0)

/-- The end of a block closed by `end` among the lines from index `i` on. -/
def endKeywordScan (i : Nat) (isFirst : Bool) (depth : Int) : List Text → Option Nat
  | [] => none
  | line :: rest =>
    let depth := depth + endKeywordDelta isFirst line
    if depth ≤ 0 then some i else endKeywordScan (i + 1) false depth rest

/-- The last line of the block closed by `end` that begins on line `start`; none if it is never
closed. -/
def endKeywordBlockEnd? (lines : List Text) (start : Nat) : Option Nat :=
  endKeywordScan start true 0 (lines.drop start)

/-- The line before the first blank line after `start`, or the last line. -/
def blankLineEnd (lines : List Text) (start : Nat) : Nat :=
  start + ((lines.drop (start + 1)).takeWhile fun line => !line.isBlank).length

/-- The index of the last line of the construct that begins on line `start`. -/
def blockEnd (lines : List Text) (start : Nat) (style : BlockStyle) : Nat :=
  if lines.isEmpty then 0
  else
    let start := min start (lines.length - 1)
    match style with
    | .braces => (braceBlockEnd? lines start).getD (blankLineEnd lines start)
    | .indentation | .document => indentationBlockEnd lines start
    | .endKeyword => (endKeywordBlockEnd? lines start).getD (blankLineEnd lines start)
    | .markdown => blankLineEnd lines start

end Outline

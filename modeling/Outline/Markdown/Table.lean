import Outline.Markdown.Margin

/-!
# Tables

A table is a header line, a line of dashes and bars below it that fixes the number of columns,
and the rows that follow.  A bar after a backslash is part of a cell.

* `delimiterColumns?`: the number of columns that a line of dashes and bars sets.
* `headerColumns`: the number of columns of a header line.
* `rowCells`: the cells of a row.
-/

namespace Outline.Markdown

/-- What has been seen of a line of dashes and bars. -/
structure DelimiterScan where
  columns : Nat := 0
  /-- Whether the column has nothing but blanks so far. -/
  fresh : Bool := true
  bar : Bool := false
  dash : Bool := false
  columnDash : Bool := false

namespace DelimiterScan

/-- One more character; none if it has no place in such a line. -/
def step (s : DelimiterScan) (c : Char) : Option DelimiterScan :=
  if c = ' ' then some s
  else if c = ':' then some { s with fresh := false }
  else if c = '-' then some { s with fresh := false, dash := true, columnDash := true }
  else if c = '|' && s.columnDash then
    some { s with fresh := true, bar := true, columnDash := false, columns := s.columns + 1 }
  else none

/-- The number of columns, if the line has a bar and a dash. -/
def finish (s : DelimiterScan) : Option Nat :=
  if s.bar && s.dash then some (if s.fresh then s.columns else s.columns + 1) else none

end DelimiterScan

/-- The number of columns that a line of dashes and bars sets. -/
def delimiterColumns? (m : Margin) : Option Nat :=
  let (m, missing) := m.skip 4
  let line := (cutLine m.rest).1
  if missing = 0 then none
  else match line with
    | '|' :: rest => (rest.foldlM DelimiterScan.step { bar := true }).bind DelimiterScan.finish
    | _ => (line.foldlM DelimiterScan.step {}).bind DelimiterScan.finish

/-- The number of bars that no backslash stands before. -/
def barCount (before : Option Char) : Text → Nat
  | [] => 0
  | c :: rest => (if c = '|' ∧ before ≠ some '\\' then 1 else 0) + barCount (some c) rest

/-- The text after the last bar that no backslash stands before. -/
def afterLastBar (before : Option Char) (t last : Text) : Text :=
  match t with
  | [] => last
  | c :: rest =>
    if c = '|' ∧ before ≠ some '\\' then afterLastBar (some c) rest rest
    else afterLastBar (some c) rest last

/-- The number of columns of a header line with at least one bar. -/
def headerColumns (line : Text) : Nat :=
  let bars := barCount none line
  let bars := if (skipBlanks line).head? = some '|' then bars - 1 else bars
  if (afterLastBar none line line).all isBlankChar then bars else bars + 1

/-- A cell: the text up to a bar that no backslash stands before. -/
def cutCell (before : Option Char) : Text → Text × Text
  | [] => ([], [])
  | c :: rest =>
    if c = '|' ∧ before ≠ some '\\' then ([], c :: rest)
    else
      let (cell, after) := cutCell (some c) rest
      (c :: cell, after)

/-- The cells of a row from the front of a cell on; at most one per character. -/
def cellsFrom : Nat → Text → List Text
  | 0, _ => []
  | fuel + 1, t =>
    let t := match t with
      | '|' :: rest => rest
      | _ => t
    match skipBlanks t with
    | [] => []
    | t =>
      let (cell, after) := cutCell none t
      cell :: cellsFrom fuel after

/-- The first so many cells of a row. -/
def rowCells (columns : Nat) (line : Text) : List Text :=
  (cellsFrom (line.length + 1) line).take columns

end Outline.Markdown

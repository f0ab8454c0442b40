import Outline.Markdown.Document
import Outline.Markdown.Inline
import Outline.Text.Lines

/-!
# Headings, sections and counts

What the rest of the library asks of a Markdown text.

* `Heading`, `headings`: the headings in the order of the text.
* `Section`, `sections`: a heading with the lines it governs, up to the next heading of the same
  or a higher rank, without blank lines at the end.
* `ProseCounts`, `proseCounts`: how many elements of each sort there are.
-/

namespace Outline.Markdown

/-- A heading. -/
structure Heading where
  level : Nat
  title : String
  /-- The line it stands on, counted from one. -/
  line : Nat
  deriving DecidableEq, Repr

/-- A heading with the lines it governs. -/
structure Section where
  level : Nat
  title : String
  start : Nat
  stop : Nat
  deriving DecidableEq, Repr

mutual

/-- The headings in a block. -/
def Block.headings (labels : List Label) : Block → List Heading
  | .heading level line content =>
    [⟨level, String.ofList (Text.trim (Content.read labels content).text), line⟩]
  | .quote blocks | .item blocks | .list _ blocks => headingsIn labels blocks
  | _ => []

/-- The headings in several blocks. -/
def headingsIn (labels : List Label) : List Block → List Heading
  | [] => []
  | b :: bs => b.headings labels ++ headingsIn labels bs

end

/-- The headings of a text. -/
def headings (t : Text) : List Heading :=
  let document := Document.read t
  headingsIn document.labels document.blocks

/-- The line before the next heading of the same or a higher rank, or the last line. -/
def governedEnd (lineCount : Nat) (h : Heading) (later : List Heading) : Nat :=
  match later.find? fun next => next.level ≤ h.level with
  | some next => next.line - 1
  | none => lineCount

/-- The last line up to `stop` that is not blank, but no line before `start`. -/
def lastFilledLine (lines : List Text) (start : Nat) : Nat → Nat
  | 0 => 0
  | stop + 1 =>
    if start < stop + 1 ∧ (lines[stop]?).any Text.isBlank then lastFilledLine lines start stop
    else stop + 1

/-- The sections of headings in order. -/
def sectionsOf (lines : List Text) : List Heading → List Section
  | [] => []
  | h :: later =>
    let stop := lastFilledLine lines h.line (max (governedEnd lines.length h later) h.line)
    ⟨h.level, h.title, h.line, stop⟩ :: sectionsOf lines later

/-- The sections of a text, whatever finds its headings. -/
def sections (t : Text) (reader : Text → List Heading := headings) : List Section :=
  sectionsOf t.lines (reader t)

/-! ## Counts -/

/-- How many elements of each sort there are. -/
structure ProseCounts where
  headings : Nat := 0
  codeBlocks : Nat := 0
  tables : Nat := 0
  listItems : Nat := 0
  links : Nat := 0
  paragraphs : Nat := 0
  words : Nat := 0
  deriving DecidableEq, Repr

namespace ProseCounts

/-- The links of a content. -/
def addLinks (labels : List Label) (c : ProseCounts) (content : Text) : ProseCounts :=
  { c with links := c.links + (Content.read labels content).links }

mutual

/-- Adds the elements of a block; `bare` says that a paragraph here is the plain text of an item
of a tight list, which does not count as one. -/
def addBlock (labels : List Label) (bare : Bool) (c : ProseCounts) : Block → ProseCounts
  | .heading _ _ content => { c.addLinks labels content with headings := c.headings + 1 }
  | .paragraph content =>
    { c.addLinks labels content with paragraphs := c.paragraphs + if bare then 0 else 1 }
  | .code => { c with codeBlocks := c.codeBlocks + 1 }
  | .html | .rule => c
  | .table cells => { cells.foldl (addLinks labels) c with tables := c.tables + 1 }
  | .quote blocks => addBlocks labels false c blocks
  | .list tight items => addBlocks labels tight c items
  | .item blocks => addBlocks labels bare { c with listItems := c.listItems + 1 } blocks

/-- Adds the elements of several blocks. -/
def addBlocks (labels : List Label) (bare : Bool) (c : ProseCounts) : List Block → ProseCounts
  | [] => c
  | b :: bs => addBlocks labels bare (addBlock labels bare c b) bs

end

end ProseCounts

/-- The counts of a text. -/
def proseCounts (t : Text) : ProseCounts :=
  let document := Document.read t
  ProseCounts.addBlocks document.labels false { words := t.wordCount } document.blocks

end Outline.Markdown

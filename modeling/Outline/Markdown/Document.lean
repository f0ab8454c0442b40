import Outline.Markdown.Block
import Outline.Markdown.Definition
import Outline.Markdown.Marker
import Outline.Markdown.Table

/-!
# Reading a document

The reader takes one block at a time from the front of a line.  Containers come first: those
that are open and go on, then new ones; what is left of the line begins a leaf, which takes all
the lines that belong to it.

* `Reading.openContainers`: the containers that a line opens.
* `Reading.paragraphLines`: the lines of a paragraph.
* `Reading.leaf`: the leaf that begins at a place.
* `Document`, `Document.read`: the blocks of a text and the labels that it defines.

Every loop takes at least one character of the text in each round, so the length of the text
bounds the rounds.
-/

namespace Outline.Markdown

/-- Without spaces and tabs at the front. -/
def skipSpaces (t : Text) : Text := t.dropWhile fun c => c == ' ' || c == '\t'

/-- Without the characters at the end that satisfy `p`. -/
def dropEnd (p : Char → Bool) (t : Text) : Text := (t.reverse.dropWhile p).reverse

/-- The content of a heading line after its opening marks: closing marks count only behind a
space. -/
def headingContent (line : Text) : Text :=
  let body := dropEnd (· == ' ') (skipBlanks line)
  let core := dropEnd (· == '#') body
  let cut := dropEnd (· == ' ') core
  if core.isEmpty then [] else if cut.length < core.length then cut else body

namespace Reading

/-! ## Containers -/

/-- The containers that a line opens.  Answers the place behind them, or what follows the line if
it ends there. -/
def openContainers : Nat → Reading → Margin → Reading × (Margin ⊕ Text)
  | 0, r, m => (r, .inl m)
  | fuel + 1, r, m =>
    let (inner, missing) := m.skip 4
    if missing = 0 then (r, .inl m)
    else match (if isRule inner.rest then none else ItemMark.read? inner.rest) with
      | some mark =>
        let (after, indent) := mark.enter (4 - missing) inner
        let r := (r.beforeItem mark.marker).push (.item (some indent))
        let after := if isBlankLine after.rest then after else (afterTaskBox? after).getD after
        match afterBlankLine? after.rest with
        | some rest => ({ r with freshItem := true }, .inr rest)
        | none => openContainers fuel r after
      | none =>
        match inner.quoteMark? with
        | some after => openContainers fuel (r.beforeBlock.push .quote) after
        | none => (r, .inl m)

/-! ## Paragraphs and tables -/

/-- The number of columns of the table whose header is the given line; `below` is the text after
it. -/
def tableColumns? (r : Reading) (header below : Text) : Option Nat := do
  let m ← r.inAll? below
  let columns ← delimiterColumns? m
  if 0 < barCount none header && columns = headerColumns header then some columns else none

/-- Whether a table ends the paragraph before it: its header has to begin with a bar. -/
def tableInterrupts (r : Reading) (t : Text) : Bool :=
  t.head? == some '|' &&
    let (line, below) := cutLine t
    (r.tableColumns? line below).isSome

/-- The lines that a paragraph takes. -/
structure ParagraphLines where
  /-- Each line with the text after it. -/
  lines : List (Text × Text)
  /-- The level of the heading that an underline makes of it, and the text after the underline. -/
  underline : Option (Nat × Text)

/-- The lines of a paragraph after the first one, from the front of a line on. -/
def moreLines (r : Reading) : Nat → Text → ParagraphLines
  | 0, _ => ⟨[], none⟩
  | fuel + 1, t =>
    let (missing, m) := r.matchLine t
    let (inner, narrow) := m.skip 4
    let level := if narrow ≠ 0 ∧ missing = 0 then underline? inner.rest else none
    let stops := narrow ≠ 0 ∧
      (interrupts (missing ≠ 0) inner.rest || r.tableInterrupts inner.rest)
    let next := skipSpaces inner.rest
    if level.isSome then ⟨[], level⟩
    else if stops ∨ atLineEnd next then ⟨[], none⟩
    else
      let (line, below) := cutLine next
      let more := moreLines r fuel below
      { more with lines := (line, below) :: more.lines }

/-- The lines of the paragraph that begins at a place. -/
def paragraphLines (r : Reading) (t : Text) : ParagraphLines :=
  let (line, below) := cutLine t
  let more := r.moreLines (below.length + 1) below
  { more with lines := (line, below) :: more.lines }

/-- The cells of the rows of a table, and what follows it. -/
def tableRows (r : Reading) (columns : Nat) : Nat → Text → List Text × Text
  | 0, t => ([], t)
  | fuel + 1, t =>
    match r.inAll? t with
    | none => ([], t)
    | some m =>
      let row := skipSpaces m.rest
      if interrupts true row then ([], t)
      else
        let (line, below) := cutLine row
        let (cells, rest) := tableRows r columns fuel below
        (rowCells columns line ++ cells, rest)

/-- A table, a link definition, a heading with an underline or a paragraph. -/
def paragraphLike (r : Reading) (line : Nat) (t : Text) : Reading × Text :=
  let found := r.paragraphLines t
  let texts := found.lines.map (·.1)
  let (header, below) := cutLine t
  match definition? (Text.joinLines texts) with
  | some (label, behind) =>
    let used := if behind.isEmpty then texts.length
      else texts.length - (1 + Text.newlines behind)
    ({ r with labels := label :: r.labels },
      ((found.lines.take used).getLast?.map (·.2)).getD below)
  | none =>
    match r.tableColumns? header below with
    | some columns =>
      let (cells, rest) := r.tableRows columns (below.length + 1) (cutLine below).2
      (r.add (.table (rowCells columns header ++ cells)), rest)
    | none =>
      let rest := (found.lines.getLast?.map (·.2)).getD below
      match found.underline with
      | some (level, rest) => (r.add (.heading level line (Text.joinLines texts)), rest)
      | none => (r.add (.paragraph (Text.joinLines texts)), rest)

/-! ## Raw blocks -/

/-- What follows a block of code between fences, from the line after the opening fence on. -/
def afterFenced (r : Reading) (mark : Char) (least indent : Nat) : Nat → Text → Text
  | 0, t => t
  | fuel + 1, t =>
    if t.isEmpty then []
    else match r.inAll? t with
      | none => t
      | some m =>
        let m := (m.skip indent).1
        let (inner, narrow) := m.skip (4 - indent)
        match (if narrow = 0 then none else afterFence? mark least inner.rest) with
        | some rest => rest
        | none => afterFenced r mark least indent fuel (afterLineFeed m.rest)

/-- What follows a block of indented code, from the line after its first one on, and whether its
last line is blank. -/
def afterIndented (r : Reading) (blank : Bool) : Nat → Text → Text × Bool
  | 0, t => (t, blank)
  | fuel + 1, t =>
    match r.inAll? t with
    | none => (t, blank)
    | some m =>
      let (inner, missing) := m.skip 4
      if (missing ≠ 0 && !atLineEnd inner.rest) || inner.rest.isEmpty then (t, blank)
      else afterIndented r (isBlankLine inner.rest) fuel (afterLineFeed inner.rest)

/-- What follows a block of HTML whose current line begins at a place. -/
def afterHtml (r : Reading) (block : HtmlBlock) : Nat → Text → Text
  | 0, t => t
  | fuel + 1, t =>
    let below := afterLineFeed t
    let isOver := match block with
      | .until mark => Text.contains mark (untilLineFeed t)
      | .paragraph => false
    match r.inAll? below with
    | none => below
    | some m =>
      let ends := match block with
        | .until _ => m.rest.isEmpty
        | .paragraph => isBlankLine m.rest
      if isOver || ends then below else afterHtml r block fuel m.rest

/-! ## One block -/

/-- The leaf that begins at a place, indented by fewer than four columns. -/
def leaf (r : Reading) (line indent : Nat) (t : Text) : Reading × Text :=
  let html? := match t with
    | '<' :: rest => HtmlBlock.opening? false rest
    | _ => none
  match html? with
  | some block => (r.add .html, r.afterHtml block (t.length + 1) t)
  | none =>
    if isRule t then (r.add .rule, (cutLine t).2)
    else match headingLevel? t with
      | some level =>
        let (content, rest) := cutLine (t.drop level)
        (r.add (.heading level line (headingContent content)), rest)
      | none =>
        match fence? t with
        | some (mark, least) =>
          (r.add .code, r.afterFenced mark least indent (t.length + 1) (afterLineFeed t))
        | none => r.paragraphLike line t

/-- Takes one block, or one line without a block, from the front of a line; `total` is the number
of line feeds in the whole text. -/
def step (total : Nat) (r : Reading) (t : Text) : Reading × Text :=
  let (missing, m) := r.matchLine t
  let (r, place) := (r.popMany missing).openContainers (t.length + 1) m
  match place with
  | .inr rest => (r, rest)
  | .inl m =>
    match afterBlankLine? m.rest with
    | some rest => (r.afterBlank, rest)
    | none =>
      let r := r.beforeBlock
      let (inner, narrow) := m.skip 4
      if narrow = 0 then
        let below := afterLineFeed inner.rest
        let (rest, blank) := r.afterIndented false (below.length + 1) below
        ({ r.add .code with lastBlank := blank }, rest)
      else r.leaf (total + 1 - Text.newlines inner.rest) (4 - narrow) inner.rest

/-- Takes blocks until the text ends. -/
def run (total : Nat) : Nat → Reading → Text → Reading
  | 0, r, _ => r
  | _ + 1, r, [] => r
  | fuel + 1, r, t =>
    let (r, rest) := r.step total t
    run total fuel r rest

end Reading

/-- The blocks of a text and the labels of the links it defines. -/
structure Document where
  blocks : List Block
  labels : List Label

/-- Reads a text. -/
def Document.read (t : Text) : Document :=
  let r := Reading.run t.newlines (t.length + 1) {} t
  ⟨r.finish, r.labels⟩

end Outline.Markdown

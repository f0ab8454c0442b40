import Outline.Markdown.Margin

/-!
# Blocks

A document is a tree of blocks.  While it is read, the quotations, lists and items that are
still open form a stack of frames; a line belongs to a frame when it begins with what the frame
asks for.  Closing a frame hands its blocks to the frame around it.

* `Block`: the finished blocks.
* `Frame`: an open container with the blocks read so far.
* `Frame.continue?`, `matchFrames`: which open containers a line belongs to.
* `Reading`: the open containers with what has to be remembered between two lines.
-/

namespace Outline.Markdown

/-- A block of a document. -/
inductive Block where
  | heading (level line : Nat) (content : Text)
  | paragraph (content : Text)
  | code
  | html
  | rule
  | table (cells : List Text)
  | quote (blocks : List Block)
  /-- A list is tight when no blank lines stand between its items or their blocks. -/
  | list (tight : Bool) (items : List Block)
  | item (blocks : List Block)
  deriving Repr, Inhabited

/-- What an open container is, and what it asks of the lines that belong to it. -/
inductive Holder where
  | quote
  /-- A list with the character that marks its items. -/
  | list (marker : Char) (tight : Bool)
  /-- An item with the columns its lines are indented by; none if no line can belong to it. -/
  | item (indent : Option Nat)
  deriving DecidableEq, Repr

/-- An open container with its blocks, the last one first. -/
structure Frame where
  holder : Holder
  blocks : List Block
  deriving Repr

namespace Frame

/-- The block that a container becomes when it is closed. -/
def close (f : Frame) : Block :=
  match f.holder with
  | .quote => .quote f.blocks.reverse
  | .list _ tight => .list tight f.blocks.reverse
  | .item _ => .item f.blocks.reverse

def isItem (f : Frame) : Bool :=
  match f.holder with
  | .item _ => true
  | _ => false

/-- Makes a list loose. -/
def loosen (f : Frame) : Frame :=
  match f.holder with
  | .list marker _ => { f with holder := .list marker false }
  | _ => f

/-- The place behind what a container asks for, if the line has it.  A line without anything
more belongs to every item. -/
def continue? (f : Frame) (m : Margin) : Option Margin :=
  match f.holder with
  | .quote => (m.skip 3).1.quoteMark?
  | .list _ _ => some m
  | .item none => if atLineEnd (m.rest.dropWhile fun c => c == ' ' || c == '\t') then
      some ⟨m.rest.dropWhile fun c => c == ' ' || c == '\t', m.column, 0⟩ else none
  | .item (some indent) =>
    let (m, missing) := m.skip indent
    if missing = 0 || atLineEnd m.rest then some m else none

end Frame

/-- The open containers a line belongs to, outermost first: how many do not, and the place behind
what the others ask for. -/
def matchFrames (m : Margin) : List Frame → Nat × Margin
  | [] => (0, m)
  | f :: fs =>
    match f.continue? m with
    | some m => matchFrames m fs
    | none => ((f :: fs).length, m)

/-- The open containers with what is remembered between two lines. -/
structure Reading where
  /-- Open containers, the innermost first. -/
  frames : List Frame := []
  /-- Finished blocks of the document itself, the last one first. -/
  blocks : List Block := []
  /-- Whether the line before was blank. -/
  lastBlank : Bool := false
  /-- Whether the line before was the first of an item, with nothing in it. -/
  freshItem : Bool := false
  /-- The labels of the links defined so far. -/
  labels : List Text := []

namespace Reading

/-- Adds a finished block to the innermost container. -/
def add (r : Reading) (b : Block) : Reading :=
  match r.frames with
  | [] => { r with blocks := b :: r.blocks }
  | f :: fs => { r with frames := { f with blocks := b :: f.blocks } :: fs }

/-- Opens a container. -/
def push (r : Reading) (h : Holder) : Reading :=
  { r with frames := ⟨h, []⟩ :: r.frames }

/-- Closes the innermost container. -/
def pop (r : Reading) : Reading :=
  match r.frames with
  | [] => r
  | f :: fs => ({ r with frames := fs }).add f.close

/-- Closes the innermost `n` containers. -/
def popMany (r : Reading) : Nat → Reading
  | 0 => r
  | n + 1 => r.pop.popMany n

/-- Closes an item whose first line was empty and the second one blank. -/
def leaveFreshItem (r : Reading) : Reading :=
  let r := if r.freshItem && r.lastBlank && r.frames.head?.any Frame.isItem then r.pop else r
  { r with freshItem := false }

/-- Closes the innermost container if it is a list. -/
def leaveList (r : Reading) : Reading :=
  match r.frames with
  | ⟨.list _ _, _⟩ :: _ => r.pop
  | _ => r

/-- A blank line before a block makes the list around its item loose. -/
def noteBlank (r : Reading) : Reading :=
  if !r.lastBlank then r
  else
    let frames := match r.frames with
      | f :: g :: fs => f :: g.loosen :: fs
      | fs => fs
    { r with frames, lastBlank := false }

/-- Before a block that is not an item of a list. -/
def beforeBlock (r : Reading) : Reading := r.leaveFreshItem.leaveList.noteBlank

/-- Before an item with the given marker: the innermost list goes on if it has the same marker,
and a new list begins otherwise. -/
def beforeItem (r : Reading) (marker : Char) : Reading :=
  let r := r.leaveFreshItem
  let fresh (r : Reading) : Reading :=
    let r := if r.frames.isEmpty then r else r.leaveFreshItem.leaveList.noteBlank
    { r.push (.list marker true) with lastBlank := false }
  match r.frames with
  | f :: fs =>
    match f.holder with
    | .list known _ =>
      if known = marker then
        if r.lastBlank then { r with frames := f.loosen :: fs, lastBlank := false } else r
      else fresh r
    | _ => fresh r
  | [] => fresh r

/-- After a blank line.  Directly inside a quotation it is not remembered, and after the empty
first line of an item no further line can belong to the item. -/
def afterBlank (r : Reading) : Reading :=
  match r.frames with
  | [] => { r with lastBlank := true }
  | f :: fs =>
    match f.holder with
    | .quote => r
    | .item _ =>
      if r.freshItem then
        { r with frames := { f with holder := .item none } :: fs, lastBlank := true }
      else { r with lastBlank := true }
    | .list _ _ => { r with lastBlank := true }

/-- Matches a line with the open containers. -/
def matchLine (r : Reading) (t : Text) : Nat × Margin :=
  matchFrames (.start t) r.frames.reverse

/-- The place behind what the open containers ask for, if the line belongs to all of them. -/
def inAll? (r : Reading) (t : Text) : Option Margin :=
  let (missing, m) := r.matchLine t
  if missing = 0 then some m else none

/-- All blocks, when the text has ended. -/
def finish (r : Reading) : List Block := (r.popMany r.frames.length).blocks.reverse

end Reading

end Outline.Markdown

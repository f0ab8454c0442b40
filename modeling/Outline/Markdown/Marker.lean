import Outline.Markdown.Html
import Outline.Markdown.Reference

/-!
# Marks at the front of a line

What the first characters of a line make of it, after the blanks of its margin.

* `isRule`, `headingLevel?`, `underline?`, `fence?`: rules, headings and fences.
* `ItemMark`: the mark of a list item, and the margin it sets.
* `afterTaskBox?`: the box of a task.
* `interrupts`: whether a line ends the paragraph before it.
-/

namespace Outline.Markdown

/-- Whether the line is a rule: three or more of one mark with nothing but blanks between. -/
def isRule (t : Text) : Bool :=
  let line := (cutLine t).1
  match line with
  | c :: _ =>
    (c == '*' || c == '-' || c == '_') && 3 ≤ line.count c &&
      line.all fun d => d == c || d == ' ' || d == '\t'
  | [] => false

/-- The level of the heading that begins here. -/
def headingLevel? (t : Text) : Option Nat :=
  let level := runLength '#' t
  let ends := match t.drop level with
    | [] => true
    | c :: _ => isBlankOrEnd c
  if 1 ≤ level && level ≤ 6 && ends then some level else none

/-- The level that an underline gives to the paragraph above it, and what follows the line. -/
def underline? (t : Text) : Option (Nat × Text) :=
  match t with
  | '=' :: _ => (afterBlankLine? (t.drop (runLength '=' t))).map fun rest => (1, rest)
  | '-' :: _ => (afterBlankLine? (t.drop (runLength '-' t))).map fun rest => (2, rest)
  | _ => none

/-- The mark of a fence and how often it is repeated.  A fence of backquotes has none further on
in its line. -/
def fence? (t : Text) : Option (Char × Nat) :=
  match t with
  | c :: _ =>
    let n := runLength c t
    let alone := !(untilLineFeed (t.drop n)).any (· == c)
    if 3 ≤ n && (c == '~' || (c == '\x60' && alone)) then some (c, n) else none
  | [] => none

/-- What follows a line that closes a fence of at least so many marks. -/
def afterFence? (mark : Char) (least : Nat) (t : Text) : Option Text :=
  let n := runLength mark t
  if n < least then none else afterLineEnd? ((t.drop n).dropWhile (· == ' '))

/-! ## Items -/

/-- The mark of a list item. -/
structure ItemMark where
  /-- The character that tells lists apart: the bullet, or what follows the number. -/
  marker : Char
  /-- The number of an item, nought for a bullet. -/
  number : Nat
  /-- The number of characters of the mark. -/
  width : Nat
  deriving DecidableEq, Repr

namespace ItemMark

def isBullet (m : ItemMark) : Bool := m.marker == '-' || m.marker == '+' || m.marker == '*'

/-- The mark at the front of a text: a bullet, or a number of at most nine digits with a point or
a bracket.  A blank or the end of the line follows it. -/
def read? (t : Text) : Option ItemMark :=
  let digits := (t.take 9).takeWhile Char.isDigit
  let mark? : Option ItemMark := match digits, t.drop digits.length with
    | [], c :: _ => if c == '-' || c == '+' || c == '*' then some ⟨c, 0, 1⟩ else none
    | _ :: _, c :: _ =>
      if c == '.' || c == ')' then some ⟨c, decimalNumber digits, digits.length + 1⟩ else none
    | _, [] => none
  mark?.filter fun mark =>
    match t.drop mark.width with
    | [] => true
    | c :: _ => c == ' ' || c == '\t' || isLineEndChar c

/-- Passes over the mark of an item; answers also the columns that its lines are indented by.
Up to four blanks after the mark belong to it; more begin a block of code. -/
def enter (mark : ItemMark) (outer : Nat) (m : Margin) : Margin × Nat :=
  let m := ((m.advance mark.width).skip 1).1
  let indent := outer + mark.width + 1
  if isBlankLine m.rest then (m, indent)
  else
    let (inner, missing) := m.skip 4
    if missing = 0 then (m, indent) else (inner, indent + (4 - missing))

end ItemMark

/-- What follows the box of a task. -/
def afterTaskBox? (m : Margin) : Option Margin :=
  let m := (m.skip 3).1
  match m.rest with
  | '[' :: c :: ']' :: d :: _ =>
    if (isBlankChar c || c == 'x' || c == 'X') && isBlankChar d then some (m.advance 3) else none
  | _ => none

/-! ## The end of a paragraph -/

/-- Whether an item is empty and a blank line follows it. -/
def isLoneItem (t : Text) : Bool :=
  match afterBlankLine? t with
  | some rest => isBlankLine rest
  | none => false

/-- Whether an item mark ends a paragraph.  Inside the same containers it has to be a bullet or
the number one, with something after it or right below; `free` lifts this. -/
def itemInterrupts (free : Bool) (t : Text) : Bool :=
  match ItemMark.read? t with
  | none => false
  | some mark => free || ((mark.isBullet || mark.number == 1) && !isLoneItem (t.drop mark.width))

/-- Whether a line, after its margin, ends the paragraph before it.  `free` says that the line is
outside the containers of the paragraph or in a table. -/
def interrupts (free : Bool) (t : Text) : Bool :=
  atLineEnd t || isRule t || (headingLevel? t).isSome || (fence? t).isSome ||
    t.head? == some '>' || itemInterrupts free t ||
    match t with
    | '<' :: rest => (HtmlBlock.opening? true rest).isSome
    | _ => false

end Outline.Markdown

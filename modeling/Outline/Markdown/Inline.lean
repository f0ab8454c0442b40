import Outline.Markdown.Emphasis
import Outline.Markdown.Html
import Outline.Markdown.Link

/-!
# The content of a block

Content is read from left to right.  Code, addresses and HTML are taken as they come; an opening
square bracket waits until its partner decides whether the two make a link, and a link shuts the
brackets around it, since links do not nest.

* `Bracket`: an opening bracket that waits.
* `Scan`: what has been read of a content.
* `Content`, `Content.read`: the plain text and the number of links of a content.
-/

namespace Outline.Markdown

/-- An opening bracket that waits for its partner. -/
structure Bracket where
  image : Bool
  /-- Whether it can still begin a link. -/
  active : Bool
  /-- The pieces before it, the last one first. -/
  before : List Span
  /-- The text after it. -/
  rest : Text

/-- What has been read of a content. -/
structure Scan where
  /-- Waiting brackets, the innermost first. -/
  brackets : List Bracket := []
  /-- Pieces since the last waiting bracket, the last one first. -/
  spans : List Span := []
  links : Nat := 0
  /-- Closing brackets, by the length of the text after them, that ended a label without a
  definition. -/
  refused : List Nat := []
  /-- The last character of the line so far. -/
  before : Option Char := none

namespace Scan

/-- Adds plain text. -/
def write (s : Scan) (t : Text) (before : Option Char) : Scan :=
  { s with spans := .text t :: s.spans, before }

/-- An opening bracket with the text after it. -/
def openBracket (s : Scan) (image : Bool) (rest : Text) : Scan :=
  { s with
    brackets := ⟨image, true, s.spans, rest⟩ :: s.brackets
    spans := []
    before := some '[' }

/-- Gives up the innermost waiting bracket: it is plain text. -/
def giveUp (s : Scan) (b : Bracket) (outer : List Bracket) : Scan :=
  { s with
    brackets := outer
    spans := s.spans ++ .text (if b.image then ['!', '['] else ['[']) :: b.before }

/-- Makes a link or an image of everything since the innermost waiting bracket. -/
def makeLink (s : Scan) (b : Bracket) (outer : List Bracket) (last : Char) : Scan :=
  { s with
    brackets := if b.image then outer
      else outer.map fun o => { o with active := o.active && o.image }
    spans := .text (Emphasis.resolve s.spans.reverse) :: b.before
    links := if b.image then s.links else s.links + 1
    before := some last }

/-- Gives up a bracket and writes the closing one as plain text. -/
def notALink (s : Scan) (b : Bracket) (outer : List Bracket) : Scan :=
  (s.giveUp b outer).write [']'] (some ']')

/-- The label between a waiting bracket and its partner, if what stands there can be one. -/
def ownLabel? (b : Bracket) (rest : Text) : Option Label :=
  match label? ('[' :: b.rest) with
  | some (label, after) => if after.length = rest.length then some label else none
  | none => none

/-- A closing bracket with the text after it; answers the text that is left. -/
def closeBracket (labels : List Label) (s : Scan) (rest : Text) : Scan × Text :=
  match s.brackets with
  | [] => (s.write [']'] (some ']'), rest)
  | b :: outer =>
    if !b.active then (s.notALink b outer, rest)
    else match afterTarget? rest with
      | some after => (s.makeLink b outer ')', after)
      | none =>
        let viable := !s.refused.contains rest.length
        let own := if viable then (ownLabel? b rest).filter labels.contains else none
        match rest with
        | '[' :: ']' :: after =>
          if own.isSome then (s.makeLink b outer ']', after) else (s.notALink b outer, rest)
        | _ =>
          match label? rest with
          | some (label, after) =>
            if labels.contains label then (s.makeLink b outer ']', after)
            else ({ s.notALink b outer with refused := after.length :: s.refused }, rest)
          | none =>
            if own.isSome then (s.makeLink b outer ']', rest) else (s.notALink b outer, rest)

/-! ## Code -/

/-- The text up to the next run of exactly `n` backquotes, and what follows that run. -/
def codeEnd? (n : Nat) : Nat → Text → Option (Text × Text)
  | 0, _ => none
  | fuel + 1, t =>
    let piece := t.takeWhile (· != '\x60')
    let rest := t.drop piece.length
    let run := runLength '\x60' rest
    if run = 0 then none
    else if run = n then some (piece, rest.drop run)
    else (codeEnd? n fuel (rest.drop run)).map fun (code, after) =>
      (piece ++ List.replicate run '\x60' ++ code, after)

/-- The text of a piece of code: line ends are spaces, and one space at each end is not part of
it, unless there is nothing else. -/
def codeText (code : Text) : Text :=
  let code := code.map fun c => if isLineEndChar c then ' ' else c
  if code.head? = some ' ' ∧ code.getLast? = some ' ' ∧ !code.all (· == ' ') then
    (code.drop 1).dropLast
  else code

/-! ## One piece -/

/-- A backquote at the front; answers the text that is left. -/
def code (s : Scan) (t : Text) : Scan × Text :=
  let n := runLength '\x60' t
  match codeEnd? n (t.length + 1) (t.drop n) with
  | some (code, after) => (s.write (codeText code) (some '\x60'), after)
  | none => (s.write (List.replicate n '\x60') (some '\x60'), t.drop n)

/-- A `<` with the text after it. -/
def angle (s : Scan) (rest : Text) : Scan × Text :=
  match address? rest with
  | some (address, after) =>
    ({ s.write address (some '>') with links := s.links + 1 }, after)
  | none =>
    match inlineHtml? rest with
    | some after => (s.write [] (some '>'), after)
    | none => (s.write ['<'] (some '<'), rest)

/-- A mark of emphasis at the front. -/
def marks (s : Scan) (c : Char) (t : Text) : Scan × Text :=
  let n := runLength c t
  let rest := t.drop n
  match Run.ofContext? c n s.before rest.head? with
  | some run => ({ s with spans := .run run :: s.spans, before := some c }, rest)
  | none => (s.write (List.replicate n c) (some c), rest)

/-- Takes one piece from the front of a text that is not empty; answers the text that is left.
Blanks before the end of a line are no part of the text, and nor is the end of the line. -/
def step (labels : List Label) (s : Scan) : Text → Scan × Text
  | [] => (s, [])
  | '\\' :: '\n' :: rest => ({ s with before := none }, rest)
  | '\\' :: '\x60' :: rest => (s.write ['\x60'] (some '\x60'), rest)
  | '\\' :: c :: rest =>
    if isAsciiPunctuation c then (s.write [c] (some c), rest)
    else (s.write ['\\'] (some '\\'), c :: rest)
  | '\n' :: rest => ({ s with before := none }, rest)
  | '&' :: rest =>
    match reference? rest with
    | some (value, after) => (s.write value (some ';'), after)
    | none => (s.write ['&'] (some '&'), rest)
  | '<' :: rest => s.angle rest
  | '!' :: '[' :: rest => (s.openBracket true rest, rest)
  | '[' :: rest => (s.openBracket false rest, rest)
  | ']' :: rest => s.closeBracket labels rest
  | c :: rest =>
    if isBlankChar c && (skipBlanks rest).head? == some '\n' then (s, skipBlanks rest)
    else if c = '\x60' then s.code (c :: rest)
    else if Run.isMark c then s.marks c (c :: rest)
    else (s.write [c] (some c), rest)

/-- Takes pieces until the text ends. -/
def run (labels : List Label) : Nat → Scan → Text → Scan
  | 0, s, _ => s
  | _ + 1, s, [] => s
  | fuel + 1, s, t =>
    let (s, rest) := s.step labels t
    run labels fuel s rest

/-- Gives up all waiting brackets. -/
def giveUpAll (s : Scan) : List Bracket → Scan
  | [] => s
  | b :: outer => (s.giveUp b outer).giveUpAll outer

end Scan

/-- The plain text and the number of links of a content. -/
structure Content where
  text : Text
  links : Nat

/-- Reads a content with the labels that the document defines. -/
def Content.read (labels : List Label) (t : Text) : Content :=
  let s := Scan.run labels (t.length + 1) {} t
  let s := s.giveUpAll s.brackets
  ⟨Emphasis.resolve s.spans.reverse, s.links⟩

end Outline.Markdown

import Outline.Check.Issue

/-!
# Brackets

Without a tree, a text is checked for brackets that do not match.  Brackets in comments, strings
and character literals do not count, so the text is first reduced to the brackets that do.

* `brackets`: the brackets of a text that count, with their places.
* `bracketIssues`: those that do not match.
-/

namespace Outline

/-- What a scan for brackets is inside of. -/
inductive ScanState where
  | code
  | lineComment
  | blockComment
  | quoted (mark : Char)
  deriving DecidableEq, Repr

/-- How the comments and quotes of a language look. -/
structure QuoteRules where
  /-- Whether single quotes enclose one character rather than a string. -/
  charLiterals : Bool
  /-- Whether a number sign begins a comment. -/
  hashComments : Bool
  deriving DecidableEq, Repr

/-- A bracket at its place. -/
structure Bracket where
  mark : Char
  line : Nat
  column : Nat
  deriving DecidableEq, Repr

/-- The number of characters after a single quote that belong to a character literal. -/
def charLiteralRest (rest : Text) : Nat :=
  match rest with
  | '\\' :: _ :: '\'' :: _ => 3
  | '\\' :: _ => 0
  | _ :: '\'' :: _ => 2
  | _ => 0

def isOpening (c : Char) : Bool := c == '(' || c == '[' || c == '\x7b'

def isClosing (c : Char) : Bool := c == ')' || c == ']' || c == '\x7d'

/-- The bracket that closes an opening one. -/
def closerOf (c : Char) : Char :=
  if c = '(' then ')' else if c = '[' then ']' else '\x7d'

namespace ScanState

/-- The state after a character, and how many of the next characters are passed over. -/
def step (q : QuoteRules) (s : ScanState) (c : Char) (rest : Text) : ScanState × Nat :=
  match s with
  | .code =>
    if c = '/' ∧ rest.head? = some '/' then (.lineComment, 0)
    else if c = '/' ∧ rest.head? = some '*' then (.blockComment, 1)
    else if c = '#' ∧ q.hashComments then (.lineComment, 0)
    else if c = '"' ∨ c = '\x60' then (.quoted c, 0)
    else if c = '\'' then
      if q.charLiterals then (.code, charLiteralRest rest) else (.quoted c, 0)
    else (.code, 0)
  | .lineComment => (if c = '\n' then .code else .lineComment, 0)
  | .blockComment => if c = '*' ∧ rest.head? = some '/' then (.code, 1) else (.blockComment, 0)
  | .quoted mark =>
    if c = '\\' ∧ rest.head?.any (· != '\n') then (.quoted mark, 1)
    else if c = mark ∨ (c = '\n' ∧ mark ≠ '\x60') then (.code, 0)
    else (.quoted mark, 0)

end ScanState

/-- The brackets that count, from a place on; the first `skip` characters are passed over without
a look. -/
def bracketsFrom (q : QuoteRules) :
    (state : ScanState) → (skip line column : Nat) → Text → List Bracket
  | _, _, _, _, [] => []
  | state, skip + 1, line, column, _ :: rest => bracketsFrom q state skip line (column + 1) rest
  | state, 0, line, column, c :: rest =>
    let (next, skip) := state.step q c rest
    let more := if c = '\n' then bracketsFrom q next skip (line + 1) 0 rest
      else bracketsFrom q next skip line (column + 1) rest
    if state = .code ∧ (isOpening c ∨ isClosing c) then ⟨c, line, column + 1⟩ :: more else more

/-- The brackets of a text that count. -/
def brackets (q : QuoteRules) (content : Text) : List Bracket :=
  bracketsFrom q .code 0 1 0 content

/-- Issues of the remaining brackets when the given ones are open, the innermost first. -/
def matchBrackets (opened : List Bracket) : List Bracket → List Issue
  | [] => opened.reverse.map fun b => ⟨b.line, b.column, .unclosed b.mark⟩
  | b :: rest =>
    if isOpening b.mark then matchBrackets (b :: opened) rest
    else match opened with
      | [] => ⟨b.line, b.column, .unexpected (String.singleton b.mark)⟩ :: matchBrackets [] rest
      | o :: outer =>
        if closerOf o.mark = b.mark then matchBrackets outer rest
        else ⟨b.line, b.column, .mismatched b.mark o.mark o.line⟩ :: matchBrackets outer rest

/-- The brackets of a text that do not match, in the order of the text. -/
def bracketIssues (q : QuoteRules) (content : Text) : List Issue :=
  (matchBrackets [] (brackets q content)).mergeSort Issue.le

end Outline

import Outline.Markdown.Margin
import Outline.Markdown.Reference

/-!
# Links

The parts of a link: where it leads, its title, the label by which a definition is found, and
the addresses that are links of themselves.

* `afterDestination?`, `afterTitle?`, `afterTarget?`: the parts between round brackets.
* `Label`, `label?`: the text between square brackets, in the form in which labels are compared.
* `address?`: an address between angle brackets.
-/

namespace Outline.Markdown

/-- What follows a destination between angle brackets, after the opening one. -/
def afterAngled? : Text → Option Text
  | [] => none
  | '>' :: rest => some rest
  | '\\' :: c :: rest =>
    if isAsciiPunctuation c then afterAngled? rest else afterAngled? (c :: rest)
  | c :: rest => if c = '\n' ∨ c = '\r' ∨ c = '<' then none else afterAngled? rest
termination_by t => t.length

/-- The deepest nesting of brackets in a destination. -/
def destinationDepth : Nat := 32

/-- What follows a destination without brackets around it; brackets inside are balanced. -/
def afterBare? (depth : Nat) : Text → Option Text
  | [] => if depth = 0 then some [] else none
  | '\\' :: c :: rest =>
    if isAsciiPunctuation c then afterBare? depth rest else afterBare? depth (c :: rest)
  | c :: rest =>
    if c ≤ ' ' then if depth = 0 then some (c :: rest) else none
    else if c = '(' then
      if destinationDepth < depth then none else afterBare? (depth + 1) rest
    else if c = ')' then
      if depth = 0 then some (c :: rest) else afterBare? (depth - 1) rest
    else afterBare? depth rest
termination_by t => t.length

/-- What follows a destination. -/
def afterDestination? (t : Text) : Option Text :=
  match t with
  | '<' :: rest => afterAngled? rest
  | _ => afterBare? 0 t

/-- What follows a title, after its opening mark. -/
def afterTitleMark? (opening closing : Char) : Text → Option Text
  | [] => none
  | '\\' :: c :: rest =>
    if isAsciiPunctuation c then afterTitleMark? opening closing rest
    else afterTitleMark? opening closing (c :: rest)
  | c :: rest =>
    if c = closing then some rest
    else if c = opening then none
    else afterTitleMark? opening closing rest
termination_by t => t.length

/-- What follows a title. -/
def afterTitle? (t : Text) : Option Text :=
  match t with
  | '"' :: rest => afterTitleMark? '"' '"' rest
  | '\'' :: rest => afterTitleMark? '\'' '\'' rest
  | '(' :: rest => afterTitleMark? '(' ')' rest
  | _ => none

/-- Passes over blanks with at most one line end among them. -/
def skipGap (t : Text) : Text :=
  let t := skipBlanks t
  match t with
  | [] => []
  | _ => skipBlanks ((afterLineEnd? t).getD t)

/-- What follows the destination and title of a link, from the opening round bracket on. -/
def afterTarget? (t : Text) : Option Text :=
  match t with
  | '(' :: rest => do
    let after ← afterDestination? (skipGap rest)
    let after := skipGap after
    let after := match afterTitle? after with
      | some titled => skipGap titled
      | none => after
    match after with
    | ')' :: rest => some rest
    | _ => none
  | _ => none

/-! ## Labels -/

/-- A label in the form in which labels are compared: runs of blanks as one space, none at the
ends, and case folded away. -/
abbrev Label := Text

/-- Runs of blanks as one space. -/
def collapse : Text → Text
  | [] => []
  | c :: rest =>
    if isBlankOrEnd c then
      match collapse rest with
      | ' ' :: more => ' ' :: more
      | more => ' ' :: more
    else c :: collapse rest

/-- Without blanks and ends of lines around it. -/
def stripBlanks (t : Text) : Text :=
  ((t.dropWhile isBlankOrEnd).reverse.dropWhile isBlankOrEnd).reverse

/-- The form in which labels are compared. -/
def Label.ofText (t : Text) : Label := (collapse (stripBlanks t)).flatMap caseFolding

/-- The raw text of a label after its opening bracket, and what follows the closing one. -/
def labelText? : Text → Option (Text × Text)
  | [] => none
  | ']' :: rest => some ([], rest)
  | '[' :: _ => none
  | '\\' :: c :: rest => (labelText? rest).map fun (label, after) => ('\\' :: c :: label, after)
  | c :: rest => (labelText? rest).map fun (label, after) => (c :: label, after)

/-- The longest label. -/
def labelLimit : Nat := 1000

/-- Whether the text between two brackets can be a label. -/
def isLabelText (t : Text) : Bool := !t.all isBlankOrEnd && t.length < labelLimit

/-- The label at the front of a text, and what follows it. -/
def label? (t : Text) : Option (Label × Text) :=
  match t with
  | '[' :: rest => do
    let (label, after) ← labelText? rest
    if isLabelText label then some (Label.ofText label, after) else none
  | _ => none

/-! ## Addresses -/

def isSchemeChar (c : Char) : Bool := c.isAlphanum || c == '.' || c == '-' || c == '+'

/-- The address with a scheme at the front of a text, and what follows its closing bracket. -/
def schemeAddress? (t : Text) : Option (Text × Text) :=
  match t with
  | c :: _ =>
    let scheme := t.takeWhile isSchemeChar
    if !c.isAlpha || scheme.length < 2 || 32 < scheme.length then none
    else match t.drop scheme.length with
      | ':' :: _ =>
        let address := t.takeWhile fun c => !(c ≤ ' ' || c == '<' || c == '>')
        match t.drop address.length with
        | '>' :: rest => some (address, rest)
        | _ => none
      | _ => none
  | [] => none

def isMailboxChar (c : Char) : Bool :=
  c.isAlphanum || ".!#$%&'*+/=?^_\x60\x7b|\x7d~-".toList.contains c

/-- Whether a text is one part of the name of a host. -/
def isHostPart (t : Text) : Bool :=
  !t.isEmpty && t.length ≤ 63 && t.head? != some '-' && t.getLast? != some '-'

/-- The mail address at the front of a text, and what follows its closing bracket. -/
def mailAddress? (t : Text) : Option (Text × Text) :=
  let mailbox := t.takeWhile isMailboxChar
  match mailbox, t.drop mailbox.length with
  | _ :: _, '@' :: rest =>
    let host := rest.takeWhile fun c => c.isAlphanum || c == '-' || c == '.'
    match rest.drop host.length with
    | '>' :: after =>
      if (Text.splitOn '.' host).all isHostPart then some (mailbox ++ '@' :: host, after) else none
    | _ => none
  | _, _ => none

/-- The address at the front of a text that begins after `<`, and what follows its closing
bracket. -/
def address? (t : Text) : Option (Text × Text) := (schemeAddress? t).or (mailAddress? t)

end Outline.Markdown

import Outline.Markdown.Margin

/-!
# HTML inside Markdown

A line that begins with a tag may start a block of HTML, and a tag inside a paragraph is taken
out of its text.

* `HtmlBlock`, `HtmlBlock.opening?`: the blocks, by the way they end.
* `htmlTag?`: an opening or closing tag.
* `inlineHtml?`: a tag, comment, instruction, declaration or literal section.
-/

namespace Outline.Markdown

/-- A block of HTML. -/
inductive HtmlBlock where
  /-- Ends with the line that holds a text. -/
  | until (mark : Text)
  /-- Ends before a blank line. -/
  | paragraph
  deriving Repr

/-- Names of tags that begin a block wherever they stand. -/
def blockTags : List String :=
  ["address", "article", "aside", "base", "basefont", "blockquote", "body", "caption", "center",
   "col", "colgroup", "dd", "details", "dialog", "dir", "div", "dl", "dt", "fieldset",
   "figcaption", "figure", "footer", "form", "frame", "frameset", "h1", "h2", "h3", "h4", "h5",
   "h6", "head", "header", "hr", "html", "iframe", "legend", "li", "link", "main", "menu",
   "menuitem", "nav", "noframes", "ol", "optgroup", "option", "p", "param", "search", "section",
   "summary", "table", "tbody", "td", "tfoot", "th", "thead", "title", "tr", "track", "ul"]

/-- What follows a word at the front, in capitals or not. -/
def afterWord? (word : String) (t : Text) : Option Text :=
  let n := word.toList.length
  if (t.take n).map Char.toLower = word.toList then some (t.drop n) else none

/-- Tags whose blocks end with their closing tag. -/
def rawTags : List String := ["pre", "style", "script", "textarea"]

/-- The mark that ends a block of raw text, for the text after an opening `<`. -/
def rawTagEnd? (t : Text) : Option Text :=
  rawTags.findSome? fun tag => do
    let rest ← afterWord? tag t
    let closes := match rest with
      | [] => true
      | c :: _ => isBlankOrEnd c || c == '>'
    if closes then some (("</" ++ tag ++ ">").toList) else none

/-- The mark that ends a comment, instruction, literal section or declaration, for the text after
an opening `<`. -/
def sectionEnd? (t : Text) : Option Text :=
  if Text.hasPrefix "!--".toList t then some "-->".toList
  else if Text.hasPrefix "?".toList t then some "?>".toList
  else if Text.hasPrefix "![CDATA[".toList t then some "]]>".toList
  else match t with
    | '!' :: c :: _ => if c.isAlpha then some ['>'] else none
    | _ => none

/-- Whether one of the block tags stands here; the text begins after `<`. -/
def isBlockTag (t : Text) : Bool :=
  let t := match t with
    | '/' :: rest => rest
    | _ => t
  let name := t.takeWhile Char.isAlphanum
  blockTags.contains (String.ofList (name.map Char.toLower)) &&
    match t.drop name.length with
    | [] => true
    | '/' :: '>' :: _ => true
    | c :: _ => c == ' ' || c == '\t' || c == '\r' || c == '\n' || c == '>'

/-! ## Tags -/

/-- Passes over blanks and, where allowed, line ends. -/
def skipTagBlanks (multiline : Bool) (t : Text) : Text :=
  t.dropWhile (if multiline then isBlankOrEnd else isBlankChar)

/-- Characters of the value of an attribute without quotes. -/
def isBareValueChar (c : Char) : Bool :=
  !(c == '\'' || c == '"' || c == ' ' || c == '=' || c == '>' || c == '<' || c == '\x60' ||
    c == '\n' || c == '\r')

/-- What follows the value of an attribute. -/
def afterValue? (multiline : Bool) (t : Text) : Option Text :=
  match t with
  | [] => none
  | c :: rest =>
    if c = '"' ∨ c = '\'' then
      let value := rest.takeWhile (· != c)
      match rest.drop value.length with
      | [] => none
      | _ :: after => if !multiline && value.any isLineEndChar then none else some after
    else if isBareValueChar c then some (t.dropWhile isBareValueChar)
    else none

def isAttributeStart (c : Char) : Bool := c.isAlpha || c == '_' || c == ':'

def isAttributeChar (c : Char) : Bool :=
  c.isAlphanum || c == '_' || c == '.' || c == ':' || c == '-'

/-- What follows an attribute. -/
def afterAttribute? (multiline : Bool) (t : Text) : Option Text :=
  match t with
  | [] => none
  | c :: rest =>
    if !isAttributeStart c then none
    else
      let named := rest.dropWhile isAttributeChar
      match skipTagBlanks multiline named with
      | '=' :: value => afterValue? multiline (skipTagBlanks multiline value)
      | _ => some named

/-- What follows the attributes of a tag: the place of its slash or of its end. -/
def afterAttributes? (multiline : Bool) : Nat → Text → Option Text
  | 0, _ => none
  | fuel + 1, t =>
    let next := skipTagBlanks multiline t
    match next with
    | [] => none
    | '/' :: _ => some next
    | '>' :: _ => some next
    | _ =>
      if next.length = t.length then none
      else (afterAttribute? multiline next).bind (afterAttributes? multiline fuel)

/-- What follows the end of a tag. -/
def afterTagEnd? (t : Text) : Option Text :=
  match t with
  | '>' :: rest => some rest
  | _ => none

/-- What follows the opening or closing tag whose text begins after `<`. -/
def htmlTag? (multiline : Bool) (t : Text) : Option Text :=
  let isNameChar (c : Char) : Bool := c.isAlphanum || c == '-'
  match t with
  | '/' :: c :: rest =>
    if c.isAlpha then afterTagEnd? (skipBlanks (rest.dropWhile isNameChar)) else none
  | c :: rest =>
    if c.isAlpha then do
      let after ← afterAttributes? multiline (rest.length + 1) (rest.dropWhile isNameChar)
      match skipBlanks after with
      | '/' :: closing => afterTagEnd? closing
      | closing => afterTagEnd? closing
    else none
  | [] => none

/-- The block of HTML that a line begins, for the text after its `<`.  A lone tag of any name
begins one too, but only where no paragraph is open. -/
def HtmlBlock.opening? (insideParagraph : Bool) (t : Text) : Option HtmlBlock :=
  match (rawTagEnd? t).or (sectionEnd? t) with
  | some mark => some (.until mark)
  | none =>
    if isBlockTag t then some .paragraph
    else if insideParagraph then none
    else match htmlTag? false t with
      | some rest => if isBlankLine rest then some .paragraph else none
      | none => none

/-! ## Inside a paragraph -/

/-- What follows the first occurrence of a mark. -/
def afterMark? (mark : Text) : Text → Option Text
  | [] => none
  | c :: rest =>
    if Text.hasPrefix mark (c :: rest) then some ((c :: rest).drop mark.length)
    else afterMark? mark rest

/-- What follows a comment, after its two opening dashes. -/
def afterComment? (t : Text) : Option Text :=
  match t with
  | '>' :: rest => some rest
  | '-' :: '>' :: rest => some rest
  | _ => afterMark? "-->".toList t

/-- What follows the piece of HTML whose text begins after `<`. -/
def inlineHtml? (t : Text) : Option Text :=
  match t with
  | '!' :: '-' :: '-' :: rest => afterComment? rest
  | '!' :: '[' :: rest =>
    if Text.hasPrefix "CDATA[".toList rest then afterMark? "]]>".toList (rest.drop 6) else none
  | '!' :: c :: rest => if c.isAlpha then afterMark? ['>'] rest else none
  | '!' :: [] => none
  | '?' :: rest => afterMark? "?>".toList rest
  | _ => htmlTag? true t

end Outline.Markdown

import Outline.Text.Char

/-!
# Text as a list of characters

Everything that reads a file works on its characters in order.  Positions inside a text are
counts of characters; where an input or an answer counts bytes of the UTF-8 form, the functions
of `Text.Bytes` convert.

* `Text.trim`, `Text.isBlank`: white space at the ends.
* `Text.splitOn`, `Text.splitWhere`: the pieces between separators, at least one.
* `Text.wordCount`: the number of runs of characters that are not blank.
* `Text.hasPrefix`, `Text.contains`, `Text.join`.
-/

namespace Outline

/-- A piece of text. -/
abbrev Text := List Char

namespace Text

/-- Without white space at the front. -/
def trimStart (t : Text) : Text := t.dropWhile isSpace

/-- Without white space at the end. -/
def trimEnd (t : Text) : Text := (t.reverse.dropWhile isSpace).reverse

/-- Without white space at either end. -/
def trim (t : Text) : Text := trimEnd (trimStart t)

/-- Whether there is nothing but white space. -/
def isBlank (t : Text) : Bool := t.all isSpace

/-- The pieces between the characters that satisfy `p`; one piece more than there are such
characters. -/
def splitWhere (p : Char → Bool) : Text → List Text
  | [] => [[]]
  | c :: cs =>
    if p c then [] :: splitWhere p cs
    else match splitWhere p cs with
      | [] => [[c]]
      | piece :: rest => (c :: piece) :: rest

/-- The pieces between the occurrences of a character. -/
def splitOn (c : Char) (t : Text) : List Text := splitWhere (· == c) t

/-- The number of maximal runs of characters that are not white space. -/
def wordCount (t : Text) : Nat :=
  ((splitWhere isSpace t).filter fun piece => !piece.isEmpty).length

/-- Whether the text begins with `p`. -/
def hasPrefix (p t : Text) : Bool := p.isPrefixOf t

/-- Whether the text ends with `p`. -/
def hasSuffix (p t : Text) : Bool := p.reverse.isPrefixOf t.reverse

/-- Whether `p` occurs in the text. -/
def contains (p : Text) : Text → Bool
  | [] => p.isEmpty
  | c :: cs => hasPrefix p (c :: cs) || contains p cs

/-- The number of line feeds. -/
def newlines (t : Text) : Nat := t.count '\n'

/-- Texts with a line feed between each two. -/
def joinLines (lines : List Text) : Text := List.intercalate ['\n'] lines

end Text

/-- Without white space at either end. -/
def trimmed (s : String) : String := String.ofList (Text.trim s.toList)

/-- Whether there is nothing but white space. -/
def isBlank (s : String) : Bool := Text.isBlank s.toList

/-- The text in lower case, for comparison with names written in ASCII. -/
def folded (s : String) : String := String.ofList (s.toList.map foldCase)

/-- A whole number in decimal digits. -/
def decimal (n : Nat) : String := String.ofList (Nat.toDigits 10 n)

end Outline

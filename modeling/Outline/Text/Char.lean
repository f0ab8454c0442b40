import Outline.Text.Table.Alphabetic
import Outline.Text.Table.Folding
import Outline.Text.Table.Numeric
import Outline.Text.Table.Punctuation
import Outline.Text.Table.Uppercase
import Outline.Text.Table.Word

/-!
# Classes of characters

Source files are Unicode, so "blank", "letter" and "word character" mean the Unicode classes.
Each class answers for ASCII directly and looks into its table for the rest.

* `isSpace`: white space, the class that trimming and indentation go by.
* `isWord`: what may stand in a name; a word boundary is a change of this class.
* `isAlphabetic`, `isAlphanumeric`, `isUppercase`, `isPunctuation`.
* `foldCase`: lower case, as far as it matters for names written in ASCII.
* `caseFolding`: what a character becomes where case does not count at all.
-/

namespace Outline

open CharTable

/-- Whether a code point lies in one of the ranges. -/
def inRanges (ranges : List (Nat × Nat)) (n : Nat) : Bool :=
  ranges.any fun r => r.1 ≤ n && n ≤ r.2

/-- Unicode white space. -/
def isSpace (c : Char) : Bool :=
  let n := c.toNat
  (9 ≤ n && n ≤ 13) || n == 32 || n == 133 || n == 160 || n == 5760 ||
    (8192 ≤ n && n ≤ 8202) || n == 8232 || n == 8233 || n == 8239 || n == 8287 || n == 12288

/-- A letter, mark, decimal digit, connector or join control. -/
def isWord (c : Char) : Bool :=
  if c.toNat < 128 then c.isAlphanum || c == '_' else inRanges wordRanges c.toNat

/-- A character with the alphabetic property. -/
def isAlphabetic (c : Char) : Bool :=
  if c.toNat < 128 then c.isAlpha else inRanges alphabeticRanges c.toNat

/-- An alphabetic or numeric character. -/
def isAlphanumeric (c : Char) : Bool :=
  if c.toNat < 128 then c.isAlphanum
  else inRanges alphabeticRanges c.toNat || inRanges numericRanges c.toNat

/-- A character with the upper-case property. -/
def isUppercase (c : Char) : Bool :=
  if c.toNat < 128 then c.isUpper
  else uppercaseRuns.any fun (lo, hi, step) =>
    lo ≤ c.toNat && c.toNat ≤ hi && (c.toNat - lo) % step == 0

/-- An ASCII punctuation character. -/
def isAsciiPunctuation (c : Char) : Bool :=
  let n := c.toNat
  (33 ≤ n && n ≤ 47) || (58 ≤ n && n ≤ 64) || (91 ≤ n && n ≤ 96) || (123 ≤ n && n ≤ 126)

/-- Punctuation or a symbol. -/
def isPunctuation (c : Char) : Bool :=
  if c.toNat < 128 then isAsciiPunctuation c else inRanges punctuationRanges c.toNat

/-- Lower case for comparison with a name written in ASCII: besides the capital letters only the
Kelvin sign has an ASCII lower case, and every other character is unequal to an ASCII one before
and after. -/
def foldCase (c : Char) : Char :=
  if c.toNat == 0x212A then 'k' else c.toLower

/-- What a character becomes when texts are compared without regard to case: one character, or
the two or three that a ligature stands for. -/
def caseFolding (c : Char) : List Char :=
  let n := c.toNat
  if n < 128 then [c.toLower]
  else match foldingExpansions.lookup n with
    | some parts => parts.map Char.ofNat
    | none =>
      match foldingRuns.find? fun (lo, hi, step, _) => lo ≤ n && n ≤ hi && (n - lo) % step == 0 with
      | some (lo, _, _, target) => [Char.ofNat (target + (n - lo))]
      | none => [c]

end Outline

import Outline.Text.Basic

/-!
# Issues

What can be wrong with the form of a text, and the wording of each fault.
-/

namespace Outline

/-- A fault in the form of a text. -/
inductive IssueCause where
  /-- Something that had to be there is not. -/
  | missing (kind : String)
  | unexpected (text : String)
  /-- A closing bracket meets an opening one of another sort. -/
  | mismatched (closing opening : Char) (openLine : Nat)
  | unclosed (opening : Char)
  deriving DecidableEq, Repr

/-- A fault with its place, line and column counted from one. -/
structure Issue where
  line : Nat
  column : Nat
  cause : IssueCause
  deriving DecidableEq, Repr

/-- A text between backquotes. -/
def inBackquotes (s : String) : String := "\x60" ++ s ++ "\x60"

/-- The wording of a fault. -/
def IssueCause.message : IssueCause → String
  | .missing kind => "missing " ++ inBackquotes kind
  | .unexpected text => "unexpected " ++ inBackquotes text
  | .mismatched closing opening line =>
    inBackquotes (String.singleton closing) ++ " does not close " ++
      inBackquotes (String.singleton opening) ++ " from line " ++ decimal line
  | .unclosed opening => "unclosed " ++ inBackquotes (String.singleton opening)

/-- By place. -/
def Issue.le (a b : Issue) : Bool :=
  a.line < b.line || (a.line == b.line && a.column ≤ b.column)

end Outline

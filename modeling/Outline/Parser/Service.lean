import Outline.Tree.Basic

/-!
# Parser services

Syntax trees come from outside.  A parser service says which languages it reads and turns a text
into a tree, or says why it cannot.  It may also break off without saying anything; whoever calls
it has to live with that, so breaking off is one more way of giving no tree.

* `ParseError`: why there is no tree.
* `ParserService`: the service.
-/

namespace Outline

/-- Why there is no tree. -/
inductive ParseError where
  | unsupportedLanguage (language : String)
  | grammar (reason : String)
  | failed (reason : String)
  /-- The parser broke off; there is nothing to report. -/
  | panicked
  deriving DecidableEq, Repr

namespace ParseError

/-- The wording of an error. -/
def message : ParseError → String
  | .unsupportedLanguage language => "unsupported language: " ++ language
  | .grammar reason => "grammar setup failed: " ++ reason
  | .failed reason => "parse failed: " ++ reason
  | .panicked => ""

end ParseError

/-- A source of syntax trees. -/
structure ParserService where
  parse : Text → String → Except ParseError SyntaxTree
  /-- The language of a file, by its path. -/
  detect? : String → Option String
  supports : String → Bool

end Outline

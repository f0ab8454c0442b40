import Outline.Extraction.Tree
import Outline.Parser.Service

/-!
# Extraction

A tree is better than patterns, so the tree is tried first.  When there is no parser, when it
does not read the language or cannot read the text, and when nothing is found in its tree, the
patterns decide.

* `treeOf?`: the tree that a parser gives for a text.
* `extractAll`: the structures of a text.
-/

namespace Outline

/-- The tree that a parser gives for a text, if it reads the language. -/
def treeOf? (parser : Option ParserService) (content : Text) (language : String) :
    Option SyntaxTree :=
  match parser with
  | none => none
  | some p => if p.supports language then (p.parse content language).toOption else none

/-- The structures of a text from its tree, if there are any. -/
def extractByTree? (parser : Option ParserService) (maxDepth : Nat) (content : Text)
    (language : String) : Option Extraction := do
  let tree ← treeOf? parser content language
  let found ← (extractTree maxDepth content language tree).toOption
  if found.topLevel.isEmpty then none else some { found with tree := some tree }

/-- The structures of a text. -/
def extractAll (parser : Option ParserService) (maxDepth : Nat) (content : Text)
    (language : String) (reader : Text → List Markdown.Heading := Markdown.headings) :
    Extraction :=
  (extractByTree? parser maxDepth content language).getD (extractText content language reader)

end Outline

import Outline.Language.Part

/-!
# Languages without an entry

The patterns tried on a file whose language is not known.
-/

namespace Outline.Language

open Pattern PatternRule

/-- Declarations that look alike in many languages. -/
def genericDeclarations : List PatternRule := [
  rule .function 70 <| chain [lineStart, exported, asynchronous, "function", gap,
    captured dollarName],
  rule .function 70 <| chain [lineStart, asynchronous, "def", gap, captured identifier],
  rule .function 70 <| chain [lineStart, opt (chain ["pub", gap]), "fn", gap, captured identifier],
  rule .function 70 <| chain [lineStart, "func", gap, opt (chain [arguments, blanks]),
    captured identifier],
  rule .classDecl 70 <| chain [lineStart, exported, opt (chain ["public", gap]),
    opt (chain ["abstract", gap]), "class", gap, captured dollarName],
  rule .interface 70 <| chain [lineStart, exported, opt (chain ["public", gap]), "interface", gap,
    captured dollarName]]

/-- Statements that look alike in many languages. -/
def genericStatements : List PatternRule := [
  statement .controlFlow .medium 60 <| chain [lineStart, blanks, elseBefore, captured (words ["if",
    "for", "while", "switch", "try"]), boundary],
  statement .returnStmt .high 70 <| chain [lineStart, blanks, "return", boundary]]

/-- Text rules for files whose language is not known. -/
def generic : Language where
  name := "generic"
  blockStyle := .braces
  heritage := .clauses
  topLevelRules := genericDeclarations
  internalRules := genericStatements

end Outline.Language

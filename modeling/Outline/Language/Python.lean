import Outline.Language.Part

/-!
# Python

Node types and patterns of Python.
-/

namespace Outline.Language

open Pattern PatternRule

/-- Declarations at the start of a line. -/
def pythonDeclarations : List PatternRule := [
  rule .function 90 <| chain [lineStart, asynchronous, "def", gap, captured identifier],
  rule .classDecl 90 <| chain [lineStart, "class", gap, captured identifier],
  rule .importDecl 90 <| chain [lineStart, oneOf [chain ["from", gap, captured (many1 (wordOr ".")),
    gap, "import", boundary], chain ["import", gap, .group 2 (many1 (wordOr "."))]]],
  rule .constantDecl 75 <| chain [lineStart, captured (chain [capital,
    many (capitalOr "0123456789_")]), blanks, annotated, "=", except "="],
  rule .variableDecl 70 <| chain [lineStart, captured (chain [smallOr "_", many word]), blanks,
    annotated, "=", except "="]]

/-- Declarations inside a body. -/
def pythonMembers : List PatternRule := [
  rule .function 85 <| chain [lineStart, gap, asynchronous, "def", gap, captured identifier],
  rule .classDecl 80 <| chain [lineStart, gap, "class", gap, captured identifier]]

/-- Statements inside a function. -/
def pythonStatements : List PatternRule := [
  statement .variableDecl .low 70 <| chain [lineStart, gap, captured (chain [letterOr "_",
    many (wordOr ".")]), blanks, annotated, opt (among "+-*/"), "=", except "="],
  statement .controlFlow .medium 75 <| chain [lineStart, gap, captured (words ["if", "elif", "for",
    "while", "try", "with", "match"]), boundary],
  statement .returnStmt .high 80 <| chain [lineStart, gap, "return", boundary],
  statement .throwStmt .high 80 <| chain [lineStart, gap, "raise", boundary]]

/-- The language Python. -/
def python : Language where
  name := "python"
  aliases := ["py", "python3"]
  extensions := ["py", "pyi"]
  blockStyle := .indentation
  heritage := .argumentList
  refinement := .capitals
  hashComments := true
  nodes := {
    topLevel := [
      (.function, ["function_definition"]),
      (.classDecl, ["class_definition"]),
      (.importDecl, ["import_statement", "import_from_statement"]),
      (.variableDecl, ["assignment"])]
    nested := [
      (.function, ["function_definition"]),
      (.classDecl, ["class_definition"])]
    internal := [
      (.variableDecl, .low, ["assignment", "augmented_assignment"]),
      (.controlFlow, .medium, ["if_statement", "for_statement", "while_statement", "try_statement",
        "with_statement", "match_statement"]),
      (.returnStmt, .high, ["return_statement"]),
      (.throwStmt, .high, ["raise_statement"])]
    nameFields := [("assignment", ["left"]), ("augmented_assignment", ["left"]),
      ("import_from_statement", ["module_name"])]
    controlFlow := ["if_statement", "elif_clause", "while_statement", "for_statement",
      "except_clause", "conditional_expression", "match_statement", "case_clause"]
    nesting := ["if_statement", "for_statement", "while_statement", "try_statement",
      "with_statement", "match_statement"]
    calls := ["call"] }
  topLevelRules := pythonDeclarations
  nestedRules := pythonMembers
  internalRules := pythonStatements

end Outline.Language

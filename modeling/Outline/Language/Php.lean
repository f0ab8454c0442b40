import Outline.Language.Part

/-!
# PHP

Node types and patterns of PHP.
-/

namespace Outline.Language

open Pattern PatternRule

/-- Declarations at the start of a line. -/
def phpDeclarations : List PatternRule := [
  rule .namespaceDecl 90 <| chain [lineStart, "namespace", gap, captured (many1 (wordOr "\\"))],
  rule .importDecl 85 <| chain [lineStart, "use", gap, captured (many1 (wordOr "\\"))],
  rule .classDecl 90 <| chain [lineStart, modifiers ["abstract", "final", "readonly"], "class", gap,
    captured wordRun],
  rule .interface 90 <| chain [lineStart, "interface", gap, captured wordRun],
  rule .trait 90 <| chain [lineStart, "trait", gap, captured wordRun],
  rule .function 90 <| chain [lineStart, "function", gap, captured wordRun]]

/-- Declarations inside a body. -/
def phpMembers : List PatternRule := [
  rule .method 85 <| chain [lineStart, gap, modifiers ["public", "private", "protected", "static",
    "abstract", "final"], "function", gap, captured wordRun]]

/-- Statements inside a function. -/
def phpStatements : List PatternRule := [
  statement .variableDecl .low 70 <| chain [lineStart, gap, "$", captured wordRun, blanks, "=",
    except "="],
  statement .controlFlow .medium 75 <| chain [lineStart, blanks, opt (chain ["\x7d", blanks, "else",
    blanks]), captured (words ["if", "for", "foreach", "while", "switch", "try"]), boundary],
  statement .returnStmt .high 80 <| chain [lineStart, blanks, "return", boundary],
  statement .throwStmt .high 80 <| chain [lineStart, blanks, "throw", boundary]]

/-- The language PHP. -/
def php : Language where
  name := "php"
  extensions := ["php"]
  blockStyle := .braces
  heritage := .clauses
  nodes := {
    topLevel := [
      (.classDecl, ["class_declaration"]),
      (.interface, ["interface_declaration"]),
      (.trait, ["trait_declaration"]),
      (.function, ["function_definition"]),
      (.namespaceDecl, ["namespace_definition"]),
      (.importDecl, ["namespace_use_declaration"])]
    nested := [
      (.method, ["method_declaration"]),
      (.variableDecl, ["property_declaration"])]
    internal := [
      (.variableDecl, .low, ["assignment_expression"]),
      (.controlFlow, .medium, ["if_statement", "for_statement", "foreach_statement",
        "while_statement", "switch_statement", "try_statement"]),
      (.returnStmt, .high, ["return_statement"]),
      (.throwStmt, .high, ["throw_expression"])]
    controlFlow := ["if_statement", "for_statement", "foreach_statement", "while_statement",
      "switch_statement", "case_statement", "catch_clause", "conditional_expression"]
    nesting := ["if_statement", "for_statement", "while_statement", "do_statement",
      "switch_statement", "try_statement"]
    calls := ["function_call_expression", "member_call_expression"] }
  topLevelRules := phpDeclarations
  nestedRules := phpMembers
  internalRules := phpStatements

end Outline.Language

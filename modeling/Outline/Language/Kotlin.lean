import Outline.Language.Part

/-!
# Kotlin

Node types and patterns of Kotlin.
-/

namespace Outline.Language

open Pattern PatternRule

/-- Declarations at the start of a line. -/
def kotlinDeclarations : List PatternRule := [
  rule .moduleDecl 90 <| chain [lineStart, "package", gap, captured (many1 (wordOr "."))],
  rule .importDecl 90 <| chain [lineStart, "import", gap, captured (many1 (wordOr ".*"))],
  rule .interface 90 <| chain [lineStart, modifiers ["public", "internal", "private", "sealed",
    "fun"], "interface", gap, captured wordRun],
  rule .classDecl 90 <| chain [lineStart, modifiers ["data", "sealed", "abstract", "open", "enum",
    "inner", "annotation", "value", "private", "internal", "public"], words ["class", "object"],
    gap, captured wordRun],
  rule .function 90 <| chain [lineStart, modifiers ["private", "internal", "public", "suspend",
    "inline", "operator", "infix", "tailrec"], "fun", gap, opt (chain ["<", many (except ">\n"),
    ">", blanks]), opt (chain [many1 (wordOr "."), "."]), captured wordRun],
  rule .constantDecl 80 <| chain [lineStart, modifiers ["private", "internal", "public"], "const",
    gap, "val", gap, captured wordRun],
  rule .variableDecl 70 <| chain [lineStart, modifiers ["private", "internal", "public"],
    words ["val", "var"], gap, captured wordRun]]

/-- Declarations inside a body. -/
def kotlinMembers : List PatternRule := [
  rule .function 85 <| chain [lineStart, gap, modifiers ["private", "internal", "public",
    "protected", "override", "open", "suspend", "inline", "abstract"], "fun", gap, opt (chain ["<",
    many (except ">\n"), ">", blanks]), opt (chain [many1 (wordOr "."), "."]), captured wordRun],
  rule .classDecl 80 <| chain [lineStart, gap, modifiers ["data", "sealed", "abstract", "open",
    "enum", "inner", "private", "internal", "public", "companion"], words ["class", "object"], gap,
    captured wordRun]]

/-- Statements inside a function. -/
def kotlinStatements : List PatternRule := [
  statement .variableDecl .low 75 <| chain [lineStart, gap, words ["val", "var"], gap,
    captured wordRun],
  statement .controlFlow .medium 75 <| chain [lineStart, blanks, elseBefore, captured (words ["if",
    "when", "for", "while", "try"]), boundary],
  statement .returnStmt .high 80 <| chain [lineStart, blanks, "return", boundary],
  statement .throwStmt .high 80 <| chain [lineStart, blanks, "throw", boundary]]

/-- The language Kotlin. -/
def kotlin : Language where
  name := "kotlin"
  aliases := ["kt"]
  extensions := ["kt", "kts"]
  blockStyle := .braces
  heritage := .colonList
  charLiterals := true
  nodes := {
    topLevel := [
      (.classDecl, ["class_declaration", "object_declaration"]),
      (.function, ["function_declaration"]),
      (.typeDecl, ["type_alias"]),
      (.importDecl, ["import_header", "import"]),
      (.moduleDecl, ["package_header"]),
      (.variableDecl, ["property_declaration"])]
    nested := [
      (.function, ["function_declaration"]),
      (.classDecl, ["class_declaration", "object_declaration", "companion_object"]),
      (.variableDecl, ["property_declaration"])]
    internal := [
      (.variableDecl, .low, ["property_declaration"]),
      (.controlFlow, .medium, ["if_expression", "when_expression", "for_statement",
        "while_statement", "try_expression"]),
      (.returnStmt, .high, ["jump_expression"])]
    controlFlow := ["if_expression", "when_expression", "when_entry", "for_statement",
      "while_statement", "do_while_statement", "catch_block"]
    nesting := ["if_expression", "when_expression", "for_statement", "while_statement",
      "do_while_statement", "try_expression"]
    calls := ["call_expression"] }
  topLevelRules := kotlinDeclarations
  nestedRules := kotlinMembers
  internalRules := kotlinStatements

end Outline.Language

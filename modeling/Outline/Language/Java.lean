import Outline.Language.Part

/-!
# Java

Node types and patterns of Java.
-/

namespace Outline.Language

open Pattern PatternRule

/-- Declarations at the start of a line. -/
def javaDeclarations : List PatternRule := [
  rule .classDecl 90 <| chain [lineStart, modifiers ["public", "private", "protected", "abstract",
    "final", "static", "sealed", "non-sealed", "strictfp"], "class", gap, captured wordRun],
  rule .interface 90 <| chain [lineStart, modifiers ["public", "private", "protected", "abstract",
    "sealed", "static"], opt "@", "interface", gap, captured wordRun],
  rule .enum 90 <| chain [lineStart, modifiers ["public", "private", "protected", "static"], "enum",
    gap, captured wordRun],
  rule .classDecl 85 <| chain [lineStart, modifiers ["public", "private", "protected", "static",
    "final"], "record", gap, captured wordRun],
  rule .importDecl 90 <| chain [lineStart, "import", gap, opt (chain ["static", gap]),
    captured (chain [many1 (wordOr "."), opt ".*"]), blanks, ";"],
  rule .moduleDecl 90 <| chain [lineStart, "package", gap, captured (many1 (wordOr ".")), blanks,
    ";"]]

/-- The language Java. -/
def java : Language where
  name := "java"
  extensions := ["java"]
  blockStyle := .braces
  heritage := .clauses
  charLiterals := true
  nodes := {
    topLevel := [
      (.classDecl, ["class_declaration", "record_declaration"]),
      (.interface, ["interface_declaration", "annotation_type_declaration"]),
      (.enum, ["enum_declaration"]),
      (.importDecl, ["import_declaration"]),
      (.moduleDecl, ["package_declaration"])]
    nested := [
      (.method, ["method_declaration", "constructor_declaration"]),
      (.classDecl, ["class_declaration", "record_declaration"]),
      (.interface, ["interface_declaration"]),
      (.enum, ["enum_declaration"]),
      (.variableDecl, ["field_declaration"])]
    internal := [
      (.variableDecl, .low, ["local_variable_declaration"]),
      (.controlFlow, .medium, ["if_statement", "for_statement", "enhanced_for_statement",
        "while_statement", "do_statement", "switch_expression", "try_statement"]),
      (.returnStmt, .high, ["return_statement"]),
      (.throwStmt, .high, ["throw_statement"])]
    nameFields := [("field_declaration", ["declarator"]), ("local_variable_declaration",
      ["declarator"])]
    controlFlow := ["if_statement", "for_statement", "enhanced_for_statement", "while_statement",
      "do_statement", "switch_expression", "switch_label", "catch_clause", "ternary_expression"]
    nesting := ["if_statement", "for_statement", "enhanced_for_statement", "while_statement",
      "do_statement", "switch_expression", "try_statement"]
    calls := ["method_invocation"] }
  topLevelRules := javaDeclarations
  nestedRules := memberRules
  internalRules := typedStatementRules

end Outline.Language

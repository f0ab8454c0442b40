import Outline.Language.Part

/-!
# C#

Node types and patterns of C#.
-/

namespace Outline.Language

open Pattern PatternRule

/-- Declarations at the start of a line. -/
def csharpDeclarations : List PatternRule := [
  rule .importDecl 90 <| chain [lineStart, "using", gap, opt (chain ["static", gap]),
    captured (many1 (wordOr ".")), blanks, ";"],
  rule .namespaceDecl 90 <| chain [lineStart, "namespace", gap, captured (many1 (wordOr "."))],
  rule .classDecl 85 <| chain [lineStart, blanks, modifiers ["public", "private", "protected",
    "internal", "static", "abstract", "sealed", "partial"], words ["class", "record"], gap,
    captured wordRun],
  rule .interface 85 <| chain [lineStart, blanks, modifiers ["public", "private", "protected",
    "internal", "partial"], "interface", gap, captured wordRun],
  rule .struct 85 <| chain [lineStart, blanks, modifiers ["public", "private", "protected",
    "internal", "readonly", "partial"], "struct", gap, captured wordRun],
  rule .enum 85 <| chain [lineStart, blanks, modifiers ["public", "private", "protected",
    "internal"], "enum", gap, captured wordRun]]

/-- The language C#. -/
def csharp : Language where
  name := "csharp"
  aliases := ["c#", "cs"]
  extensions := ["cs"]
  blockStyle := .braces
  heritage := .colonList
  charLiterals := true
  nodes := {
    topLevel := [
      (.namespaceDecl, ["namespace_declaration", "file_scoped_namespace_declaration"]),
      (.classDecl, ["class_declaration", "record_declaration"]),
      (.interface, ["interface_declaration"]),
      (.struct, ["struct_declaration"]),
      (.enum, ["enum_declaration"]),
      (.importDecl, ["using_directive"])]
    nested := [
      (.method, ["method_declaration", "constructor_declaration"]),
      (.variableDecl, ["property_declaration", "field_declaration"]),
      (.classDecl, ["class_declaration"]),
      (.interface, ["interface_declaration"]),
      (.struct, ["struct_declaration"]),
      (.enum, ["enum_declaration"])]
    internal := [
      (.variableDecl, .low, ["local_declaration_statement"]),
      (.controlFlow, .medium, ["if_statement", "for_statement", "foreach_statement",
        "while_statement", "do_statement", "switch_statement", "try_statement"]),
      (.returnStmt, .high, ["return_statement"]),
      (.throwStmt, .high, ["throw_statement", "throw_expression"])]
    controlFlow := ["if_statement", "for_statement", "foreach_statement", "while_statement",
      "do_statement", "switch_statement", "switch_section", "catch_clause",
      "conditional_expression"]
    nesting := ["if_statement", "for_statement", "foreach_statement", "while_statement",
      "do_statement", "switch_statement", "try_statement"]
    calls := ["invocation_expression"] }
  topLevelRules := csharpDeclarations
  nestedRules := memberRules
  internalRules := typedStatementRules

end Outline.Language

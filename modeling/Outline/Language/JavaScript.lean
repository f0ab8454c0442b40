import Outline.Language.Part

/-!
# JavaScript

Node types and patterns of JavaScript.
-/

namespace Outline.Language

open Pattern PatternRule

/-- Declarations at the start of a line. -/
def javascriptDeclarations : List PatternRule := [
  rule .function 90 <| chain [lineStart, exportedDefault, asynchronous, "function", blanks, opt "*",
    blanks, captured dollarName],
  rule .function 85 <| chain [lineStart, exported, words ["const", "let", "var"], gap,
    captured dollarName, blanks, annotated, "=", blanks, asynchronous, oneOf [chain ["function",
    boundary], chain [arguments, blanks, annotated, "=>"], chain [dollarName, blanks, "=>"]]],
  rule .classDecl 90 <| chain [lineStart, exportedDefault, opt (chain ["abstract", gap]), "class",
    gap, captured dollarName],
  rule .importDecl 90 <| chain [lineStart, "import", gap, opt (chain ["type", gap]),
    opt (chain [fewest (except "'\"\n;"), gap, "from", gap]), among "'\"",
    captured (many1 (except "'\"\n")), among "'\""],
  rule .constantDecl 75 <| chain [lineStart, exported, "const", gap, captured dollarName],
  rule .variableDecl 70 <| chain [lineStart, exported, words ["let", "var"], gap,
    captured dollarName]]

/-- Functions and methods inside a body. -/
def javascriptMembers : List PatternRule := [
  rule .function 80 <| chain [lineStart, gap, asynchronous, "function", blanks, opt "*", blanks,
    captured dollarName],
  rule .method 80 <| chain [lineStart, gap, modifiers ["public", "private", "protected", "static",
    "async", "readonly", "override", "abstract", "get", "set"], opt "*", captured dollarName,
    blanks, opt (chain ["<", many (except ">\n"), ">"]), blanks, arguments, blanks, opt (chain [":",
    many1 (except "\x7b;\n")]), "\x7b"]]

/-- The language JavaScript. -/
def javascript : Language where
  name := "javascript"
  aliases := ["js", "jsx", "node"]
  extensions := ["js", "jsx", "mjs", "cjs"]
  blockStyle := .braces
  heritage := .clauses
  refinement := .declarator
  nodes := {
    topLevel := [
      (.function, ["function_declaration", "generator_function_declaration"]),
      (.classDecl, ["class_declaration"]),
      (.variableDecl, ["lexical_declaration", "variable_declaration"]),
      (.importDecl, ["import_statement"]),
      (.exportDecl, ["export_statement"])]
    nested := [
      (.method, ["method_definition", "method_signature", "abstract_method_signature"]),
      (.function, ["function_declaration", "generator_function_declaration"]),
      (.classDecl, ["class_declaration"]),
      (.variableDecl, ["field_definition", "public_field_definition", "property_signature"])]
    internal := [
      (.variableDecl, .low, ["lexical_declaration", "variable_declaration"]),
      (.controlFlow, .medium, ["if_statement", "for_statement", "for_in_statement",
        "while_statement", "do_statement", "switch_statement", "try_statement"]),
      (.returnStmt, .high, ["return_statement"]),
      (.throwStmt, .high, ["throw_statement"])]
    nameFields := [("export_statement", ["declaration"]), ("import_statement", ["source"])]
    controlFlow := ["if_statement", "while_statement", "for_statement", "for_in_statement",
      "do_statement", "switch_statement", "switch_case", "catch_clause", "ternary_expression"]
    nesting := ["if_statement", "while_statement", "for_statement", "for_in_statement",
      "do_statement", "switch_statement", "try_statement", "catch_clause"]
    calls := ["call_expression"] }
  topLevelRules := javascriptDeclarations
  nestedRules := javascriptMembers
  internalRules := letStatementRules

end Outline.Language

import Outline.Language.Part

/-!
# Go

Node types and patterns of Go.
-/

namespace Outline.Language

open Pattern PatternRule

/-- Declarations at the start of a line. -/
def goDeclarations : List PatternRule := [
  rule .method 90 <| chain [lineStart, "func", blanks, arguments, blanks, captured identifier],
  rule .function 90 <| chain [lineStart, "func", gap, captured identifier],
  rule .struct 90 <| chain [lineStart, "type", gap, captured identifier, gap, "struct", boundary],
  rule .interface 90 <| chain [lineStart, "type", gap, captured identifier, gap, "interface",
    boundary],
  rule .typeDecl 75 <| chain [lineStart, "type", gap, captured identifier],
  rule .importDecl 85 <| chain [lineStart, "import", blanks, oneOf ["(", chain [opt (chain [wordRun,
    gap]), "\"", captured (many1 (except "\"\n")), "\""]]],
  rule .constantDecl 80 <| chain [lineStart, "const", gap, captured identifier],
  rule .variableDecl 75 <| chain [lineStart, "var", gap, captured identifier]]

/-- Declarations inside a body. -/
def goMembers : List PatternRule := [
  rule .method 70 <| chain [lineStart, gap, captured (chain [capital, many word]), blanks,
    arguments]]

/-- Statements inside a function. -/
def goStatements : List PatternRule := [
  statement .variableDecl .low 75 <| chain [lineStart, gap, captured identifier,
    many (chain [blanks, ",", blanks, identifier]), blanks, ":="],
  statement .variableDecl .low 75 <| chain [lineStart, gap, "var", gap, captured identifier],
  statement .controlFlow .medium 75 <| chain [lineStart, blanks, elseBefore, captured (words ["if",
    "for", "switch", "select"]), boundary],
  statement .returnStmt .high 80 <| chain [lineStart, blanks, "return", boundary]]

/-- The language Go. -/
def go : Language where
  name := "go"
  aliases := ["golang"]
  extensions := ["go"]
  blockStyle := .braces
  refinement := .typeBody
  charLiterals := true
  nodes := {
    topLevel := [
      (.function, ["function_declaration"]),
      (.method, ["method_declaration"]),
      (.typeDecl, ["type_declaration"]),
      (.importDecl, ["import_declaration"]),
      (.constantDecl, ["const_declaration"]),
      (.variableDecl, ["var_declaration"])]
    nested := [
      (.method, ["method_elem", "method_spec"]),
      (.variableDecl, ["field_declaration"])]
    internal := [
      (.variableDecl, .low, ["short_var_declaration", "var_declaration"]),
      (.controlFlow, .medium, ["if_statement", "for_statement", "expression_switch_statement",
        "type_switch_statement", "select_statement"]),
      (.returnStmt, .high, ["return_statement"])]
    nameFields := [("short_var_declaration", ["left"])]
    controlFlow := ["if_statement", "for_statement", "expression_switch_statement",
      "type_switch_statement", "expression_case", "type_case", "communication_case"]
    nesting := ["if_statement", "for_statement", "expression_switch_statement",
      "type_switch_statement", "select_statement"]
    calls := ["call_expression"] }
  topLevelRules := goDeclarations
  nestedRules := goMembers
  internalRules := goStatements

end Outline.Language

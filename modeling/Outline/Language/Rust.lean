import Outline.Language.Part

/-!
# Rust

Node types and patterns of Rust.
-/

namespace Outline.Language

open Pattern PatternRule

/-- Declarations at the start of a line. -/
def rustDeclarations : List PatternRule := [
  rule .function 90 <| chain [lineStart, visibility, opt (chain ["const", gap]), asynchronous,
    opt (chain ["unsafe", gap]), opt (chain ["extern", gap, "\"", many (except "\"\n"), "\"", gap]),
    "fn", gap, captured identifier],
  rule .struct 90 <| chain [lineStart, visibility, words ["struct", "union"], gap,
    captured identifier],
  rule .enum 90 <| chain [lineStart, visibility, "enum", gap, captured identifier],
  rule .trait 90 <| chain [lineStart, visibility, opt (chain ["unsafe", gap]), "trait", gap,
    captured identifier],
  rule .impl 85 <| chain [lineStart, opt (chain ["unsafe", gap]), "impl", opt (chain [blanks, "<",
    many (except ">\n"), ">"]), gap, opt (chain [many1 (wordOr ":<>, "), gap, "for", gap]),
    captured identifier],
  rule .typeDecl 85 <| chain [lineStart, visibility, "type", gap, captured identifier],
  rule .moduleDecl 85 <| chain [lineStart, visibility, "mod", gap, captured identifier],
  rule .importDecl 90 <| chain [lineStart, visibility, "use", gap,
    captured (many1 (wordOr ":\x7b\x7d, *"))],
  rule .constantDecl 80 <| chain [lineStart, visibility, words ["const", "static"], gap,
    opt (chain ["mut", gap]), captured identifier]]

/-- Declarations inside a body. -/
def rustMembers : List PatternRule := [
  rule .function 85 <| chain [lineStart, gap, visibility, opt (chain ["const", gap]), asynchronous,
    opt (chain ["unsafe", gap]), opt (chain ["extern", gap, "\"", many (except "\"\n"), "\"", gap]),
    "fn", gap, captured identifier]]

/-- Statements inside a function. -/
def rustStatements : List PatternRule := [
  statement .variableDecl .low 75 <| chain [lineStart, gap, "let", gap, opt (chain ["mut", gap]),
    captured identifier],
  statement .controlFlow .medium 75 <| chain [lineStart, blanks, elseBefore, captured (words ["if",
    "match", "for", "while", "loop"]), boundary],
  statement .returnStmt .high 80 <| chain [lineStart, blanks, "return", boundary]]

/-- The language Rust. -/
def rust : Language where
  name := "rust"
  aliases := ["rs"]
  extensions := ["rs"]
  blockStyle := .braces
  heritage := .implFor
  charLiterals := true
  nodes := {
    topLevel := [
      (.function, ["function_item"]),
      (.struct, ["struct_item", "union_item"]),
      (.enum, ["enum_item"]),
      (.trait, ["trait_item"]),
      (.impl, ["impl_item"]),
      (.typeDecl, ["type_item"]),
      (.moduleDecl, ["mod_item"]),
      (.importDecl, ["use_declaration"]),
      (.constantDecl, ["const_item"]),
      (.variableDecl, ["static_item"])]
    nested := [
      (.function, ["function_item"]),
      (.method, ["function_signature_item"]),
      (.struct, ["struct_item"]),
      (.enum, ["enum_item"]),
      (.trait, ["trait_item"]),
      (.impl, ["impl_item"]),
      (.moduleDecl, ["mod_item"]),
      (.constantDecl, ["const_item"])]
    internal := [
      (.variableDecl, .low, ["let_declaration"]),
      (.controlFlow, .medium, ["if_expression", "match_expression", "for_expression",
        "while_expression", "loop_expression"]),
      (.returnStmt, .high, ["return_expression"])]
    nameFields := [("impl_item", ["type"]), ("let_declaration", ["pattern"]), ("use_declaration",
      ["argument"])]
    controlFlow := ["if_expression", "while_expression", "for_expression", "match_expression",
      "match_arm"]
    nesting := ["if_expression", "while_expression", "for_expression", "loop_expression",
      "match_expression"]
    calls := ["call_expression"] }
  topLevelRules := rustDeclarations
  nestedRules := rustMembers
  internalRules := rustStatements

end Outline.Language

import Outline.Language.Part

/-!
# Ruby

Node types and patterns of Ruby.
-/

namespace Outline.Language

open Pattern PatternRule

/-- Declarations at the start of a line. -/
def rubyDeclarations : List PatternRule := [
  rule .importDecl 90 <| chain [lineStart, "require", opt "_relative", blanks, opt "(", blanks,
    among "'\"", captured (many1 (except "'\"\n")), among "'\""],
  rule .classDecl 90 <| chain [lineStart, "class", gap, captured (chain [capital, many word,
    many (chain ["::", wordRun])])],
  rule .moduleDecl 90 <| chain [lineStart, "module", gap, captured (chain [capital, many word,
    many (chain ["::", wordRun])])],
  rule .function 85 <| chain [lineStart, "def", gap, opt "self.", captured (many1 (wordOr "?!="))]]

/-- Declarations inside a body. -/
def rubyMembers : List PatternRule := [
  rule .function 85 <| chain [lineStart, gap, "def", gap, opt "self.",
    captured (many1 (wordOr "?!="))],
  rule .classDecl 80 <| chain [lineStart, gap, "class", gap, captured (chain [capital, many word])]]

/-- Statements inside a function. -/
def rubyStatements : List PatternRule := [
  statement .variableDecl .low 70 <| chain [lineStart, gap, captured (chain [opt (chain ["@",
    opt "@"]), smallOr "_", many word]), blanks, "=", except "=~"],
  statement .controlFlow .medium 75 <| chain [lineStart, gap, captured (words ["if", "unless",
    "while", "until", "case", "begin", "for"]), boundary],
  statement .returnStmt .high 80 <| chain [lineStart, gap, "return", boundary],
  statement .throwStmt .high 80 <| chain [lineStart, gap, "raise", boundary]]

/-- The language Ruby. -/
def ruby : Language where
  name := "ruby"
  aliases := ["rb"]
  extensions := ["rb", "rake"]
  blockStyle := .endKeyword
  heritage := .angle
  hashComments := true
  nodes := {
    topLevel := [
      (.classDecl, ["class"]),
      (.moduleDecl, ["module"]),
      (.function, ["method", "singleton_method"])]
    nested := [
      (.method, ["method", "singleton_method"]),
      (.classDecl, ["class"]),
      (.moduleDecl, ["module"])]
    internal := [
      (.variableDecl, .low, ["assignment"]),
      (.controlFlow, .medium, ["if", "unless", "while", "until", "for", "case", "begin"]),
      (.returnStmt, .high, ["return"])]
    nameFields := [("assignment", ["left"])]
    controlFlow := ["if", "elsif", "unless", "while", "until", "for", "when", "rescue",
      "conditional"]
    nesting := ["if", "unless", "while", "until", "for", "case", "begin"]
    calls := ["call"] }
  topLevelRules := rubyDeclarations
  nestedRules := rubyMembers
  internalRules := rubyStatements

end Outline.Language

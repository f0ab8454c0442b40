import Outline.Language.Part

/-!
# C and C++

Node types and patterns of C and C++.
-/

namespace Outline.Language

open Pattern PatternRule

/-- Declarations of C at the start of a line. -/
def cDeclarations : List PatternRule := [
  rule .importDecl 90 <| chain [lineStart, "#", blanks, "include", blanks, among "<\"",
    captured (many1 (except ">\"\n")), among ">\""],
  rule .struct 85 <| chain [lineStart, opt (chain ["typedef", gap]), "struct", gap,
    captured wordRun],
  rule .enum 85 <| chain [lineStart, opt (chain ["typedef", gap]), "enum", gap, captured wordRun],
  rule .function 75 <| chain [lineStart, modifiers ["static", "inline", "extern", "const",
    "unsigned", "signed"], identifier, oneOf [chain [blanks, many1 "*", blanks], gap], many "*",
    captured identifier, blanks, "(", many (except ";\n"), ")", blanks, opt "\x7b", blanks,
    lineEnd]]

/-- The language C. -/
def c : Language where
  name := "c"
  aliases := ["h"]
  extensions := ["c", "h"]
  blockStyle := .braces
  charLiterals := true
  nodes := {
    topLevel := [
      (.function, ["function_definition"]),
      (.struct, ["struct_specifier", "union_specifier"]),
      (.enum, ["enum_specifier"]),
      (.typeDecl, ["type_definition"]),
      (.importDecl, ["preproc_include"]),
      (.variableDecl, ["declaration"])]
    nested := [
      (.variableDecl, ["field_declaration"])]
    internal := [
      (.variableDecl, .low, ["declaration"]),
      (.controlFlow, .medium, ["if_statement", "for_statement", "while_statement", "do_statement",
        "switch_statement", "try_statement"]),
      (.returnStmt, .high, ["return_statement"]),
      (.throwStmt, .high, ["throw_statement"])]
    nameFields := [("function_definition", ["declarator"]), ("declaration", ["declarator"]),
      ("type_definition", ["declarator"]), ("field_declaration", ["declarator"]),
      ("preproc_include", ["path"])]
    controlFlow := ["if_statement", "for_statement", "while_statement", "do_statement",
      "switch_statement", "case_statement", "catch_clause", "conditional_expression"]
    nesting := ["if_statement", "for_statement", "while_statement", "do_statement",
      "switch_statement", "try_statement"]
    calls := ["call_expression"] }
  topLevelRules := cDeclarations
  internalRules := typedStatementRules

/-- Declarations of C++ at the start of a line. -/
def cppDeclarations : List PatternRule := [
  rule .importDecl 90 <| chain [lineStart, "#", blanks, "include", blanks, among "<\"",
    captured (many1 (except ">\"\n")), among ">\""],
  rule .namespaceDecl 85 <| chain [lineStart, "namespace", gap, captured wordRun],
  rule .classDecl 85 <| chain [lineStart, opt (chain ["template", blanks, "<", many (except ">\n"),
    ">", blanks]), "class", gap, captured wordRun],
  rule .struct 85 <| chain [lineStart, opt (chain ["typedef", gap]), "struct", gap,
    captured wordRun],
  rule .enum 85 <| chain [lineStart, "enum", gap, opt (chain ["class", gap]), captured wordRun],
  rule .function 75 <| chain [lineStart, modifiers ["static", "inline", "extern", "const",
    "virtual", "constexpr", "unsigned"], letterOr "_", many (wordOr ":<>"), oneOf [chain [blanks,
    many1 (among "*&"), blanks], gap], many (among "*&"), captured (chain [letterOr "_",
    many (wordOr ":~")]), blanks, "(", many (except ";\n"), ")", blanks, opt (chain ["const",
    blanks]), opt "\x7b", blanks, lineEnd]]

/-- The language C++: C with classes. -/
def cpp : Language := { c with
  name := "cpp"
  aliases := ["c++", "cxx", "hpp"]
  extensions := ["cpp", "cc", "cxx", "hpp", "hh", "hxx"]
  heritage := .colonList
  nodes := { c.nodes with
    topLevel := [
      (.function, ["function_definition"]),
      (.classDecl, ["class_specifier"]),
      (.struct, ["struct_specifier", "union_specifier"]),
      (.enum, ["enum_specifier"]),
      (.namespaceDecl, ["namespace_definition"]),
      (.typeDecl, ["type_definition", "alias_declaration"]),
      (.importDecl, ["preproc_include", "using_declaration"]),
      (.variableDecl, ["declaration"])]
    nested := [
      (.method, ["function_definition"]),
      (.classDecl, ["class_specifier"]),
      (.struct, ["struct_specifier"]),
      (.variableDecl, ["field_declaration"])] }
  topLevelRules := cppDeclarations
  nestedRules := memberRules }

end Outline.Language

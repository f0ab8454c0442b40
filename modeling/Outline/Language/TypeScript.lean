import Outline.Language.JavaScript

/-!
# TypeScript

Node types and patterns of TypeScript.
-/

namespace Outline.Language

open Pattern PatternRule

/-- Declarations at the start of a line. -/
def typescriptDeclarations : List PatternRule := [
  rule .function 90 <| chain [lineStart, exportedDefault, declared, asynchronous, "function",
    blanks, opt "*", blanks, captured dollarName],
  rule .function 85 <| chain [lineStart, exported, words ["const", "let", "var"], gap,
    captured dollarName, blanks, annotated, "=", blanks, asynchronous, oneOf [chain ["function",
    boundary], chain [arguments, blanks, annotated, "=>"], chain [dollarName, blanks, "=>"]]],
  rule .classDecl 90 <| chain [lineStart, exportedDefault, declared, opt (chain ["abstract", gap]),
    "class", gap, captured dollarName],
  rule .interface 90 <| chain [lineStart, exported, declared, "interface", gap,
    captured dollarName],
  rule .typeDecl 85 <| chain [lineStart, exported, declared, "type", gap, captured dollarName,
    blanks, opt (chain ["<", many (except ">\n"), ">"]), blanks, "="],
  rule .enum 85 <| chain [lineStart, exported, declared, opt (chain ["const", gap]), "enum", gap,
    captured dollarName],
  rule .namespaceDecl 85 <| chain [lineStart, exported, declared, "namespace", gap,
    captured (chain [letterOr "_$", many (wordOr "$.")])],
  rule .importDecl 90 <| chain [lineStart, "import", gap, opt (chain ["type", gap]),
    opt (chain [fewest (except "'\"\n;"), gap, "from", gap]), among "'\"",
    captured (many1 (except "'\"\n")), among "'\""],
  rule .constantDecl 75 <| chain [lineStart, exported, "const", gap, captured dollarName],
  rule .variableDecl 70 <| chain [lineStart, exported, words ["let", "var"], gap,
    captured dollarName]]

/-- The language TypeScript: JavaScript with declarations of types. -/
def typescript : Language := { javascript with
  name := "typescript"
  aliases := ["ts", "tsx"]
  extensions := ["ts", "tsx", "mts", "cts"]
  nodes := { javascript.nodes with
    topLevel := [
      (.function, ["function_declaration", "generator_function_declaration", "function_signature"]),
      (.classDecl, ["class_declaration", "abstract_class_declaration"]),
      (.interface, ["interface_declaration"]),
      (.typeDecl, ["type_alias_declaration"]),
      (.enum, ["enum_declaration"]),
      (.namespaceDecl, ["internal_module"]),
      (.moduleDecl, ["module"]),
      (.variableDecl, ["lexical_declaration", "variable_declaration"]),
      (.importDecl, ["import_statement"]),
      (.exportDecl, ["export_statement"])] }
  topLevelRules := typescriptDeclarations }

end Outline.Language

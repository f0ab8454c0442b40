import Outline.Language.Basic

/-!
# Parts of declarations that several languages share

Words that may stand before a declaration, argument lists and annotations, and the statement
rules of the languages with braces.
-/

namespace Outline.Language

open Pattern PatternRule

/-- `export`, if it is there. -/
def exported : Pattern := opt (chain ["export", gap])

/-- `export` or `export default`, if it is there. -/
def exportedDefault : Pattern := opt (chain ["export", gap, opt (chain ["default", gap])])

/-- `declare`, if it is there. -/
def declared : Pattern := opt (chain ["declare", gap])

/-- `async`, if it is there. -/
def asynchronous : Pattern := opt (chain ["async", gap])

/-- An argument list without a bracket inside, on one line. -/
def arguments : Pattern := chain ["(", many (except ")\n"), ")"]

/-- `pub`, perhaps with a scope, if it is there. -/
def visibility : Pattern := opt (chain ["pub", opt arguments, gap])

/-- A type annotation up to an equals sign, if it is there. -/
def annotated : Pattern := opt (chain [":", many1 (except "=\n")])

/-- The end of a branch and `else`, if it is there. -/
def elseBefore : Pattern := opt (chain ["\x7d", blanks, "else", gap])

/-- Members of a class whose methods are written with a return type. -/
def memberRules : List PatternRule := [
  rule .method 75 <| chain [lineStart, gap, modifiers ["public", "private", "protected", "internal",
    "static", "final", "abstract", "synchronized", "native", "default", "virtual", "override",
    "async", "sealed", "partial", "unsafe", "extern", "new"], opt (chain ["<", many1 (except ">\n"),
    ">", gap]), many1 (wordOr "<>[],.?"), opt (chain [blanks, "<", many (except ">\n"), ">"]), gap,
    captured wordRun, blanks, arguments, blanks, opt (chain ["throws", gap,
    many1 (wordOr "., \t")]), opt "\x7b", blanks, lineEnd],
  rule .classDecl 80 <| chain [lineStart, gap, modifiers ["public", "private", "protected",
    "internal", "static", "final", "abstract", "sealed", "partial"], words ["class", "record"], gap,
    captured wordRun],
  rule .interface 80 <| chain [lineStart, gap, modifiers ["public", "private", "protected",
    "internal", "static"], "interface", gap, captured wordRun]]

/-- Statements where a variable is declared by its type. -/
def typedStatementRules : List PatternRule := [
  statement .variableDecl .low 65 <| chain [lineStart, gap, opt (chain ["final", gap]),
    oneOf ["var", chain [capital, many (wordOr "<>[],.?")], "int", "long", "double", "float",
    "boolean", "char", "byte", "short", "string", "bool"], gap, captured (chain [smallOr "_",
    many word]), blanks, words ["=", ";"]],
  statement .controlFlow .medium 75 <| chain [lineStart, blanks, elseBefore, captured (words ["if",
    "for", "foreach", "while", "switch", "try", "do"]), boundary],
  statement .returnStmt .high 80 <| chain [lineStart, blanks, "return", boundary],
  statement .throwStmt .high 80 <| chain [lineStart, blanks, "throw", boundary]]

/-- Statements where a variable is declared by a keyword. -/
def letStatementRules : List PatternRule := [
  statement .variableDecl .low 70 <| chain [lineStart, gap, words ["const", "let", "var"], gap,
    captured dollarName],
  statement .controlFlow .medium 75 <| chain [lineStart, blanks, elseBefore, captured (words ["if",
    "for", "foreach", "while", "switch", "try", "do"]), boundary],
  statement .returnStmt .high 80 <| chain [lineStart, blanks, "return", boundary],
  statement .throwStmt .high 80 <| chain [lineStart, blanks, "throw", boundary]]

end Outline.Language

import Outline.Language.Part

/-!
# Document formats

Formats in which the whole file is one structure, or a row of sections.
-/

namespace Outline.Language

open Pattern PatternRule

/-- Keys of the outermost object. -/
def jsonKeys : List PatternRule := [
  rule .variableDecl 75 <| chain [lineStart, oneOf [chain [" ", " "], "\t"], "\"",
    captured (many1 (except "\"\n")), "\"", blanks, ":"]]

/-- The format JSON. -/
def json : Language where
  name := "json"
  aliases := ["jsonc"]
  extensions := ["json", "jsonc"]
  blockStyle := .document
  nodes := {
    topLevel := [
      (.document, ["document"])]
    nested := [
      (.variableDecl, ["pair"])]
    nameFields := [("pair", ["key"])] }
  nestedRules := jsonKeys

/-- Keys at the start of a line. -/
def yamlKeys : List PatternRule := [
  rule .variableDecl 75 <| chain [lineStart, captured (chain [letterOr "_", many (wordOr ".-")]),
    blanks, ":"]]

/-- The format YAML. -/
def yaml : Language where
  name := "yaml"
  aliases := ["yml"]
  extensions := ["yaml", "yml"]
  blockStyle := .document
  hashComments := true
  nodes := {
    topLevel := [
      (.document, ["stream", "document"])]
    nested := [
      (.variableDecl, ["block_mapping_pair"])]
    nameFields := [("block_mapping_pair", ["key"])] }
  nestedRules := yamlKeys

/-- The format Markdown. -/
def markdown : Language where
  name := "markdown"
  aliases := ["md"]
  extensions := ["md", "markdown"]
  blockStyle := .markdown
  nodes := {
    topLevel := [
      (.sectionBlock, ["section"])] }

end Outline.Language

import Outline.Complexity
import Outline.Extraction.Basic

/-!
# Summaries

How many structures of each kind a file has, and how complex it is as a whole.

* `FileSummary`, `summarise`.
-/

namespace Outline

/-- A file in numbers. -/
structure FileSummary where
  language : String
  strategy : Strategy
  totalLines : Nat
  topLevel : Nat
  nested : Nat
  internal : Nat
  /-- The kinds that occur, with their numbers. -/
  byKind : List (Kind × Nat)
  analysis : Analysis

/-- The kinds that occur in a list, with their numbers. -/
def tally (kinds : List Kind) : List (Kind × Nat) :=
  (Kind.list.map fun k => (k, kinds.count k)).filter fun e => e.2 != 0

/-- The kind by which a whole file is measured. -/
def fileKind : BlockStyle → Kind
  | .markdown => .document
  | .document => .unknown
  | _ => .moduleDecl

/-- The summary of a text. -/
def summarise (parser : Option ParserService) (maxDepth : Nat) (content : Text)
    (language : String) (reader : Text → List Markdown.Heading := Markdown.headings) :
    FileSummary :=
  let found := extractAll parser maxDepth content language reader
  let root := found.tree.bind fun t => t.root?.map fun r => (t, r)
  { language
    strategy := found.strategy
    totalLines := content.lineCount
    topLevel := found.topLevel.length
    nested := found.nested.length
    internal := found.internal.length
    byKind := tally (found.topLevel.map (·.kind) ++ found.nested.map (·.kind) ++
      found.internal.map (·.kind))
    analysis := analyse content (fileKind (rulesOf language).blockStyle) root }

end Outline

import Outline.Chunk.Conversion
import Outline.Chunk.Operations
import Outline.Extraction.Basic
import Outline.Relation.Analysis
import Outline.Settings.Basic

/-!
# The analysis of a file

What was extracted from a file gives its relations and its chunks.  Chunks that lie close together
are merged if the settings say so, and those of too little confidence are left out afterwards.

* `FileAnalysis`: the result.
* `analyseContent`: the analysis of a text under a path.
* `languageOf`: the language of a file by its path.
-/

namespace Outline

/-- What is known about a file. -/
structure FileAnalysis where
  filePath : String
  language : String
  strategy : Strategy
  chunks : List Chunk
  relations : Relations

/-- The language of a file whose path does not tell. -/
def unknownLanguage : String := "unknown"

/-- The language of a file by its path: the parser is asked first, then the registry. -/
def languageOf (parser : Option ParserService) (path : String) : String :=
  ((parser.bind fun p => p.detect? path).or (languageOfPath? path)).getD unknownLanguage

/-- Chunks after merging and sifting. -/
def Settings.select (s : Settings) (chunks : List Chunk) : List Chunk :=
  let merged := match s.mergeMaxGap with
    | none => chunks
    | some gap => mergeAdjacent gap chunks
  merged.filter fun c => s.minConfidence ≤ c.confidence

/-- The analysis of a text under a path. -/
def analyseContent (parser : Option ParserService) (s : Settings) (content : Text)
    (language filePath : String)
    (reader : Text → List Markdown.Heading := Markdown.headings) :
    Except ChunkError FileAnalysis := do
  let found := extractAll parser s.usableDepth content language reader
  let chunks ← chunksOf s.validateRequired s.includeInternal found filePath
  return {
    filePath
    language := found.language
    strategy := found.strategy
    chunks := s.select chunks
    relations := relate s.strengthStrategy found content }

end Outline

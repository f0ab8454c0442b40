import Outline.Chunk.Basic
import Outline.Number.Count
import Outline.Summary

/-!
# Lists of chunks

* `Chunk.le`, `sortChunks`: by file, first line, last line and identity.
* `Chunk.absorb`, `mergeAdjacent`: chunks of a file that lie close together become one.
* `Chunk.normalized`: without blanks around the content.
* `ChunkStatistics`, `statistics`: a list in numbers.
-/

namespace Outline

/-! ## Order -/

/-- By file, first line, last line and identity. -/
def Chunk.le (a b : Chunk) : Bool :=
  if a.filePath ≠ b.filePath then a.filePath ≤ b.filePath
  else if a.startLine ≠ b.startLine then a.startLine ≤ b.startLine
  else if a.stopLine ≠ b.stopLine then a.stopLine ≤ b.stopLine
  else a.id ≤ b.id

/-- Chunks in order. -/
def sortChunks (chunks : List Chunk) : List Chunk := chunks.mergeSort Chunk.le

/-! ## Merging -/

/-- The larger of two complexities; a known one is larger than none. -/
def largerComplexity : Option Nat → Option Nat → Option Nat
  | none, b => b
  | a, none => a
  | some a, some b => some (max a b)

/-- A chunk with the next one added to it.  The later chunk decides, except for the first line,
the further end, the larger complexity and the smaller confidence. -/
def Chunk.absorb (into next : Chunk) : Chunk :=
  Chunk.refreshed {
    content := into.content ++ "\n" ++ next.content
    id := into.id
    kind := next.kind
    name := next.name.or into.name
    startLine := into.startLine
    stopLine := max into.stopLine next.stopLine
    filePath := into.filePath
    language := next.language
    complexity := largerComplexity into.complexity next.complexity
    hash := into.hash
    strategy := next.strategy
    confidence := into.confidence.lesser next.confidence
    merged := true
    extra := into.extra.extend next.extra }

/-- Whether a chunk begins at most `gap` lines after the end of another one in the same file.  Lines
are counts, and the sum of an end and a gap goes no further than the largest count. -/
def Chunk.isNear (gap : Nat) (last next : Chunk) : Bool :=
  last.filePath == next.filePath && asCount next.startLine ≤ asCount (last.stopLine + gap)

/-- Merges chunks in order, when `last` is the one that is being put together. -/
def mergeFrom (gap : Nat) (last : Chunk) : List Chunk → List Chunk
  | [] => [last]
  | next :: rest =>
    if last.isNear gap next then mergeFrom gap (last.absorb next) rest
    else last :: mergeFrom gap next rest

/-- Chunks that lie close together become one. -/
def mergeAdjacent (gap : Nat) (chunks : List Chunk) : List Chunk :=
  match sortChunks chunks with
  | [] => []
  | first :: rest => mergeFrom gap first rest

/-! ## Other operations -/

/-- The chunks of one strategy. -/
def filterByStrategy (strategy : String) (chunks : List Chunk) : List Chunk :=
  chunks.filter fun c => c.strategy == strategy

/-- The number of lines that blanks at the front of a text take up. -/
def leadingLines (t : Text) : Nat := Text.newlines (t.takeWhile isSpace)

/-- A chunk without blanks around its content, which begins as many lines further down as blanks
were cut off, and with its confidence between nought and one. -/
def Chunk.normalized (c : Chunk) : Chunk :=
  let content := trimmed c.content
  { c with
    content
    confidence := Single.clamp .zero .one c.confidence
    startLine := min ((c.startLine + leadingLines c.content.toList) % countLimit) c.stopLine
    hash := some (contentHash content) }

/-! ## Statistics -/

/-- A list of chunks in numbers. -/
structure ChunkStatistics where
  totalChunks : Nat
  byKind : List (Kind × Nat)
  /-- Characters of content per chunk. -/
  averageSize : Double
  averageLines : Double
  totalLines : Nat
  deriving DecidableEq, Repr

/-- The statistics of a list. -/
def statistics (chunks : List Chunk) : ChunkStatistics :=
  let totalLines := sumOf (chunks.map Chunk.lineCount) % countLimit
  { totalChunks := chunks.length
    byKind := tally (chunks.map (·.kind))
    averageSize := Double.average (sumOf (chunks.map fun c => c.content.length)) chunks.length
    averageLines := Double.average totalLines chunks.length
    totalLines }

end Outline

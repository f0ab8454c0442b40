import Outline.File.Analysis

/-!
# Reports

The analysis of a file as a JSON value, in full or in numbers.  A name, a node, a complexity and a
digest that are not there are left out; other things that are not there are `null`.

* `Ref.toJson`, `Edge.toJson`, `Reference.toJson`, `Dependency.toJson`, `Relations.toJson`.
* `Chunk.toJson`, `ChunkStatistics.toJson`.
* `FileAnalysis.toJson`, `FileAnalysis.summary`.
-/

namespace Outline

/-- A field that is left out when there is no value. -/
def fieldIfAny {α : Type} (key : String) (f : α → Json) : Option α → List (String × Json)
  | none => []
  | some a => [(key, f a)]

/-! ## Relations -/

/-- The lines of a structure. -/
def Location.toJson (l : Location) : Json :=
  .object [("start_line", .count l.start), ("end_line", .count l.stop)]

/-- The identity of a structure. -/
def Ref.toJson (r : Ref) : Json :=
  .object ([("kind", .text r.kind.name), ("name", .text r.name), ("location", r.location.toJson)] ++
    fieldIfAny "node" .count r.node)

/-- Two related structures. -/
def Edge.toJson (e : Edge) : Json :=
  .object [("parent", e.parent.toJson), ("child", e.child.toJson), ("kind", .text e.kind.name),
    ("strength", .single e.strength)]

/-- A reference; a target outside the file is `null`. -/
def Reference.toJson (r : Reference) : Json :=
  .object [("from", r.source.toJson), ("to", .optional Ref.toJson r.target),
    ("kind", .text r.kind.name), ("name", .text r.name), ("line", .count r.line),
    ("confidence", .single r.confidence)]

/-- A dependency; that of the file as a whole is from `null`. -/
def Dependency.toJson (d : Dependency) : Json :=
  .object [("from", .optional Ref.toJson d.source), ("kind", .text d.kind.name),
    ("target", .text d.target), ("line", .count d.line), ("confidence", .single d.confidence)]

/-- The relations of a file. -/
def Relations.toJson (r : Relations) : Json :=
  .object [("nesting", .list (r.edges.map Edge.toJson)),
    ("references", .list (r.references.map Reference.toJson)),
    ("dependencies", .list (r.dependencies.map Dependency.toJson))]

/-! ## Chunks -/

/-- What is known about a chunk, further attributes last. -/
def Chunk.metadata (c : Chunk) : List (String × Json) :=
  [("id", .text c.id), ("kind", .text c.kind.name)] ++ fieldIfAny "name" .text c.name ++
    [("start_line", .count c.startLine), ("end_line", .count c.stopLine),
      ("file_path", .text c.filePath), ("language", .text c.language)] ++
    fieldIfAny "complexity" .count c.complexity ++ fieldIfAny "hash" .text c.hash ++
    [("strategy", .text c.strategy), ("confidence", .single c.confidence),
      ("merged", .bool c.merged)] ++ c.extra.fields

/-- A chunk. -/
def Chunk.toJson (c : Chunk) : Json :=
  .object [("content", .text c.content), ("metadata", .object c.metadata)]

/-- A list of chunks in numbers, fields in the order of their names. -/
def ChunkStatistics.toJson (s : ChunkStatistics) : Json :=
  .object [("average_lines", .double s.averageLines), ("average_size", .double s.averageSize),
    ("by_kind", .object (Fields.ofList (s.byKind.map fun e => (e.1.name, Json.count e.2)))),
    ("total_chunks", .count s.totalChunks), ("total_lines", .count s.totalLines)]

/-! ## Files -/

namespace FileAnalysis

/-- The analysis in full. -/
def toJson (a : FileAnalysis) : Json :=
  .object [("file_path", .text a.filePath), ("language", .text a.language),
    ("strategy", .text a.strategy.name), ("chunks", .list (a.chunks.map Chunk.toJson)),
    ("relationships", a.relations.toJson)]

/-- The analysis in numbers, fields in the order of their names. -/
def summary (a : FileAnalysis) : Json :=
  .object [("chunks", (statistics a.chunks).toJson),
    ("dependencies", .count a.relations.dependencies.length), ("file_path", .text a.filePath),
    ("language", .text a.language), ("nesting", .count a.relations.edges.length),
    ("references", .count a.relations.references.length), ("strategy", .text a.strategy.name)]

end FileAnalysis

end Outline

import Outline.Chunk.Basic
import Outline.Extraction.Distinct
import Outline.Structure.Basic

/-!
# Structures as chunks

Every structure with some text and a known kind becomes a chunk: those of the top level first,
then nested ones, then statements.  Of chunks with the same identity the first stands.

* `draftsOf`: what the chunks of an extraction are made from.
* `chunksOf`: the chunks of an extraction.
-/

namespace Outline

/-- The score of a structure, by its node when there is a tree. -/
def structureScore (tree : Option SyntaxTree) (s : Structure) : Nat :=
  let node := match tree, s.node with
    | some t, some id => some (t, id)
    | _, _ => none
  (analyse s.content.toList s.kind node).score

/-- The draft of a structure. -/
def Structure.draft (language : String) (tree : Option SyntaxTree) (s : Structure) :
    ChunkDraft where
  content := s.content
  startLine := s.location.start
  stopLine := s.location.stop
  language
  kind := s.kind
  name := some s.name
  confidence := s.confidence
  complexity := some (structureScore tree s)
  extra := .ofList [("tier", .text Tier.topLevel.name)]

/-- The draft of a nested structure. -/
def NestedStructure.draft (language : String) (tree : Option SyntaxTree) (s : NestedStructure) :
    ChunkDraft :=
  { s.toStructure.draft language tree with
    extra := .ofList [("tier", .text Tier.nested.name), ("parent", .text s.parent.name),
      ("parent_kind", .text s.parent.kind.name), ("level", .count s.level)] }

/-- The draft of a statement under a name. -/
def InternalStructure.draft (language : String) (s : InternalStructure) (name : String) :
    ChunkDraft where
  content := s.content
  startLine := s.location.start
  stopLine := s.location.stop
  language
  kind := s.kind
  name := some name
  confidence := s.confidence
  extra := .ofList [("tier", .text Tier.internal.name), ("parent", .text s.parent.name),
    ("parent_kind", .text s.parent.kind.name), ("importance", .text s.importance.name)]

/-- Statements with names.  One without a name is called by its kind and line, and from the second
such one on a line on also by its number; `before` holds kind and line of those so far. -/
def nameStatements (before : List (Kind × Nat)) :
    List InternalStructure → List (InternalStructure × String)
  | [] => []
  | s :: rest =>
    match s.name with
    | some name => (s, name) :: nameStatements before rest
    | none =>
      let key := (s.kind, s.location.start)
      let name := defaultName s.kind s.location.start
      let number := before.count key
      (s, if number = 0 then name else name ++ "_" ++ decimal (number + 1)) ::
        nameStatements (key :: before) rest

/-- What the chunks of an extraction are made from. -/
def draftsOf (includeInternal : Bool) (x : Extraction) : List ChunkDraft :=
  x.topLevel.map (Structure.draft x.language x.tree) ++
    x.nested.map (NestedStructure.draft x.language x.tree) ++
    if includeInternal then
      (nameStatements [] x.internal).map fun (s, name) => s.draft x.language name
    else []

/-- Whether a draft has some text and a known kind. -/
def ChunkDraft.isFilled (d : ChunkDraft) : Bool := !isBlank d.content && d.kind != .unknown

/-- The chunks of an extraction. -/
def chunksOf (strict includeInternal : Bool) (x : Extraction) (filePath : String) :
    Except ChunkError (List Chunk) := do
  let drafts := (draftsOf includeInternal x).filter ChunkDraft.isFilled
  let chunks ← drafts.mapM fun d =>
    ChunkDraft.create strict { d with filePath, strategy := some x.strategy.name }
  return distinctBy (·.id) chunks

end Outline

import Outline.Complexity
import Outline.Digest.Md5
import Outline.Digest.Sha256
import Outline.Json.Basic

/-!
# Chunks

A chunk is one structure made ready for an index: its text with what is known about it, under an
identity that depends on kind, name, first line and file only.

* `Chunk`: the record.
* `chunkId`, `contentHash`: the two digests.
* `ChunkError`, `Chunk.check`: what is wrong with a chunk.
* `ChunkDraft`, `ChunkDraft.create`: making a chunk.
-/

namespace Outline

/-- A piece of a file with what is known about it. -/
structure Chunk where
  content : String
  id : String
  kind : Kind
  name : Option String
  startLine : Nat
  stopLine : Nat
  filePath : String
  language : String
  complexity : Option Nat
  hash : Option String
  strategy : String
  confidence : Single
  /-- Whether it was put together from several chunks. -/
  merged : Bool
  /-- Further attributes. -/
  extra : Attributes

/-- The text that identifies a chunk. -/
def chunkKey (kind : Kind) (name : Option String) (startLine : Nat) (filePath : String) : String :=
  kind.name ++ ":" ++ name.getD "" ++ ":" ++ decimal startLine ++ ":" ++ filePath

/-- The identity of a chunk. -/
def chunkId (kind : Kind) (name : Option String) (startLine : Nat) (filePath : String) : String :=
  Digest.Md5.hexOf (chunkKey kind name startLine filePath)

/-- The digest of a content. -/
def contentHash (content : String) : String := Digest.Sha256.hexOf content

namespace Chunk

/-- The lines of a chunk. -/
def location (c : Chunk) : Location := .clamped c.startLine c.stopLine

/-- The number of lines. -/
def lineCount (c : Chunk) : Nat := c.location.lineCount

/-- The chunk under the identity of its present fields, with the digest of its present content. -/
def refreshed (c : Chunk) : Chunk :=
  { c with
    id := chunkId c.kind c.name c.startLine c.filePath
    hash := some (contentHash c.content) }

end Chunk

/-! ## Errors -/

/-- What is wrong with a chunk. -/
inductive ChunkError where
  | emptyContent
  | startBeforeFirst (start : Nat)
  | endBeforeStart (stop start : Nat)
  | emptyLanguage
  | unknownKind
  | emptyId
  | confidenceOutside (confidence : Single)
  deriving DecidableEq, Repr

namespace ChunkError

/-- The wording of a cause. -/
def reason : ChunkError → String
  | .emptyContent => "content is empty"
  | .startBeforeFirst start => "start line " ++ decimal start ++ " is before line 1"
  | .endBeforeStart stop start =>
    "end line " ++ decimal stop ++ " is before start line " ++ decimal start
  | .emptyLanguage => "language is empty"
  | .unknownKind => "kind is unknown"
  | .emptyId => "id is empty"
  | .confidenceOutside c => "confidence " ++ c.text ++ " is outside [0, 1]"

/-- The wording of an error. -/
def message (e : ChunkError) : String := "invalid chunk input: " ++ e.reason

end ChunkError

/-- The first thing that is wrong with the fields that every chunk must have. -/
def checkRequired (content : String) (start stop : Nat) (language : String) (kind : Kind) :
    Except ChunkError Unit :=
  if isBlank content then .error .emptyContent
  else if start < 1 then .error (.startBeforeFirst start)
  else if stop < start then .error (.endBeforeStart stop start)
  else if isBlank language then .error .emptyLanguage
  else if kind = .unknown then .error .unknownKind
  else .ok ()

namespace Chunk

/-- The first thing that is wrong with a chunk. -/
def check (c : Chunk) : Except ChunkError Unit := do
  checkRequired c.content c.startLine c.stopLine c.language c.kind
  if c.id.isEmpty then .error .emptyId
  else if !c.confidence.inUnitRange then .error (.confidenceOutside c.confidence)
  else .ok ()

end Chunk

/-! ## Making chunks -/

/-- What a chunk is made from; what is left open is found out. -/
structure ChunkDraft where
  content : String
  startLine : Nat
  stopLine : Nat
  language : String
  kind : Kind
  name : Option String := none
  filePath : String := ""
  strategy : Option String := none
  confidence : Single := Single.one
  complexity : Option Nat := none
  hash : Option String := none
  extra : Attributes := .empty

namespace ChunkDraft

/-- The strategy of a chunk that names none. -/
def defaultStrategy : String := Strategy.text.name

/-- The chunk of a draft with lines that are in order. -/
def build (d : ChunkDraft) (start stop : Nat) : Chunk where
  content := d.content
  id := chunkId d.kind d.name start d.filePath
  kind := d.kind
  name := d.name
  startLine := start
  stopLine := stop
  filePath := d.filePath
  language := d.language
  complexity := some (d.complexity.getD (analyse d.content.toList d.kind none).score)
  hash := some (d.hash.getD (contentHash d.content))
  strategy := d.strategy.getD defaultStrategy
  confidence := Single.clamp .zero .one d.confidence
  merged := false
  extra := d.extra

/-- Makes a chunk.  When `strict`, a draft with a fault is refused; otherwise its lines are put in
order. -/
def create (strict : Bool) (d : ChunkDraft) : Except ChunkError Chunk :=
  if strict then do
    checkRequired d.content d.startLine d.stopLine d.language d.kind
    return d.build d.startLine d.stopLine
  else
    let l := Location.clamped d.startLine d.stopLine
    .ok (d.build l.start l.stop)

end ChunkDraft

end Outline

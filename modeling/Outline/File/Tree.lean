import Outline.File.PathName

/-!
# Trees of files

The command line works on a tree of files that was read beforehand, so what it does is a function
of that tree and its arguments.

* `FileTree`: a file or a directory.
* `FileTree.get?`, `FileTree.insert`: by the names on the way.
* `FileSystem`: a tree with the working directory.
* `FileSystem.locate?`, `FileSystem.get?`, `FileSystem.readText?`: by a path.
-/

namespace Outline

/-- A file or a directory. -/
inductive FileTree where
  | file (content : ByteArray)
  | directory (entries : List (String × FileTree))

namespace FileTree

/-- A directory without entries. -/
def empty : FileTree := .directory []

def isDirectory : FileTree → Bool
  | .directory _ => true
  | .file _ => false

/-- The entries of a directory. -/
def entries : FileTree → List (String × FileTree)
  | .directory es => es
  | .file _ => []

/-- What lies at the end of some names. -/
def get? : List String → FileTree → Option FileTree
  | [], t => some t
  | name :: names, t => (t.entries.lookup name).bind (get? names)

/-- The content of a file. -/
def content? : FileTree → Option ByteArray
  | .file content => some content
  | .directory _ => none

/-- Entries in which a name stands for something else. -/
def replaceEntry (name : String) (t : FileTree) :
    List (String × FileTree) → List (String × FileTree)
  | [] => [(name, t)]
  | e :: es => if e.1 = name then (name, t) :: es else e :: replaceEntry name t es

/-- Puts something at the end of some names.  A directory that is there already keeps its entries
when an empty one is put there. -/
def insert (old : FileTree) (names : List String) (new : FileTree) : FileTree :=
  match names with
  | [] =>
    match new with
    | .directory [] => .directory old.entries
    | new => new
  | name :: names =>
    .directory (replaceEntry name (insert ((old.entries.lookup name).getD empty) names new)
      old.entries)

end FileTree

/-- A tree of files with the names that lead from its root to the working directory. -/
structure FileSystem where
  root : FileTree
  here : List String

namespace FileSystem

/-- The place one piece of a path on.  Every piece has to start in a directory; an empty piece and a
single point stay there. -/
def step? (fs : FileSystem) (place : List String) (piece : String) : Option (List String) :=
  match fs.root.get? place with
  | some (.directory es) =>
    if piece = "" ∨ piece = "." then some place
    else if piece = ".." then some place.dropLast
    else (es.lookup piece).map fun _ => place ++ [piece]
  | _ => none

/-- The place that a path leads to. -/
def locate? (fs : FileSystem) (path : String) : Option (List String) :=
  if path.isEmpty then none
  else
    let start := if path.toList.head? = some '/' then [] else fs.here
    ((Text.splitOn '/' path.toList).map String.ofList).foldlM fs.step? start

/-- What a path leads to. -/
def get? (fs : FileSystem) (path : String) : Option FileTree :=
  (fs.locate? path).bind fun place => fs.root.get? place

/-- Whether a path leads to a file. -/
def isFile (fs : FileSystem) (path : String) : Bool :=
  ((fs.get? path).bind FileTree.content?).isSome

/-- The text of the file that a path leads to; none if it is not UTF-8. -/
def readText? (fs : FileSystem) (path : String) : Option String :=
  ((fs.get? path).bind FileTree.content?).bind String.fromUTF8?

end FileSystem

end Outline

import Outline.File.Analysis
import Outline.File.Walk

/-!
# The files of a run

* `FileError`, `analysePath`: the analysis of a file, or why there is none.
* `filesToAnalyse`: the files that some paths ask for.
-/

namespace Outline

/-- Why there is no analysis of a file. -/
inductive FileError where
  | unreadable (path : String)
  | refused (filePath : String) (cause : ChunkError)
  deriving DecidableEq, Repr

namespace FileError

/-- The wording of an error. -/
def message : FileError → String
  | .unreadable path => "failed to read " ++ path
  | .refused filePath _ => "failed to chunk " ++ filePath

end FileError

/-- The path of a file in its report: all slashes lean forward. -/
def reportedPath (path : String) : String :=
  String.ofList (path.toList.map fun c => if c = '\\' then '/' else c)

/-- The analysis of the file that a path leads to. -/
def analysePath (parser : Option ParserService) (s : Settings) (fs : FileSystem) (path : String) :
    Except FileError FileAnalysis :=
  match fs.readText? path with
  | none => .error (.unreadable path)
  | some content =>
    let filePath := reportedPath path
    match analyseContent parser s content.toList (languageOf parser path) filePath with
    | .ok a => .ok a
    | .error e => .error (.refused filePath e)

/-- The files that a path asks for: itself, or all files in known languages below it. -/
def filesOfPath (parser : Option ParserService) (fs : FileSystem) (path : String) : List String :=
  if fs.isFile path then [path]
  else (fs.walk path).filter fun p => languageOf parser p != unknownLanguage

/-- The files that some paths ask for, in the order of paths. -/
def filesToAnalyse (parser : Option ParserService) (fs : FileSystem) (paths : List String) :
    List String :=
  (paths.flatMap (filesOfPath parser fs)).mergeSort PathName.before

end Outline

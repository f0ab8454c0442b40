import Outline.File.Tree
import Outline.Ignore.Rule

/-!
# Walking directories

A walk visits all files below a directory except those that rules pass over.  Rules stand in files
named `.ignore`, which always count, and in files named `.gitignore` and `.git/info/exclude`, which
count inside a repository, up to its root.  Of the rules of several directories the innermost
decide; `.ignore` comes before `.gitignore`, and that before the rest.

* `RuleLevel`: the rules of one directory.
* `isPassedOver`: whether rules pass a path over.
* `FileSystem.walk`: the files below a path.
-/

namespace Outline

/-- The rules of one directory. -/
structure RuleLevel where
  /-- The number of names that lead to the directory. -/
  depth : Nat
  ignore : List IgnoreRule
  repositoryIgnore : List IgnoreRule
  repositoryExclude : List IgnoreRule
  /-- Whether the directory is the root of a repository. -/
  isRepository : Bool

namespace RuleLevel

/-- The rules in a file below a directory. -/
def rulesAt (directory : FileTree) (names : List String) : List IgnoreRule :=
  match (directory.get? names).bind FileTree.content? with
  | some content => ignoreRules content
  | none => []

/-- The names of entries that make a directory the root of a repository. -/
def repositoryMarks : List String := [".git", ".jj"]

/-- The rules of a directory. -/
def ofDirectory (depth : Nat) (directory : FileTree) : RuleLevel where
  depth
  ignore := rulesAt directory [".ignore"]
  repositoryIgnore := rulesAt directory [".gitignore"]
  repositoryExclude := rulesAt directory [".git", "info", "exclude"]
  isRepository := repositoryMarks.any fun name => (directory.get? [name]).isSome

/-- The levels up to the root of the repository; none outside of a repository. -/
def inRepository (levels : List RuleLevel) : List RuleLevel :=
  levels.take (levels.findIdx (·.isRepository) + 1)

/-- The bytes of the path from a level to the end of some names. -/
def pathFrom (l : RuleLevel) (names : List String) : Text :=
  byteText ("/".intercalate (names.drop l.depth))

/-- What the first level with an opinion says, the innermost level coming first. -/
def judgeBy? (rules : RuleLevel → List IgnoreRule) (names : List String) (isDirectory : Bool)
    (levels : List RuleLevel) : Option Verdict :=
  levels.findSome? fun l => judge? (rules l) (l.pathFrom names) isDirectory

end RuleLevel

/-- Whether rules pass a path over, the innermost level coming first. -/
def isPassedOver (levels : List RuleLevel) (names : List String) (isDirectory : Bool) : Bool :=
  let verdict := RuleLevel.judgeBy? (·.ignore) names isDirectory levels
  let verdict :=
    if levels.any (·.isRepository) then
      let inside := RuleLevel.inRepository levels
      (verdict.or (RuleLevel.judgeBy? (·.repositoryIgnore) names isDirectory inside)).or
        (RuleLevel.judgeBy? (·.repositoryExclude) names isDirectory inside)
    else verdict
  verdict = some .ignore

/-- The path of an entry of a directory. -/
def joinPath (directory name : String) : String :=
  if directory.toList.getLast? = some '/' then directory ++ name else directory ++ "/" ++ name

mutual

/-- The paths of the files of a tree that lies at the end of some names. -/
def FileTree.visit (levels : List RuleLevel) (names : List String) (path : String) :
    FileTree → List String
  | .file _ => [path]
  | .directory es =>
    visitEntries (RuleLevel.ofDirectory names.length (.directory es) :: levels) names path es

/-- The paths of the files of some entries. -/
def visitEntries (levels : List RuleLevel) (names : List String) (path : String) :
    List (String × FileTree) → List String
  | [] => []
  | (name, t) :: rest =>
    let inside := names ++ [name]
    (if isPassedOver levels inside t.isDirectory then []
      else t.visit levels inside (joinPath path name)) ++ visitEntries levels names path rest

end

namespace FileSystem

/-- The levels of the directories above a place, the innermost first. -/
def levelsAbove (fs : FileSystem) (place : List String) : List RuleLevel :=
  ((List.range place.length).filterMap fun n =>
    (fs.root.get? (place.take n)).map (RuleLevel.ofDirectory n)).reverse

/-- The path that stands for standard input, where there is nothing to walk. -/
def standardInput : String := "-"

/-- The files below the directory that a path leads to. -/
def walk (fs : FileSystem) (path : String) : List String :=
  if path = standardInput then []
  else match fs.locate? path with
    | none => []
    | some place =>
      match fs.root.get? place with
      | none => []
      | some t => t.visit (fs.levelsAbove place) place path

end FileSystem

end Outline

import Outline.CommandLine.Run

/-!
# The command

Reads what the arguments may refer to into a tree of files, runs the command on that tree and prints
what comes of it.
-/

namespace Outline.Command

/-- The names on the way to an absolute path. -/
def namesOf (path : String) : List String := (path.splitOn "/").filter (· != "")

/-- The absolute path of some names. -/
def pathOf (names : List String) : String := "/" ++ "/".intercalate names

/-- The pieces of a path that end before a slash, and the path itself. -/
def stages (path : String) : List String :=
  let pieces := path.splitOn "/"
  (List.range pieces.length).map fun n =>
    match "/".intercalate (pieces.take (n + 1)) with
    | "" => "/"
    | stage => stage

/-- A file or a directory with all that is below it.  Links to directories are not followed, and
what cannot be read is left out. -/
partial def readTree (path : String) : IO FileTree := do
  let place ← IO.FS.realPath path
  if ← place.isDir then
    let mut found := []
    for e in ← place.readDir do
      try
        let isLink := (← e.path.symlinkMetadata).type == .symlink
        unless isLink && (← e.path.isDir) do
          found := (e.fileName, ← readTree (joinPath place.toString e.fileName)) :: found
      catch _ => pure ()
    return .directory found
  else return .file (← IO.FS.readBinFile place)

/-- Adds what lies at the end of some names, if it can be read. -/
def addPlace (t : FileTree) (names : List String) : IO FileTree := do
  try return t.insert names (← readTree (pathOf names))
  catch _ => return t

/-- Adds a directory with its rules and the marks of a repository. -/
def addRules (t : FileTree) (names : List String) : IO FileTree := do
  let mut t := t.insert names .empty
  for mark in RuleLevel.repositoryMarks do
    try
      discard (IO.FS.realPath (pathOf (names ++ [mark])))
      t := t.insert (names ++ [mark]) .empty
    catch _ => pure ()
  for rules in [[".ignore"], [".gitignore"], [".git", "info", "exclude"]] do
    t ← addPlace t (names ++ rules)
  return t

/-- Adds the directories that a path passes through, with their rules, and what it leads to. -/
def addPath (t : FileTree) (path : String) : IO FileTree := do
  let mut t := t
  for stage in stages path do
    try
      let place ← IO.FS.realPath stage
      let names := namesOf place.toString
      if ← place.isDir then
        for n in List.range (names.length + 1) do
          t ← addRules t (names.take n)
    catch _ => pure ()
  try
    let place ← IO.FS.realPath path
    addPlace t (namesOf place.toString)
  catch _ => return t

/-- What the arguments may refer to. -/
def readFiles (arguments : List String) : IO FileSystem := do
  let here ← IO.FS.realPath "."
  let mut t := FileTree.empty.insert (namesOf here.toString) .empty
  if let .ok a := Arguments.parse arguments then
    for path in a.config.toList ++ a.paths do
      t ← addPath t path
  return ⟨t, namesOf here.toString⟩

end Outline.Command

def main (arguments : List String) : IO UInt32 := do
  let outcome := Outline.runCommand (← Outline.Command.readFiles arguments) arguments
  (← IO.getStdout).putStr outcome.output.rendered
  if let some complaint := outcome.complaint then
    (← IO.getStderr).putStrLn ("error: " ++ complaint)
  return outcome.code.toUInt32

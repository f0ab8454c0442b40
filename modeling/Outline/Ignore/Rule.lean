import Outline.Ignore.Glob
import Outline.Text.Lines

/-!
# Rules for what is passed over

A file of rules has one glob on a line.  A glob with an exclamation mark before it keeps what it
describes; one with a slash after it describes directories only; one without a slash inside
describes names in all directories below.  The last rule that describes a path decides.

* `IgnoreRule`, `IgnoreRule.ofLine?`: a rule, and reading one.
* `ignoreRules`: the rules of a file.
* `Verdict`, `judge?`: what rules say about a path.
-/

namespace Outline

/-- A rule for what is passed over. -/
structure IgnoreRule where
  pattern : Pattern
  /-- Whether what is described is kept. -/
  isKeep : Bool
  directoriesOnly : Bool

namespace IgnoreRule

/-- A line without blanks at its end, unless the last one is escaped. -/
def stripped (line : Text) : Text :=
  if Text.hasSuffix ['\\', ' '] line then line else Text.trimEnd line

/-- The marks before a glob: whether it keeps, whether it is bound to the directory of the rules,
and the glob itself. -/
def marks (line : Text) : Bool × Bool × Text :=
  match line with
  | '\\' :: '!' :: rest => (false, false, '!' :: rest)
  | '\\' :: '#' :: rest => (false, false, '#' :: rest)
  | line =>
    let (isKeep, line) := match line with
      | '!' :: rest => (true, rest)
      | line => (false, line)
    match line with
    | '/' :: rest => (isKeep, true, rest)
    | line => (isKeep, false, line)

/-- The glob without a slash at its end, and whether there was one.  An escape before that slash
goes with it. -/
def directoryMark (glob : Text) : Bool × Text :=
  match glob.reverse with
  | '/' :: '\\' :: rest => (true, rest.reverse)
  | '/' :: rest => (true, rest.reverse)
  | _ => (false, glob)

/-- Two stars and a slash, which stand for any number of steps. -/
def anywhere : Text := ['*', '*', '/']

/-- The glob for a path from the directory of the rules. -/
def anchored (isBound : Bool) (glob : Text) : Text :=
  let glob :=
    if isBound || glob.any (· == '/') || glob == ['*', '*'] then glob else anywhere ++ glob
  if Text.hasSuffix ['/', '*', '*'] glob then glob ++ ['/', '*'] else glob

/-- The rule on a line, if there is one without a fault. -/
def ofLine? (line : Text) : Option IgnoreRule :=
  if line.head? = some '#' then none
  else match stripped line with
    | [] => none
    | line =>
      let (isKeep, isBound, glob) := marks line
      let (directoriesOnly, glob) := directoryMark glob
      (GlobPart.parse? (anchored isBound glob)).map fun parts =>
        ⟨GlobPart.wholePattern parts, isKeep, directoriesOnly⟩

/-- Whether a rule describes a path. -/
def describes (r : IgnoreRule) (path : Text) (isDirectory : Bool) : Bool :=
  (!r.directoriesOnly || isDirectory) && r.pattern.occursIn path

end IgnoreRule

/-! ## Files of rules -/

/-- The pieces between line feeds. -/
def byteLines : List UInt8 → List (List UInt8)
  | [] => [[]]
  | b :: rest =>
    if b = 10 then [] :: byteLines rest
    else match byteLines rest with
      | [] => [[b]]
      | line :: lines => (b :: line) :: lines

/-- A line of bytes as text, without a carriage return at its end. -/
def lineText? (line : List UInt8) : Option Text :=
  (String.fromUTF8? ⟨line.toArray⟩).map fun s =>
    if Text.hasSuffix ['\r'] s.toList then s.toList.dropLast else s.toList

/-- The lines up to the first that is not UTF-8. -/
def textLines (content : ByteArray) : List Text :=
  ((byteLines content.toList).map lineText?).takeWhile Option.isSome |>.filterMap id

/-- Lines without byte order marks at the front. -/
def withoutMark : List Text → List Text
  | [] => []
  | line :: lines => line.dropWhile (· == '\uFEFF') :: lines

/-- The rules of a file. -/
def ignoreRules (content : ByteArray) : List IgnoreRule :=
  (withoutMark (textLines content)).filterMap IgnoreRule.ofLine?

/-! ## Verdicts -/

/-- What is to happen with a path. -/
inductive Verdict where
  | keep
  | ignore
  deriving DecidableEq, Repr

/-- What the last rule that describes a path says. -/
def judge? (rules : List IgnoreRule) (path : Text) (isDirectory : Bool) : Option Verdict :=
  (rules.reverse.find? fun r => r.describes path isDirectory).map fun r =>
    if r.isKeep then .keep else .ignore

end Outline

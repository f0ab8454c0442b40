import Outline.Text.Basic

/-!
# Path names

A path is a text with slashes.  Empty steps and steps that stay in place do not count, except
that a path may begin with a step that stays in place.

* `PathName.steps`: the parts of a path that count.
* `PathName.fileName?`, `PathName.extension?`: the last step and what follows its last point.
* `PathName.before`: the order in which files are reported.
-/

namespace Outline.PathName

/-- One step of a path; the order of the constructors is the order of steps. -/
inductive Step where
  | root
  | here
  | up
  | down (name : Text)
  deriving DecidableEq, Repr

/-- The step that a piece between slashes stands for; none if it is empty or stays in place. -/
def stepOf (piece : Text) : Option Step :=
  if piece = [] || piece = ['.'] then none
  else if piece = ['.', '.'] then some .up
  else some (.down piece)

/-- The parts of a path that count. -/
def steps (path : String) : List Step :=
  let pieces := Text.splitOn '/' path.toList
  let first := match pieces with
    | [] :: _ :: _ => [Step.root]
    | ['.'] :: _ => [Step.here]
    | _ => []
  first ++ pieces.filterMap stepOf

/-- The name of the file a path ends in. -/
def fileName? (path : String) : Option Text :=
  match (steps path).getLast? with
  | some (.down name) => some name
  | _ => none

/-- The part of a file name after its last point, unless that point is the first character. -/
def extension? (path : String) : Option String := do
  let name ← fileName? path
  let rest := name.reverse.dropWhile (· != '.')
  match rest with
  | _ :: _ :: _ => some (String.ofList (name.reverse.takeWhile (· != '.')).reverse)
  | _ => none

/-- Whether a step comes before another or is the same. -/
def Step.le : Step → Step → Bool
  | .root, _ => true
  | _, .root => false
  | .here, _ => true
  | _, .here => false
  | .up, _ => true
  | _, .up => false
  | .down a, .down b => String.ofList a ≤ String.ofList b

/-- Whether a list of steps comes before another or is the same. -/
def stepsLe : List Step → List Step → Bool
  | [], _ => true
  | _, [] => false
  | a :: as, b :: bs => if a = b then stepsLe as bs else a.le b

/-- The order of paths: step by step. -/
def before (a b : String) : Bool := stepsLe (steps a) (steps b)

end Outline.PathName

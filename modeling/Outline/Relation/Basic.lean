import Outline.Structure.Basic

/-!
# Relations between structures

* `Edge`: one structure contains, extends, implements or uses another.
* `Reference`: a place in the text that calls or names something.
* `Dependency`: something that a structure or the whole file builds upon.
* `fileScope`: the whole file as a structure, for what happens outside of all others.
* `innermost?`: the smallest structure around a line.
-/

namespace Outline

/-- How two structures are related. -/
inductive EdgeKind where
  | containment
  | extension
  | implementation
  | usage
  deriving DecidableEq, Repr

/-- The written name. -/
def EdgeKind.name : EdgeKind → String
  | .containment => "contains"
  | .extension => "extends"
  | .implementation => "implements"
  | .usage => "uses"

/-- Two related structures. -/
structure Edge where
  parent : Ref
  child : Ref
  kind : EdgeKind
  strength : Single
  deriving DecidableEq, Repr

/-- What is referred to. -/
inductive ReferenceKind where
  | functionCall
  | variableName
  | typeName
  deriving DecidableEq, Repr

/-- The written name. -/
def ReferenceKind.name : ReferenceKind → String
  | .functionCall => "function_call"
  | .variableName => "variable_reference"
  | .typeName => "type_reference"

/-- A place that refers to something by name. -/
structure Reference where
  /-- The structure that the place lies in. -/
  source : Ref
  /-- The structure that the name means, if it is one of the file. -/
  target : Option Ref
  kind : ReferenceKind
  name : String
  line : Nat
  confidence : Single
  deriving DecidableEq, Repr

/-- How something is built upon. -/
inductive DependencyKind where
  | importing
  | inheritance
  | implementation
  deriving DecidableEq, Repr

/-- The written name. -/
def DependencyKind.name : DependencyKind → String
  | .importing => "import"
  | .inheritance => "inheritance"
  | .implementation => "implementation"

/-- Something that a structure, or the file as a whole, builds upon. -/
structure Dependency where
  source : Option Ref
  kind : DependencyKind
  target : String
  line : Nat
  confidence : Single
  deriving DecidableEq, Repr

/-- The name of the file as a structure. -/
def fileScopeName : String := "<module>"

/-- The whole file as a structure. -/
def fileScope (content : Text) : Ref where
  kind := .moduleDecl
  name := fileScopeName
  location := .clamped 1 content.lineCount
  node := none

/-- The last of the smallest entries. -/
def lastSmallest? {α : Type} (size : α → Nat) : List α → Option α
  | [] => none
  | a :: as =>
    match lastSmallest? size as with
    | none => some a
    | some b => if size a < size b then some a else some b

/-- The smallest structure around a line that satisfies `p`; imports and exports do not count.
Of equally small ones the last is taken, since nested structures come last. -/
def innermostWhere? (p : Ref → Bool) (structures : List Ref) (line : Nat) : Option Ref :=
  lastSmallest? (fun s => s.location.lineCount)
    (structures.filter fun s => !s.kind.isBorder && p s && s.location.containsLine line)

/-- The smallest structure around a line. -/
def innermost? (structures : List Ref) (line : Nat) : Option Ref :=
  innermostWhere? (fun _ => true) structures line

end Outline

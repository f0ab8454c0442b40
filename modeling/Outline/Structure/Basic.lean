import Outline.Number.Single
import Outline.Structure.Kind
import Outline.Tree.Basic

/-!
# Structures

What an extraction finds: top-level structures, structures nested in them, and the statements
inside functions.  Parents are named by value (`Ref`), so each list can be read on its own.

* `Ref`: the identity of a structure.
* `Structure`, `NestedStructure`, `InternalStructure`: the entries of the three tiers.
* `Extraction`: everything found in one text, with the tree it was found in.
-/

namespace Outline

/-- The identity of a structure. -/
structure Ref where
  kind : Kind
  name : String
  location : Location
  /-- The node of the tree it was read from. -/
  node : Option Nat
  deriving DecidableEq, Repr, Inhabited

/-- A structure with its text. -/
structure Structure where
  kind : Kind
  name : String
  content : String
  location : Location
  node : Option Nat
  language : String
  confidence : Single
  deriving DecidableEq, Repr

/-- A structure inside another one. -/
structure NestedStructure extends Structure where
  parent : Ref
  /-- `0` for a direct member of a top-level structure. -/
  level : Nat
  deriving DecidableEq, Repr

/-- A statement inside a function. -/
structure InternalStructure where
  kind : Kind
  name : Option String
  content : String
  location : Location
  parent : Ref
  importance : Importance
  confidence : Single
  deriving DecidableEq, Repr

/-- The identity of a structure. -/
def Structure.ref (s : Structure) : Ref := ⟨s.kind, s.name, s.location, s.node⟩

/-- The identity of a nested structure. -/
def NestedStructure.ref (s : NestedStructure) : Ref := s.toStructure.ref

/-- All that was found in one text. -/
structure Extraction where
  language : String
  strategy : Strategy
  topLevel : List Structure
  nested : List NestedStructure
  internal : List InternalStructure
  /-- The tree that the nodes of the structures belong to. -/
  tree : Option SyntaxTree

namespace Extraction

/-- Whether nothing was found. -/
def isEmpty (x : Extraction) : Bool :=
  x.topLevel.isEmpty && x.nested.isEmpty && x.internal.isEmpty

/-- The structures with names, top-level ones first. -/
def named (x : Extraction) : List Ref :=
  x.topLevel.map Structure.ref ++ x.nested.map NestedStructure.ref

end Extraction

/-- The name of a structure that has none of its own. -/
def defaultName (kind : Kind) (line : Nat) : String := kind.name ++ "_" ++ decimal line

/-- The kind of a member: functions of a type are methods, methods outside a type functions. -/
def memberKind (parent kind : Kind) : Kind :=
  match kind with
  | .function => if parent.ownsMethods then .method else .function
  | .method => if parent.ownsMethods then .method else .function
  | other => other

end Outline

import Outline.Number.Single
import Outline.Pattern.Build
import Outline.Structure.Kind

/-!
# Languages as tables

A language is plain data: which kinds of tree nodes are which structures, in which field a node
keeps its name, which nodes count as branches, and the patterns that find structures in text
when there is no tree.

* `BlockStyle`, `Heritage`, `Refinement`: the few ways in which languages differ beyond tables.
* `PatternRule`: a pattern with the kind of structure it announces.
* `NodeTypes`, `Language`: the tables.
-/

namespace Outline

/-- How the end of a construct is found in text. -/
inductive BlockStyle where
  | braces
  | indentation
  | endKeyword
  | document
  | markdown
  deriving DecidableEq, Repr

/-- How a declaration names its bases. -/
inductive Heritage where
  /-- `class A extends B implements C` -/
  | clauses
  /-- `class A : B, C` -/
  | colonList
  /-- `class A(B, C):` -/
  | argumentList
  /-- `impl Trait for Type` -/
  | implFor
  /-- `class A < B` -/
  | angle
  | none
  deriving DecidableEq, Repr

/-- A correction to the kind that a node type stands for. -/
inductive Refinement where
  /-- The kind stands. -/
  | asListed
  /-- A declaration of a function value is a function, one by `const` a constant. -/
  | declarator
  /-- A type declaration is what its body is. -/
  | typeBody
  /-- An assignment to a name in capitals is a constant. -/
  | capitals
  deriving DecidableEq, Repr

/-- A pattern and the structure it announces; the first group that is not empty is the name. -/
structure PatternRule where
  kind : Kind
  pattern : Pattern
  confidence : Single
  importance : Importance

namespace PatternRule

/-- A rule for declarations; the confidence is given in hundredths. -/
def rule (kind : Kind) (hundredths : Nat) (pattern : Pattern) : PatternRule :=
  ⟨kind, pattern, Single.percent hundredths, .medium⟩

/-- A rule for statements. -/
def statement (kind : Kind) (importance : Importance) (hundredths : Nat) (pattern : Pattern) :
    PatternRule :=
  ⟨kind, pattern, Single.percent hundredths, importance⟩

end PatternRule

/-- What the node types of a grammar stand for. -/
structure NodeTypes where
  topLevel : List (Kind × List String) := []
  nested : List (Kind × List String) := []
  internal : List (Kind × Importance × List String) := []
  /-- The fields that hold the name, where it is not the field `name`. -/
  nameFields : List (String × List String) := []
  controlFlow : List String := []
  nesting : List String := []
  calls : List String := []

/-- A language. -/
structure Language where
  name : String
  aliases : List String := []
  extensions : List String := []
  blockStyle : BlockStyle
  heritage : Heritage := .none
  refinement : Refinement := .asListed
  /-- Whether single quotes enclose one character rather than a string. -/
  charLiterals : Bool := false
  /-- Whether a number sign begins a comment. -/
  hashComments : Bool := false
  nodes : NodeTypes := {}
  topLevelRules : List PatternRule := []
  nestedRules : List PatternRule := []
  internalRules : List PatternRule := []

namespace Language

/-- The names by which a language is known. -/
def names (l : Language) : List String := l.name :: l.aliases

/-- The pattern rules of a tier. -/
def rules (l : Language) : Tier → List PatternRule
  | .topLevel => l.topLevelRules
  | .nested => l.nestedRules
  | .internal => l.internalRules

end Language

end Outline

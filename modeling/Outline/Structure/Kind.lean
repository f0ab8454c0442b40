/-!
# Kinds of structures

A file is described by structures of a closed set of kinds.  What may contain what, and which
measure of complexity applies, depends on the kind alone, so the predicates stand here.

* `Kind.name`, `Kind.ofName`: the written name; names that are none mean `unknown`.
* `Importance`, `Tier`, `Strategy`: the other small vocabularies of a structure.
-/

namespace Outline

/-- What a structure is. -/
inductive Kind where
  | function
  | method
  | classDecl
  | interface
  | struct
  | enum
  | trait
  | impl
  | typeDecl
  | moduleDecl
  | namespaceDecl
  | importDecl
  | exportDecl
  | variableDecl
  | constantDecl
  | controlFlow
  | returnStmt
  | throwStmt
  | document
  | sectionBlock
  | unknown
  deriving DecidableEq, Repr, Inhabited

namespace Kind

/-- The written name. -/
def name : Kind → String
  | .function => "function"
  | .method => "method"
  | .classDecl => "class"
  | .interface => "interface"
  | .struct => "struct"
  | .enum => "enum"
  | .trait => "trait"
  | .impl => "impl"
  | .typeDecl => "type"
  | .moduleDecl => "module"
  | .namespaceDecl => "namespace"
  | .importDecl => "import"
  | .exportDecl => "export"
  | .variableDecl => "variable"
  | .constantDecl => "constant"
  | .controlFlow => "control_flow"
  | .returnStmt => "return"
  | .throwStmt => "throw"
  | .document => "document"
  | .sectionBlock => "section"
  | .unknown => "unknown"

/-- All kinds, in the order of their declaration. -/
def list : List Kind :=
  [.function, .method, .classDecl, .interface, .struct, .enum, .trait, .impl, .typeDecl,
   .moduleDecl, .namespaceDecl, .importDecl, .exportDecl, .variableDecl, .constantDecl,
   .controlFlow, .returnStmt, .throwStmt, .document, .sectionBlock, .unknown]

/-- The kind with a written name; every other text means `unknown`. -/
def ofName (s : String) : Kind :=
  (list.find? fun k => k.name == s).getD .unknown

/-- Functions and methods. -/
def isFunctionLike : Kind → Bool
  | .function | .method => true
  | _ => false

/-- Kinds whose functions are methods. -/
def ownsMethods : Kind → Bool
  | .classDecl | .interface | .struct | .enum | .trait | .impl => true
  | _ => false

/-- Kinds whose bodies are searched for nested structures. -/
def isContainer : Kind → Bool
  | .moduleDecl | .namespaceDecl => true
  | k => k.ownsMethods || k.isFunctionLike

/-- Kinds that a type reference or a heritage clause can name. -/
def isTypeLike : Kind → Bool
  | .classDecl | .interface | .struct | .enum | .trait | .typeDecl => true
  | _ => false

/-- Kinds of running text. -/
def isProse : Kind → Bool
  | .document | .sectionBlock => true
  | _ => false

/-- Kinds measured by their branches. -/
def isCode : Kind → Bool
  | .impl | .moduleDecl | .namespaceDecl | .controlFlow => true
  | k => k.isFunctionLike || k.isTypeLike

/-- Kinds that only bring names in or let them out. -/
def isBorder : Kind → Bool
  | .importDecl | .exportDecl => true
  | _ => false

/-- Variables and constants. -/
def isBinding : Kind → Bool
  | .variableDecl | .constantDecl => true
  | _ => false

end Kind

/-- How much a statement matters to a reader. -/
inductive Importance where
  | low
  | medium
  | high
  deriving DecidableEq, Repr, Inhabited

namespace Importance

/-- The written name. -/
def name : Importance → String
  | .low => "low"
  | .medium => "medium"
  | .high => "high"

end Importance

/-- The three lists of an extraction. -/
inductive Tier where
  | topLevel
  | nested
  | internal
  deriving DecidableEq, Repr

namespace Tier

/-- The written name. -/
def name : Tier → String
  | .topLevel => "top_level"
  | .nested => "nested"
  | .internal => "internal"

end Tier

/-- What a result was read from. -/
inductive Strategy where
  /-- From a syntax tree. -/
  | tree
  /-- From text patterns. -/
  | text
  deriving DecidableEq, Repr, Inhabited

namespace Strategy

/-- The written name. -/
def name : Strategy → String
  | .tree => "ast"
  | .text => "text"

end Strategy

end Outline

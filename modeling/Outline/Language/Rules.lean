import Outline.Language.Basic
import Outline.Tree.Walk

/-!
# Rules

What an extractor asks of a language.  There are three ways to answer: from the tables of one
language; from those of a document format, where the whole file is one structure and nothing
counts as code; and, for a language without an entry, from the union of all code languages, in
which the first language that knows a node type decides.

* `NodeTypes.kindOf?`, `NodeTypes.internalOf?`, `NodeTypes.fieldsOf`: look-ups in one table.
* `Refinement.apply`: the correction of a looked-up kind by the node itself.
* `Rules.ofLanguage`, `Rules.ofDocument`, `Rules.union`.
-/

namespace Outline

/-- The fields that hold the name of a node, unless its type says otherwise. -/
def defaultNameFields : List String := ["name"]

namespace NodeTypes

/-- The kind in whose row a node type stands; the first such row counts. -/
def kindOf? (rows : List (Kind × List String)) (type : String) : Option Kind :=
  (rows.find? fun row => row.2.contains type).map (·.1)

/-- The kind and importance in whose row a node type stands. -/
def internalOf? (rows : List (Kind × Importance × List String)) (type : String) :
    Option (Kind × Importance) :=
  (rows.find? fun row => row.2.2.contains type).map fun row => (row.1, row.2.1)

/-- The fields that hold the name of a node of some type. -/
def fieldsOf (rows : List (String × List String)) (type : String) : List String :=
  (rows.lookup type).getD defaultNameFields

end NodeTypes

namespace Refinement

/-- A declaration whose value is a function is a function; otherwise one that begins with
`const` is a constant. -/
def ofDeclarator (t : SyntaxTree) (node : Nat) (kind : Kind) : Kind :=
  match t.findChild? node ["variable_declarator"] with
  | none => kind
  | some binding =>
    let value := ((t.childByField? binding "value").map t.kind).getD ""
    if ["arrow_function", "function_expression", "function", "generator_function"].contains value
    then .function
    else if (t.children node).head?.map t.kind == some "const" then .constantDecl
    else kind

/-- A type declaration is a struct or an interface if its body is one. -/
def ofTypeBody (t : SyntaxTree) (node : Nat) : Kind :=
  let body := ((t.findChild? node ["type_spec"]).bind fun spec =>
    (t.childByField? spec "type").map t.kind).getD ""
  if body == "struct_type" then .struct
  else if body == "interface_type" then .interface
  else .typeDecl

/-- Capitals, digits and underscores, with at least one capital. -/
def isCapitals (name : Text) : Bool :=
  name.any Char.isUpper && name.all fun c => c.isUpper || c.isDigit || c == '_'

/-- An assignment to a name in capitals is a constant. -/
def ofCapitals (t : SyntaxTree) (node : Nat) (kind : Kind) : Kind :=
  if ((t.childByField? node "left").map t.text).any isCapitals then .constantDecl else kind

/-- The kind of a node, corrected. -/
def apply (r : Refinement) (t : SyntaxTree) (node : Nat) (kind : Kind) : Kind :=
  match r with
  | .asListed => kind
  | .declarator =>
    if ["lexical_declaration", "variable_declaration"].contains (t.kind node)
    then ofDeclarator t node kind else kind
  | .typeBody => if t.kind node == "type_declaration" then ofTypeBody t node else kind
  | .capitals => if t.kind node == "assignment" then ofCapitals t node kind else kind

end Refinement

/-- What a language answers to an extractor. -/
structure Rules where
  name : String
  blockStyle : BlockStyle
  heritage : Heritage
  refinement : Refinement
  charLiterals : Bool
  hashComments : Bool
  /-- Whether the whole file is one top-level structure. -/
  wholeFile : Bool
  topLevelKind : String → Option Kind
  nestedKind : String → Option Kind
  internalKind : String → Option (Kind × Importance)
  nameFields : String → List String
  isControlFlow : String → Bool
  isNesting : String → Bool
  isCall : String → Bool
  patterns : Tier → List PatternRule

namespace Rules

/-- The rules of a programming language. -/
def ofLanguage (l : Language) : Rules where
  name := l.name
  blockStyle := l.blockStyle
  heritage := l.heritage
  refinement := l.refinement
  charLiterals := l.charLiterals
  hashComments := l.hashComments
  wholeFile := false
  topLevelKind := NodeTypes.kindOf? l.nodes.topLevel
  nestedKind := NodeTypes.kindOf? l.nodes.nested
  internalKind := NodeTypes.internalOf? l.nodes.internal
  nameFields := NodeTypes.fieldsOf l.nodes.nameFields
  isControlFlow := l.nodes.controlFlow.contains
  isNesting := l.nodes.nesting.contains
  isCall := l.nodes.calls.contains
  patterns := l.rules

/-- The rules of a document format. -/
def ofDocument (l : Language) : Rules :=
  { ofLanguage l with
    heritage := .none
    refinement := .asListed
    wholeFile := true
    internalKind := fun _ => none
    isControlFlow := fun _ => false
    isNesting := fun _ => false
    isCall := fun _ => false }

/-- Adds an entry for a key that has none. -/
def insertNew {α : Type} (table : List (String × α)) (key : String) (value : α) :
    List (String × α) :=
  if (table.lookup key).isSome then table else table ++ [(key, value)]

/-- Adds an entry for each of several keys that has none. -/
def insertAll {α : Type} (table : List (String × α)) (keys : List String) (value : α) :
    List (String × α) :=
  keys.foldl (fun table key => insertNew table key value) table

/-- Adds the words that are not there yet. -/
def addWords (known new : List String) : List String :=
  new.foldl (fun ws w => if ws.contains w then ws else ws ++ [w]) known

/-- Node types of several languages in one table, each with the first meaning given to it. -/
structure Union where
  topLevel : List (String × Kind) := []
  nested : List (String × Kind) := []
  internal : List (String × Kind × Importance) := []
  nameFields : List (String × List String) := []
  controlFlow : List String := []
  nesting : List String := []
  calls : List String := []

namespace Union

/-- Adds the node types of one more language. -/
def add (u : Union) (n : NodeTypes) : Union where
  topLevel := n.topLevel.foldl (fun t row => insertAll t row.2 row.1) u.topLevel
  nested := n.nested.foldl (fun t row => insertAll t row.2 row.1) u.nested
  internal := n.internal.foldl (fun t row => insertAll t row.2.2 (row.1, row.2.1)) u.internal
  nameFields := n.nameFields.foldl (fun t row => insertNew t row.1 row.2) u.nameFields
  controlFlow := addWords u.controlFlow n.controlFlow
  nesting := addWords u.nesting n.nesting
  calls := addWords u.calls n.calls

/-- The union of the node types of several languages. -/
def ofLanguages (ls : List Language) : Union :=
  ls.foldl (fun u l => u.add l.nodes) {}

end Union

/-- The rules for a language without an entry: the node types of all the given languages, and the
patterns of `text`. -/
def union (ls : List Language) (text : Language) : Rules :=
  let u := Union.ofLanguages ls
  { name := text.name
    blockStyle := text.blockStyle
    heritage := text.heritage
    refinement := .asListed
    charLiterals := false
    hashComments := false
    wholeFile := false
    topLevelKind := fun type => u.topLevel.lookup type
    nestedKind := fun type => u.nested.lookup type
    internalKind := fun type => u.internal.lookup type
    nameFields := NodeTypes.fieldsOf u.nameFields
    isControlFlow := u.controlFlow.contains
    isNesting := u.nesting.contains
    isCall := u.calls.contains
    patterns := text.rules }

/-- The kind of a node, corrected for the language. -/
def refine (r : Rules) (t : SyntaxTree) (node : Nat) (kind : Kind) : Kind :=
  r.refinement.apply t node kind

end Rules

end Outline

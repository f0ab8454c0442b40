import Outline.Language.Registry
import Outline.Extraction.Text

/-!
# Structures from a syntax tree

The node types of the language say which nodes are structures; the tree says where they are and
what they are called.

* `TreeExtraction.declarationsOnStack`: the top level; below a declaration there is no further one,
  except below an export.
* `TreeExtraction.nestedBelow`: members, to a limited depth below a container.
* `TreeExtraction.statementsBelow`: statements of a function, not those of functions inside it.
* `extractTree`: the three tiers together, or why the tree cannot be used.
-/

namespace Outline

/-- Why a tree cannot be used. -/
inductive ExtractError where
  | emptyTree
  /-- The tree was made from another text; lengths in bytes. -/
  | sourceMismatch (tree content : Nat)
  deriving DecidableEq, Repr

namespace ExtractError

/-- The wording of an error. -/
def message : ExtractError → String
  | .emptyTree => "syntax tree is empty"
  | .sourceMismatch tree content =>
    "syntax tree covers " ++ decimal tree ++ " bytes but the content has " ++ decimal content

end ExtractError

namespace TreeExtraction

/-! ## Names -/

/-- Children that carry the name of a declaration without one of its own. -/
def declaratorKinds : List String :=
  ["variable_declarator", "type_spec", "const_spec", "var_spec", "assignment", "init_declarator",
   "function_declarator"]

/-- The fields in which such a child keeps the name. -/
def declaratorFields : List String := ["name", "left", "declarator", "pattern"]

/-- The fields in which an import keeps what it imports. -/
def importFields : List String := ["source", "module_name", "argument", "path"]

/-- Kinds of nodes that tell what is imported. -/
def importTargetKinds : List String :=
  ["interpreted_string_literal", "string_literal", "system_lib_string", "string", "dotted_name",
   "scoped_identifier", "qualified_name", "identifier"]

def isQuote (c : Char) : Bool := c == '"' || c == '\'' || c == '\x60' || c == '<' || c == '>'

/-- Without blanks and then quotes at the ends. -/
def unquoted (t : Text) : Text :=
  ((Text.trim t).dropWhile isQuote).reverse.dropWhile isQuote |>.reverse

/-- What an import imports, without quotes. -/
def importTarget? (t : SyntaxTree) (node : Nat) : Option String :=
  let inFields := importFields.filterMap (t.childByField? node)
  let below := (t.findAll node importTargetKinds).filter (· != node)
  (inFields ++ below).findSome? fun id =>
    let target := unquoted (t.text id)
    if target.isEmpty then none else some (String.ofList target)

/-- The name of a structure. -/
def nameOf? (r : Rules) (t : SyntaxTree) (node : Nat) (kind : Kind) : Option String :=
  let own := t.identifierName? node (r.nameFields (t.kind node))
  let declared := (t.findChild? node declaratorKinds).bind fun child =>
    t.identifierName? child declaratorFields
  let target := if kind = .importDecl then importTarget? t node else none
  target.or ((own.or declared).map String.ofList)

/-! ## Top level -/

/-- The structure of a node with text that is not blank. -/
def structureOf? (r : Rules) (t : SyntaxTree) (language : String) (node : Nat) (kind : Kind) :
    Option Structure := do
  let content := t.text node
  let (start, stop) ← t.lineSpan? node
  if content.isBlank then none
  else
    let name := nameOf? r t node kind
    return {
      kind
      name := name.getD (defaultName kind start)
      content := String.ofList content
      location := .clamped start stop
      node := some node
      language
      confidence := if name.isSome then .percent 95 else .percent 75 }

/-- The kind that the rules list for a node; the first node stands for the whole text. -/
def listedKind? (r : Rules) (t : SyntaxTree) (id : Nat) : Option Kind :=
  if t.isNamed id ∧ t.root? ≠ some id then r.topLevelKind (t.kind id) else none

/-- The declarations that are met while there is something on a stack: its first node is taken off,
and its children are put on unless it is a declaration other than an export. -/
def declarationsOnStack (r : Rules) (t : SyntaxTree) (language : String) :
    List Nat → List Structure
  | [] => []
  | id :: stack =>
    match listedKind? r t id with
    | none => declarationsOnStack r t language (t.stackChildren id stack)
    | some listed =>
      let kind := r.refine t id listed
      (structureOf? r t language id kind).toList ++
        if kind = .exportDecl then declarationsOnStack r t language (t.stackChildren id stack)
        else declarationsOnStack r t language stack
termination_by stack => (stack.flatMap t.subtree).length
decreasing_by
  · rw [SyntaxTree.flatMap_subtree_cons, List.length_cons]
    exact Nat.lt_succ_self _
  · rw [SyntaxTree.flatMap_subtree_cons, List.length_cons]
    exact Nat.lt_succ_self _
  · rw [List.flatMap_cons, List.length_append, SyntaxTree.subtree_eq, List.length_cons]
    omega

/-- The structures at the top level. -/
def topLevel (r : Rules) (t : SyntaxTree) (language : String) : List Structure :=
  if r.wholeFile then (wholeText? t.source language t.root?).toList
  else (t.root?.map fun root => declarationsOnStack r t language [root]).getD []

/-! ## Nested -/

/-- The kind of a named node among the members of a parent. -/
def memberKindOf? (r : Rules) (t : SyntaxTree) (parent : Kind) (id : Nat) : Option Kind :=
  if t.isNamed id then
    (r.nestedKind (t.kind id)).map fun kind => memberKind parent (r.refine t id kind)
  else none

/-- The members of a parent among the nodes below one, at most `depth` steps below.  What is below
a member belongs to the member, one level deeper. -/
def nestedBelow (r : Rules) (t : SyntaxTree) (language : String) :
    (depth : Nat) → (node : Nat) → (parent : Ref) → (level : Nat) → List NestedStructure
  | 0, _, _, _ => []
  | depth + 1, node, parent, level =>
    (t.children node).flatMap fun child =>
      match (memberKindOf? r t parent.kind child).bind (structureOf? r t language child) with
      | none => nestedBelow r t language depth child parent level
      | some found =>
        { found with parent, level } ::
          nestedBelow r t language depth child found.ref (level + 1)

/-- The members of the containers. -/
def nested (r : Rules) (t : SyntaxTree) (language : String) (maxDepth : Nat)
    (top : List Structure) : List NestedStructure :=
  (top.filter fun s => s.kind.isContainer).flatMap fun s =>
    match s.node with
    | none => []
    | some node => nestedBelow r t language maxDepth node s.ref 0

/-! ## Internal -/

/-- Whether a node type begins a function of its own. -/
def isFunctionBoundary (r : Rules) (type : String) : Bool :=
  (r.nestedKind type).any Kind.isFunctionLike || (r.topLevelKind type).any Kind.isFunctionLike

/-- The statement of a node with text that is not blank. -/
def statementOf? (r : Rules) (t : SyntaxTree) (parent : Ref) (node : Nat) :
    Option InternalStructure := do
  let (kind, importance) ← r.internalKind (t.kind node)
  let content := t.text node
  let (start, stop) ← t.lineSpan? node
  if content.isBlank then none
  else return {
    kind
    name := if kind.isBinding then nameOf? r t node kind else none
    content := String.ofList content
    location := .clamped start stop
    parent
    importance
    confidence := .percent 90 }

/-- The statements of a parent among the nodes below one, at most `depth` steps below. -/
def statementsBelow (r : Rules) (t : SyntaxTree) (parent : Ref) :
    (depth : Nat) → (node : Nat) → List InternalStructure
  | 0, _ => []
  | depth + 1, node =>
    (t.children node).flatMap fun child =>
      if t.isNamed child then
        if isFunctionBoundary r (t.kind child) then []
        else (statementOf? r t parent child).toList ++ statementsBelow r t parent depth child
      else statementsBelow r t parent depth child

/-- The statements of the functions. -/
def internal (r : Rules) (t : SyntaxTree) (maxDepth : Nat) (top : List Structure)
    (nested : List NestedStructure) : List InternalStructure :=
  ((top.map Structure.ref ++ nested.map NestedStructure.ref).filter
    fun p => p.kind.isFunctionLike).flatMap fun p =>
      match p.node with
      | none => []
      | some node => statementsBelow r t p maxDepth node

end TreeExtraction

/-- Whether a tree can be used for a text. -/
def checkTree (content : Text) (t : SyntaxTree) : Except ExtractError Unit :=
  if t.root?.isNone then .error .emptyTree
  else if t.source ≠ content then
    .error (.sourceMismatch t.source.byteLength content.byteLength)
  else .ok ()

/-- The structures of a tree; the tree itself is not attached. -/
def extractTree (maxDepth : Nat) (content : Text) (language : String) (t : SyntaxTree) :
    Except ExtractError Extraction := do
  checkTree content t
  let r := rulesOf language
  let topLevel := TreeExtraction.topLevel r t language
  let nested := TreeExtraction.nested r t language maxDepth topLevel
  return {
    language
    strategy := .tree
    topLevel
    nested
    internal := TreeExtraction.internal r t maxDepth topLevel nested
    tree := none }

end Outline

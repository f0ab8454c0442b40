import Outline.Tree.Basic

/-!
# Walks over a syntax tree

* `SyntaxTree.subtree`: a node and everything below it, in reading order.
* `SyntaxTree.findAll`, `findChild?`: nodes by kind; all of them are found with a stack.
* `SyntaxTree.identifierBelow?`: the nearest identifier, level by level.
* `SyntaxTree.identifierName?`: the name of a declaration.
* `SyntaxTree.ancestor?`: upwards along the parents.
-/

namespace Outline.SyntaxTree

/-- Kinds of nodes that hold a plain name. -/
def identifierKinds : List String :=
  ["identifier", "type_identifier", "property_identifier", "field_identifier",
   "private_property_identifier", "shorthand_property_identifier", "constant", "name",
   "simple_identifier", "word"]

def isIdentifierKind (kind : String) : Bool := identifierKinds.contains kind

/-- A node followed by the subtrees of its children. -/
def subtree (t : SyntaxTree) (id : Nat) : List Nat :=
  id :: (t.children id).attach.flatMap fun ⟨c, _⟩ => t.subtree c
termination_by t.size - id
decreasing_by
  have := lt_of_mem_children (t := t) (p := id) (c := c) (by assumption)
  omega

theorem subtree_eq (t : SyntaxTree) (id : Nat) :
    t.subtree id = id :: (t.children id).flatMap t.subtree := by
  rw [subtree, List.flatMap_subtype (g := t.subtree) (fun _ _ => rfl), List.unattach_attach]

/-- A stack with the children of a node put on it, from the last to the first. -/
def stackChildren (t : SyntaxTree) (id : Nat) (stack : List Nat) : List Nat :=
  (t.children id).reverse.foldl (fun stack c => c :: stack) stack

theorem stackChildren_eq (t : SyntaxTree) (id : Nat) (stack : List Nat) :
    t.stackChildren id stack = t.children id ++ stack := by
  rw [stackChildren, List.foldl_reverse, List.foldr_cons_eq_append']

/-- What is still to be read from a stack: the subtrees of its nodes. -/
theorem flatMap_subtree_cons (t : SyntaxTree) (id : Nat) (stack : List Nat) :
    (id :: stack).flatMap t.subtree = id :: (t.stackChildren id stack).flatMap t.subtree := by
  rw [stackChildren_eq, List.flatMap_cons, List.flatMap_append, subtree_eq, List.cons_append]

/-- The nodes with one of the kinds that are met while there is something on a stack: its first
node is taken off, and the children of that node are put on. -/
def findOnStack (t : SyntaxTree) (kinds : List String) : List Nat → List Nat
  | [] => []
  | id :: stack =>
    let rest := t.findOnStack kinds (t.stackChildren id stack)
    if kinds.contains (t.kind id) then id :: rest else rest
termination_by stack => (stack.flatMap t.subtree).length
decreasing_by
  rw [flatMap_subtree_cons, List.length_cons]
  omega

/-- Every node of a subtree with one of the kinds, in reading order. -/
def findAll (t : SyntaxTree) (start : Nat) (kinds : List String) : List Nat :=
  t.findOnStack kinds [start]

/-- The first child with one of the kinds. -/
def findChild? (t : SyntaxTree) (id : Nat) (kinds : List String) : Option Nat :=
  (t.children id).find? fun c => kinds.contains (t.kind c)

/-- Whether a node is an identifier. -/
def isIdentifier (t : SyntaxTree) (id : Nat) : Bool := isIdentifierKind (t.kind id)

/-- The first identifier of a level, or else what has been collected for the next level together
with the children of its nodes. -/
def searchLevel (t : SyntaxTree) (next : List Nat) : List Nat → Nat ⊕ List Nat
  | [] => .inr next
  | id :: level =>
    if t.isIdentifier id then .inl id else t.searchLevel (next ++ t.children id) level

/-- The first identifier of a level, or else of the levels below it, as many as allowed. -/
def identifierInLevels? (t : SyntaxTree) : Nat → List Nat → Option Nat
  | depth, level =>
    match t.searchLevel [] level with
    | .inl id => some id
    | .inr next =>
      match depth with
      | 0 => none
      | depth + 1 => if next.isEmpty then none else identifierInLevels? t depth next

/-- The nearest identifier at most `depth` steps below a node, itself included; of several at the
same distance the first. -/
def identifierBelow? (t : SyntaxTree) (id depth : Nat) : Option Nat :=
  t.identifierInLevels? depth [id]

/-- The name found through one field: that of the nearest identifier, if it is not blank. -/
def nameInField? (t : SyntaxTree) (id : Nat) (field : String) : Option Text := do
  let child ← t.childByField? id field
  let identifier ← t.identifierBelow? child 4
  let name := (t.text identifier).trim
  if name.isEmpty then none else some name

/-- The name of a declaration: through the first field that yields one, or else the first child
that is an identifier. -/
def identifierName? (t : SyntaxTree) (id : Nat) (fields : List String) : Option Text :=
  match fields.findSome? (t.nameInField? id) with
  | some name => some name
  | none =>
    ((t.findChild? id identifierKinds).map fun c => (t.text c).trim).filter fun s => !s.isEmpty

/-- The first of the ancestors from `start` on, at most `fuel` of them, with one of the kinds. -/
def ancestorFrom? (t : SyntaxTree) (kinds : List String) : Nat → Option Nat → Option Nat
  | 0, _ => none
  | _, none => none
  | fuel + 1, some id =>
    if kinds.contains (t.kind id) then some id else ancestorFrom? t kinds fuel (t.parent? id)

/-- The nearest ancestor with one of the kinds.  A chain of parents without repetition is no
longer than the tree has nodes and one that does not exist. -/
def ancestor? (t : SyntaxTree) (id : Nat) (kinds : List String) : Option Nat :=
  t.ancestorFrom? kinds (t.size + 1) (t.parent? id)

end Outline.SyntaxTree

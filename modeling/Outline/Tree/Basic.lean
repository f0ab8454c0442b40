import Outline.Number.Ascending
import Outline.Structure.Location
import Outline.Text.Lines

/-!
# Syntax trees

A syntax tree is an arena: nodes stand in one array and name each other by their position.
Nodes are only ever added at the end, and a node is entered among the children of its parent
only when the parent stands before it.  So children come after their parents, which is a field
of the type; every walk down the tree ends because of it.

A parent that does not exist (yet) is remembered by the node but gets no child.

* `SyntaxTree.ofSource`, `SyntaxTree.add`: building a tree.
* `SyntaxTree.pointAt`: row and column of a byte.
* `SyntaxTree.kind`, `children`, `parent?`, `childByField?`, `text`, `lineSpan?`: reading it;
  a position without a node has no kind, no children and no text.
-/

namespace Outline

/-- A node of a syntax tree. -/
structure Node where
  kind : String
  /-- The field this node fills in its parent. -/
  field : Option String
  /-- Whether the kind is a name rather than a piece of punctuation. -/
  named : Bool
  /-- Whether the node stands for text that could not be read. -/
  isError : Bool
  startByte : Nat
  stopByte : Nat
  start : Point
  stop : Point
  parent : Option Nat
  children : List Nat
  deriving DecidableEq, Repr

/-- An arena of nodes over a source text. -/
structure SyntaxTree where
  source : Text
  /-- The bytes at which the lines of the source begin. -/
  lineStarts : List Nat
  nodes : Array Node
  /-- Children stand after their parent. -/
  ordered : ∀ (p : Nat) (n : Node), nodes[p]? = some n → ∀ c ∈ n.children, p < c ∧ c < nodes.size

namespace SyntaxTree

/-- The tree without nodes over a source. -/
def ofSource (source : Text) : SyntaxTree where
  source := source
  lineStarts := source.lineStarts
  nodes := #[]
  ordered := by simp

/-- The number of nodes. -/
def size (t : SyntaxTree) : Nat := t.nodes.size

/-- The first node, if there is one. -/
def root? (t : SyntaxTree) : Option Nat := if t.size = 0 then none else some 0

def get? (t : SyntaxTree) (id : Nat) : Option Node := t.nodes[id]?

/-- The kind of a node. -/
def kind (t : SyntaxTree) (id : Nat) : String := ((t.get? id).map (·.kind)).getD ""

/-- The children of a node, in order. -/
def children (t : SyntaxTree) (id : Nat) : List Nat := ((t.get? id).map (·.children)).getD []

/-- The child at an index. -/
def child? (t : SyntaxTree) (id index : Nat) : Option Nat := (t.children id)[index]?

/-- The parent a node was added under. -/
def parent? (t : SyntaxTree) (id : Nat) : Option Nat := (t.get? id).bind (·.parent)

/-- Whether a node exists and is named. -/
def isNamed (t : SyntaxTree) (id : Nat) : Bool := (t.get? id).any (·.named)

/-- The first child that fills a field. -/
def childByField? (t : SyntaxTree) (id : Nat) (field : String) : Option Nat :=
  (t.children id).find? fun c => ((t.get? c).bind (·.field)) == some field

/-- The source text of a node; empty when its bytes do not cut the source between characters. -/
def text (t : SyntaxTree) (id : Nat) : Text :=
  ((t.get? id).bind fun n => t.source.byteRange? n.startByte n.stopByte).getD []

/-- The first and last line of a node, counted from one. -/
def lineSpan? (t : SyntaxTree) (id : Nat) : Option (Nat × Nat) :=
  (t.get? id).map fun n => (n.start.row + 1, n.stop.row + 1)

/-- The nodes that stand for unreadable text. -/
def errors (t : SyntaxTree) : List Node := t.nodes.toList.filter (·.isError)

def hasErrors (t : SyntaxTree) : Bool := !t.errors.isEmpty

/-- The row of the last line that begins at or before a byte of the source. -/
def rowOf (t : SyntaxTree) (byte : Nat) : Nat :=
  match slotOf t.lineStarts byte with
  | .found row => row
  | .missing next => next - 1

/-- The row and column of a byte; bytes behind the end count as the end. -/
def pointAt (t : SyntaxTree) (byte : Nat) : Point :=
  let byte := min byte t.source.byteLength
  let row := t.rowOf byte
  ⟨row, byte - t.lineStarts.getD row 0⟩

/-- Whether a kind is a name: letters, digits and underscores only, at least one. -/
def isName (kind : String) : Bool :=
  !kind.isEmpty && kind.toList.all fun c => c.isAlphanum || c == '_'

theorem ordered_push {nodes : Array Node} {new : Node}
    (h : ∀ (p : Nat) (n : Node), nodes[p]? = some n → ∀ c ∈ n.children, p < c ∧ c < nodes.size)
    (hnew : new.children = []) (p : Nat) (n : Node) (hp : (nodes.push new)[p]? = some n)
    (c : Nat) (hc : c ∈ n.children) : p < c ∧ c < (nodes.push new).size := by
  rw [Array.getElem?_push] at hp
  rw [Array.size_push]
  split at hp
  · cases hp
    simp [hnew] at hc
  · have := h p n hp c hc
    omega

theorem ordered_push_modify {nodes : Array Node} {new : Node} {parent : Nat}
    (h : ∀ (p : Nat) (n : Node), nodes[p]? = some n → ∀ c ∈ n.children, p < c ∧ c < nodes.size)
    (hnew : new.children = []) (p : Nat) (n : Node)
    (hp : ((nodes.modify parent fun m =>
      { m with children := m.children ++ [nodes.size] }).push new)[p]? = some n)
    (c : Nat) (hc : c ∈ n.children) :
    p < c ∧ c < ((nodes.modify parent fun m =>
      { m with children := m.children ++ [nodes.size] }).push new).size := by
  rw [Array.size_push, Array.size_modify]
  rw [Array.getElem?_push, Array.size_modify] at hp
  split at hp
  · cases hp
    simp [hnew] at hc
  · rw [Array.getElem?_modify] at hp
    split at hp
    · rename_i hpar
      subst hpar
      obtain ⟨m, hm, rfl⟩ := Option.map_eq_some_iff.1 hp
      have hlt : parent < nodes.size := (Array.getElem?_eq_some_iff.1 hm).1
      rcases List.mem_append.1 hc with hc | hc
      · have := h parent m hm c hc
        omega
      · have hc' : c = nodes.size := by simpa using hc
        omega
    · have := h p n hp c hc
      omega

/-- Adds a node over a range of bytes at the end of the arena, as the last child of its parent
when that one exists. -/
def add (t : SyntaxTree) (parent : Option Nat) (kind : String) (field : Option String)
    (startByte stopByte : Nat) : SyntaxTree :=
  let node : Node :=
    { kind, field, named := isName kind, isError := kind == "ERROR", startByte, stopByte
      start := t.pointAt startByte, stop := t.pointAt stopByte, parent, children := [] }
  match parent with
  | none =>
    { t with
      nodes := t.nodes.push node
      ordered := ordered_push t.ordered rfl }
  | some p =>
    { t with
      nodes := (t.nodes.modify p fun m =>
        { m with children := m.children ++ [t.nodes.size] }).push node
      ordered := ordered_push_modify t.ordered rfl }

theorem lt_of_mem_children {t : SyntaxTree} {p c : Nat} (h : c ∈ t.children p) :
    p < c ∧ c < t.size := by
  unfold children get? at h
  cases hn : t.nodes[p]? with
  | none => simp [hn] at h
  | some n => exact t.ordered p n hn c (by simpa [hn] using h)

end SyntaxTree

end Outline

import Outline.Language.Registry
import Outline.Markdown.Section
import Outline.Number.Count
import Outline.Pattern.Search

/-!
# Complexity

Code is measured by its branches, prose by its elements, anything else by its size.  With a tree
the branches are nodes, without one they are words.

* `TextSize`: what is measured of every text.
* `Analysis`: the measures of code, of prose and of other text.
* `Analysis.score`, `Analysis.entries`: the score, and the measures by name.
* `SyntaxTree.countOnStack`: branches and nesting of a tree, counted in one walk.
* `analyse`: the measures of a structure.
-/

namespace Outline

open Pattern

/-- What is measured of every text. -/
structure TextSize where
  lines : Nat
  length : Nat
  braces : Nat
  brackets : Nat
  deriving DecidableEq, Repr

/-- The size of a text. -/
def TextSize.of (content : Text) : TextSize where
  lines := content.lineCount
  length := content.length
  braces := content.countP fun c => c == '\x7b' || c == '\x7d'
  brackets := content.countP fun c => c == '[' || c == ']'

/-- The branches of a piece of code. -/
inductive Branches where
  /-- Nodes of a tree. -/
  | nodes (count : Nat)
  /-- Words, each with its number, and conditional expressions. -/
  | words (keywords : List (String × Nat)) (ternaries : Nat)
  deriving DecidableEq, Repr

/-- The number of branches. -/
def Branches.total : Branches → Nat
  | .nodes count => count
  | .words keywords ternaries => sumOf (keywords.map (·.2)) + ternaries

/-- The measures of a structure. -/
inductive Analysis where
  | code (size : TextSize) (branches : Branches) (depth : Nat)
  | prose (size : TextSize) (counts : Markdown.ProseCounts)
  | plain (size : TextSize) (entropy : Float) (uniqueChars : Nat)

/-- A measured value. -/
inductive Measure where
  | count (n : Nat)
  | bits (x : Float)

namespace Analysis

/-- The greatest score. -/
def scoreLimit : Nat := 0xFFFFFFFF

/-- The score before it is limited. -/
def fullScore : Analysis → Nat
  | .code _ branches _ => 1 + branches.total
  | .prose _ c =>
    1 + c.headings + c.codeBlocks + c.tables * 2 + c.listItems / 5 + c.links / 10 + c.words / 200
  | .plain size _ _ => 1 + size.lines / 25 + size.length / 500

/-- The score. -/
def score (a : Analysis) : Nat := min a.fullScore scoreLimit

/-- The measures that every text has, by name. -/
def sizeEntries (s : TextSize) : List (String × Nat) :=
  [("lines", s.lines), ("length", s.length), ("braces", s.braces), ("brackets", s.brackets)]

/-- The branches, by name. -/
def branchEntries : Branches → List (String × Nat)
  | .nodes count => [("control_flow_nodes", count)]
  | .words keywords ternaries =>
    keywords.map (fun k => ("keyword_" ++ k.1, k.2)) ++ [("ternaries", ternaries)]

/-- The counts of prose, by name. -/
def proseEntries (c : Markdown.ProseCounts) : List (String × Nat) :=
  [("headings", c.headings), ("code_blocks", c.codeBlocks), ("tables", c.tables),
   ("list_items", c.listItems), ("links", c.links), ("paragraphs", c.paragraphs),
   ("words", c.words)]

/-- All measures, by name. -/
def entries : Analysis → List (String × Measure)
  | .code size branches depth =>
    (sizeEntries size ++ branchEntries branches ++
      [("cyclomatic", 1 + branches.total), ("cognitive", 1 + branches.total),
       ("max_nesting_depth", depth)]).map fun e => (e.1, .count e.2)
  | .prose size counts =>
    (sizeEntries size ++ proseEntries counts).map fun e => (e.1, .count e.2)
  | .plain size entropy uniqueChars =>
    (sizeEntries size).map (fun e => (e.1, Measure.count e.2)) ++
      [("entropy", .bits entropy), ("unique_chars", .count uniqueChars)]

end Analysis

/-! ## Branches in a tree -/

/-- What has been counted of a tree. -/
structure NodeCounts where
  /-- The branches. -/
  branches : Nat
  /-- The deepest nesting. -/
  deepest : Nat
  deriving DecidableEq, Repr

namespace NodeCounts

/-- Nothing has been counted. -/
def start : NodeCounts := ⟨0, 0⟩

/-- The counts after a node that is met at some depth, and the depth of its children.  Only a named
node counts, and only a node that nests makes a nesting deeper. -/
def meet (t : SyntaxTree) (id depth : Nat) (counts : NodeCounts) : NodeCounts × Nat :=
  if t.isNamed id then
    let branches :=
      if genericRules.isControlFlow (t.kind id) then counts.branches + 1 else counts.branches
    if genericRules.isNesting (t.kind id) then
      (⟨branches, max counts.deepest (depth + 1)⟩, depth + 1)
    else (⟨branches, counts.deepest⟩, depth)
  else (counts, depth)

end NodeCounts

namespace SyntaxTree

/-- A stack with the children of a node put on it, from the first to the last, all at one depth. -/
def stackAtDepth (t : SyntaxTree) (id depth : Nat) (stack : List (Nat × Nat)) : List (Nat × Nat) :=
  (t.children id).foldl (fun stack c => (c, depth) :: stack) stack

theorem stackAtDepth_eq (t : SyntaxTree) (id depth : Nat) (stack : List (Nat × Nat)) :
    t.stackAtDepth id depth stack = (t.children id).reverse.map (fun c => (c, depth)) ++ stack := by
  rw [stackAtDepth, ← List.foldr_reverse, ← List.foldr_cons_eq_append', List.foldr_map]

/-- The number of nodes still to be met from a stack: those at and below its nodes. -/
def nodesToMeet (t : SyntaxTree) (stack : List (Nat × Nat)) : Nat :=
  (stack.flatMap fun e => t.subtree e.1).length

/-- A node that is met is one less to be met. -/
theorem nodesToMeet_cons (t : SyntaxTree) (id depth below : Nat) (stack : List (Nat × Nat)) :
    t.nodesToMeet ((id, depth) :: stack) = t.nodesToMeet (t.stackAtDepth id below stack) + 1 := by
  have hchildren : (((t.children id).reverse.map fun c => (c, below)).flatMap
      fun e => t.subtree e.1).length = ((t.children id).flatMap t.subtree).length := by
    rw [List.flatMap_map, List.length_flatMap, List.map_reverse, List.sum_reverse,
      ← List.length_flatMap]
  rw [nodesToMeet, nodesToMeet, stackAtDepth_eq, List.flatMap_append, List.length_append,
    hchildren, List.flatMap_cons, List.length_append, subtree_eq, List.length_cons,
    Nat.add_right_comm]

/-- The counts after everything that is met while there is something on a stack of nodes with their
depths: the first node is taken off, and its children are put on. -/
def countOnStack (t : SyntaxTree) (counts : NodeCounts) : List (Nat × Nat) → NodeCounts
  | [] => counts
  | (id, depth) :: stack =>
    -- a node that is not in the tree has no name and no children, and passes without a trace
    let (counts, below) := counts.meet t id depth
    t.countOnStack counts (t.stackAtDepth id below stack)
termination_by stack => t.nodesToMeet stack
decreasing_by
  rw [nodesToMeet_cons]
  exact Nat.lt_succ_self _

/-- What is counted at and below a node. -/
def nodeCounts (t : SyntaxTree) (id : Nat) : NodeCounts := t.countOnStack .start [(id, 0)]

end SyntaxTree

/-! ## Branches in text -/

/-- Words that stand for a branch. -/
def branchWords : List String :=
  ["if", "elif", "elsif", "while", "for", "foreach", "switch", "match", "case", "when", "catch",
   "except", "rescue"]

/-- A branch word on its own. -/
def branchWord : Pattern := chain [boundary, captured (words branchWords), boundary]

/-- A question mark between blanks. -/
def ternaryMark : Pattern := chain [space, "?", space]

/-- The branch words of a text, each with its number. -/
def countBranchWords (content : Text) : List (String × Nat) :=
  let found := (branchWord.all content).map fun f =>
    String.ofList (Found.cut content f.start f.stop)
  (branchWords.map fun w => (w, found.count w)).filter fun e => e.2 != 0

/-- The deepest nesting of braces, from a depth on. -/
def braceDepth (depth deepest : Nat) : Text → Nat
  | [] => deepest
  | c :: rest =>
    if c = '\x7b' then braceDepth (depth + 1) (max deepest (depth + 1)) rest
    else if c = '\x7d' then braceDepth (depth - 1) deepest rest
    else braceDepth depth deepest rest

/-- The width of one step of indentation. -/
def indentStep : Nat := 4

/-- The steps of indentation below the first line, without that of the body itself. -/
def indentDepth (content : Text) : Nat :=
  match content.lines.filter fun l => !l.isBlank with
  | [] => 0
  | first :: rest =>
    let base := indentWidth first
    let deepest := match rest with
      | [] => base
      | _ => (rest.map indentWidth).foldl max 0
    (deepest - base) / indentStep - 1

/-- The nesting of a text: of braces below the outermost ones, or of indentation where there are
no braces. -/
def nestingDepth (content : Text) : Nat :=
  if content.any (· == '\x7b') then braceDepth 0 0 content - 1 else indentDepth content

/-! ## Size -/

/-- The characters of a text, each once with its number. -/
def characterCounts (content : Text) : List Nat :=
  content.eraseDups.map fun c => content.count c

/-- Bits of information per character. -/
def entropy (content : Text) : Float :=
  let total := content.length.toFloat
  (characterCounts content).foldl (fun sum n =>
    let p := n.toFloat / total
    sum + -p * p.log2) 0

/-- The measures of a text of some kind; with a tree, those of the given node of it. -/
def analyse (content : Text) (kind : Kind) (node : Option (SyntaxTree × Nat)) : Analysis :=
  let size := TextSize.of content
  if kind.isCode then
    match node.filter fun (t, id) => id < t.size with
    | some (t, id) =>
      let counts := t.nodeCounts id
      .code size (.nodes counts.branches) counts.deepest
    | none =>
      .code size (.words (countBranchWords content) (ternaryMark.all content).length)
        (nestingDepth content)
  else if kind.isProse then .prose size (Markdown.proseCounts content)
  else .plain size (entropy content) content.eraseDups.length

end Outline

import Mathlib.Data.Set.Card
import Mathlib.Order.Bounds.Basic
import Outline.Complexity
import Outline.Proofs.Language.Rules
import Outline.Proofs.Tree.Ancestors

/-!
# The branches of a node

Code is measured on a tree by one loop over a stack.  Each entry of the stack is a node with the
number of nesting nodes above it, and the loop carries a count and a running maximum.  The maximum
is only raised at nesting nodes, which is enough because no entry is ever deeper than it
(`IsWithin`); so one step leaves what the walk comes to as it was (`outcome_meet`), and the loop
finds the two recursions over the tree (`countOnStack_eq`, `nodeCounts_eq`).

What the numbers mean mentions neither.  The branches of a node are a set of nodes, those that some
steps lead to and that stand for a branch (`SyntaxTree.branchesOf`); the count is the size of this
set, because a walk over a linked tree comes to no node twice
(`SyntaxTree.branchNodes_eq_ncard`).  The nesting is a maximum over all ways down, and the recursion
finds it because a way down is its first node followed by a way down from a child
(`SyntaxTree.isWayDown_cons_iff`).

Neither number depends on the order of children.  Nodes are numbered as they are added, so another
order comes with other numbers; `SyntaxTree.IsRearranged` allows for both.

* `IsBranchKind`, `IsNestingKind`: the kinds of nodes that are counted.
* `branchNodes`, `nestingBelow`: the branches and the nesting of a node by recursion.
* `NodeCounts.outcome`: what a walk comes to, from what has been counted and what is on the stack.
* `SyntaxTree.IsWayDown`: the ways from a node downwards.
* `analyse_node`: score and measures of a node.
-/

namespace Outline

/-! ## What is counted -/

/-- A kind of node that stands for a branch in some programming language. -/
def IsBranchKind (kind : String) : Prop := ∃ l ∈ codeLanguages, kind ∈ l.nodes.controlFlow

/-- A kind of node that adds a level of nesting in some programming language. -/
def IsNestingKind (kind : String) : Prop := ∃ l ∈ codeLanguages, kind ∈ l.nodes.nesting

namespace SyntaxTree

variable {t : SyntaxTree}

/-- A named node that stands for a branch. -/
def IsBranch (t : SyntaxTree) (x : Nat) : Prop := t.isNamed x = true ∧ IsBranchKind (t.kind x)

/-- A named node that adds a level of nesting. -/
def IsLevel (t : SyntaxTree) (x : Nat) : Prop := t.isNamed x = true ∧ IsNestingKind (t.kind x)

instance (t : SyntaxTree) : DecidablePred t.IsLevel := fun x =>
  inferInstanceAs (Decidable (t.isNamed x = true ∧ ∃ l ∈ codeLanguages, _))

end SyntaxTree

/-- The number of named branch nodes in a subtree. -/
def branchNodes (t : SyntaxTree) (id : Nat) : Nat :=
  (t.subtree id).countP fun n => t.isNamed n && genericRules.isControlFlow (t.kind n)

/-- The largest number of nesting nodes on a way down from a node. -/
def nestingBelow (t : SyntaxTree) (id : Nat) : Nat :=
  let deepest := ((t.children id).attach.map fun ⟨c, _⟩ => nestingBelow t c).foldl max 0
  if t.isNamed id && genericRules.isNesting (t.kind id) then deepest + 1 else deepest
termination_by t.size - id
decreasing_by
  have := SyntaxTree.lt_of_mem_children (t := t) (p := id) (c := c) (by assumption)
  omega

namespace SyntaxTree

variable {t : SyntaxTree}

theorem mem_subtree_self (t : SyntaxTree) (id : Nat) : id ∈ t.subtree id := by
  rw [subtree_eq]
  exact List.mem_cons_self

/-! ## Branches -/

/-- The branches of a node: those at and below it. -/
def branchesOf (t : SyntaxTree) (id : Nat) : Set Nat :=
  {x | (∃ steps, t.StepsBelow id steps x) ∧ t.IsBranch x}

/-- The branches that are counted are those of the node, each once. -/
theorem branchNodes_eq_ncard (h : t.IsLinked) (id : Nat) :
    branchNodes t id = (t.branchesOf id).ncard := by
  have hnodup := (h.nodup_subtree id).filter fun x =>
    t.isNamed x && genericRules.isControlFlow (t.kind x)
  have hset : t.branchesOf id = ↑((t.subtree id).filter fun x =>
      t.isNamed x && genericRules.isControlFlow (t.kind x)).toFinset := by
    ext x
    rw [branchesOf, Set.mem_ofPred_eq, ← mem_subtree_iff, List.coe_toFinset, Set.mem_ofPred_eq,
      List.mem_filter, Bool.and_eq_true, genericRules, Rules.isControlFlow_union_iff]
    rfl
  rw [hset, Set.ncard_coe_finset, List.toFinset_card_of_nodup hnodup, branchNodes,
    List.countP_eq_length_filter]

theorem branchNodes_eq (t : SyntaxTree) (id : Nat) : branchNodes t id =
    ((t.children id).map (branchNodes t)).sum +
      if t.isNamed id && genericRules.isControlFlow (t.kind id) then 1 else 0 := by
  rw [branchNodes, subtree_eq, List.countP_cons, List.countP_flatMap]
  rfl

/-! ## Nesting -/

/-- A way down from a node: it begins there, and each step leads to a child. -/
def IsWayDown (t : SyntaxTree) (id : Nat) (way : List Nat) : Prop :=
  way.head? = some id ∧ way.IsChain fun p c => c ∈ t.children p

/-- A way down goes on, if it does, as a way down from a child. -/
theorem isWayDown_cons_iff {id x : Nat} {way : List Nat} : t.IsWayDown id (x :: way) ↔
    x = id ∧ (way = [] ∨ ∃ c ∈ t.children id, t.IsWayDown c way) := by
  rw [IsWayDown, List.head?_cons, Option.some_inj]
  refine and_congr_right ?_
  rintro rfl
  cases way with
  | nil => simp
  | cons c way =>
    rw [List.isChain_cons_cons]
    simp [IsWayDown]

end SyntaxTree

/-- The maximum that is found by going through a list. -/
theorem isGreatest_foldl_max : ∀ (l : List Nat) (b : Nat),
    IsGreatest {x | x = b ∨ x ∈ l} (l.foldl max b)
  | [], b => by simp
  | a :: l, b => by
    obtain ⟨hmem, hle⟩ := isGreatest_foldl_max l (max b a)
    have hstart : max b a ≤ l.foldl max (max b a) := hle (Or.inl rfl)
    constructor
    · rcases hmem with hmem | hmem
      · rcases max_choice b a with hb | ha
        · exact Or.inl (hmem.trans hb)
        · exact Or.inr (List.mem_cons.mpr (Or.inl (hmem.trans ha)))
      · exact Or.inr (List.mem_cons_of_mem a hmem)
    · rintro x (rfl | hx)
      · exact le_trans (le_max_left x a) hstart
      · rcases List.mem_cons.mp hx with rfl | hx
        · exact le_trans (le_max_right b x) hstart
        · exact hle (Or.inr hx)

namespace SyntaxTree

variable {t : SyntaxTree}

theorem isNesting_iff_isLevel (t : SyntaxTree) (id : Nat) :
    (t.isNamed id && genericRules.isNesting (t.kind id)) = true ↔ t.IsLevel id := by
  rw [Bool.and_eq_true, genericRules, Rules.isNesting_union_iff]
  rfl

theorem nestingBelow_eq (t : SyntaxTree) (id : Nat) : nestingBelow t id =
    ((t.children id).map (nestingBelow t)).foldl max 0 + if t.IsLevel id then 1 else 0 := by
  rw [nestingBelow, List.map_subtype (g := nestingBelow t) (fun _ _ => rfl), List.unattach_attach]
  simp only [isNesting_iff_isLevel]
  split <;> rfl

/-- The nesting below a node is that of the way down with the most levels. -/
theorem isGreatest_nestingBelow (t : SyntaxTree) (id : Nat) :
    IsGreatest {d | ∃ way, t.IsWayDown id way ∧ d = way.countP t.IsLevel} (nestingBelow t id) := by
  induction id using t.inductionOnChildren with
  | step id ih =>
    rw [nestingBelow_eq]
    obtain ⟨hmem, hle⟩ := isGreatest_foldl_max ((t.children id).map (nestingBelow t)) 0
    constructor
    · rcases hmem with hzero | hmem
      · -- nothing below adds a level, so the node alone will do
        refine ⟨[id], isWayDown_cons_iff.mpr ⟨rfl, Or.inl rfl⟩, ?_⟩
        rw [hzero, List.countP_cons, List.countP_nil]
        simp only [decide_eq_true_eq]
      · obtain ⟨c, hc, hdeepest⟩ := List.mem_map.mp hmem
        obtain ⟨way, hway, hcount⟩ := (ih c hc).1
        refine ⟨id :: way, isWayDown_cons_iff.mpr ⟨rfl, Or.inr ⟨c, hc, hway⟩⟩, ?_⟩
        rw [← hdeepest, hcount, List.countP_cons]
        simp only [decide_eq_true_eq]
    · rintro d ⟨way, hway, rfl⟩
      cases way with
      | nil => exact Nat.zero_le _
      | cons x way =>
        obtain ⟨rfl, hway⟩ := isWayDown_cons_iff.mp hway
        have hrest : way.countP t.IsLevel ≤
            ((t.children x).map (nestingBelow t)).foldl max 0 := by
          rcases hway with rfl | ⟨c, hc, hway⟩
          · exact Nat.zero_le _
          · exact le_trans ((ih c hc).2 ⟨way, hway, rfl⟩)
              (hle (Or.inr (List.mem_map_of_mem hc)))
        rw [List.countP_cons]
        simp only [decide_eq_true_eq]
        exact Nat.add_le_add_right hrest _

end SyntaxTree

/-! ## The walk that counts -/

/-- Numbers that are all raised by the same one have a maximum that is raised by it. -/
theorem foldl_max_map_add (m n : Nat) (l : List Nat) :
    (l.map (n + ·)).foldl max (max m n) = max m (n + l.foldl max 0) := by
  suffices h : ∀ a, (l.map (n + ·)).foldl max (max m (n + a)) = max m (n + l.foldl max a) from h 0
  induction l with
  | nil => exact fun a => rfl
  | cons x l ih =>
    intro a
    rw [List.map_cons, List.foldl_cons, List.foldl_cons, ← ih, max_assoc, Nat.add_max_add_left]

namespace NodeCounts

variable {t : SyntaxTree} {counts : NodeCounts} {id depth : Nat} {stack : List (Nat × Nat)}

/-- A node that is met adds itself to the branches if it is one, and a level to the depth of its
children if it is one; the maximum is then no less than that depth. -/
theorem meet_eq (hdepth : depth ≤ counts.deepest) : counts.meet t id depth =
    (⟨counts.branches + if t.isNamed id && genericRules.isControlFlow (t.kind id) then 1 else 0,
      max counts.deepest (depth + if t.IsLevel id then 1 else 0)⟩,
     depth + if t.IsLevel id then 1 else 0) := by
  simp only [← SyntaxTree.isNesting_iff_isLevel]
  cases hnamed : t.isNamed id
  · simp [meet, hnamed, hdepth]
  · cases hbranch : genericRules.isControlFlow (t.kind id) <;>
      cases hlevel : genericRules.isNesting (t.kind id) <;>
      simp [meet, hnamed, hbranch, hlevel, hdepth]

/-- No node on a stack stands deeper than the deepest nesting that has been counted. -/
def IsWithin (counts : NodeCounts) (stack : List (Nat × Nat)) : Prop :=
  ∀ e ∈ stack, e.2 ≤ counts.deepest

theorem isWithin_start (id : Nat) : start.IsWithin [(id, 0)] := by
  intro e he
  rw [List.mem_singleton.mp he]
  exact le_refl 0

/-- One step keeps the stack within the maximum: children stand where the maximum has just been
raised to, and it never falls. -/
theorem IsWithin.meet (h : counts.IsWithin ((id, depth) :: stack)) :
    (counts.meet t id depth).1.IsWithin (t.stackAtDepth id (counts.meet t id depth).2 stack) := by
  rw [meet_eq (h _ List.mem_cons_self), SyntaxTree.stackAtDepth_eq]
  intro e he
  rcases List.mem_append.mp he with he | he
  · obtain ⟨c, -, rfl⟩ := List.mem_map.mp he
    exact le_max_right _ _
  · exact le_trans (h e (List.mem_cons_of_mem _ he)) (le_max_left _ _)

/-- What a walk comes to: the branches of all nodes on the stack are still to be counted, and so is
the nesting below each of them. -/
def outcome (t : SyntaxTree) (counts : NodeCounts) (stack : List (Nat × Nat)) : NodeCounts where
  branches := counts.branches + (stack.map fun e => branchNodes t e.1).sum
  deepest := (stack.map fun e => e.2 + nestingBelow t e.1).foldl max counts.deepest

theorem outcome_cons : outcome t counts ((id, depth) :: stack) =
    outcome t ⟨counts.branches + branchNodes t id, max counts.deepest (depth + nestingBelow t id)⟩
      stack := by
  rw [outcome, outcome, List.map_cons, List.sum_cons, ← Nat.add_assoc, List.map_cons,
    List.foldl_cons]

/-- The order in which children are put on a stack plays no part in what a walk comes to. -/
theorem outcome_stackAtDepth : outcome t counts (t.stackAtDepth id depth stack) =
    outcome t ⟨counts.branches + ((t.children id).map (branchNodes t)).sum,
      (((t.children id).map (nestingBelow t)).map (depth + ·)).foldl max counts.deepest⟩ stack := by
  have hdepths : ((((t.children id).reverse.map fun c => (c, depth)).map
      fun e => e.2 + nestingBelow t e.1)).Perm
        (((t.children id).map (nestingBelow t)).map (depth + ·)) := by
    rw [List.map_map, List.map_map]
    exact (List.reverse_perm _).map _
  rw [outcome, outcome, SyntaxTree.stackAtDepth_eq, List.map_append, List.sum_append,
    ← Nat.add_assoc, List.map_append, List.foldl_append, hdepths.foldl_eq, List.map_map,
    List.map_reverse, List.sum_reverse]
  rfl

/-- **One step leaves what the walk comes to as it is.** -/
theorem outcome_meet (h : counts.IsWithin ((id, depth) :: stack)) :
    outcome t (counts.meet t id depth).1 (t.stackAtDepth id (counts.meet t id depth).2 stack) =
      outcome t counts ((id, depth) :: stack) := by
  rw [meet_eq (h _ List.mem_cons_self), outcome_stackAtDepth, outcome_cons,
    SyntaxTree.branchNodes_eq, SyntaxTree.nestingBelow_eq t id]
  dsimp only
  rw [foldl_max_map_add, Nat.add_right_comm, Nat.add_assoc counts.branches,
    Nat.add_right_comm depth, Nat.add_assoc depth]

end NodeCounts

namespace SyntaxTree

variable {t : SyntaxTree}

/-- The loop finds what it comes to from any stack that is within its maximum. -/
theorem countOnStack_eq (t : SyntaxTree) (counts : NodeCounts) (stack : List (Nat × Nat))
    (h : counts.IsWithin stack) : t.countOnStack counts stack = counts.outcome t stack := by
  fun_induction countOnStack t counts stack with
  | case1 counts => rfl
  | case2 counts id depth stack next below hmeet ih =>
    have hstep := h.meet (t := t)
    have hsame := NodeCounts.outcome_meet (t := t) h
    rw [hmeet] at hstep hsame
    rw [ih hstep, hsame]

/-- What is counted at and below a node are its branches and its nesting. -/
theorem nodeCounts_eq (t : SyntaxTree) (id : Nat) :
    t.nodeCounts id = ⟨branchNodes t id, nestingBelow t id⟩ := by
  rw [nodeCounts, countOnStack_eq t _ _ (NodeCounts.isWithin_start id), NodeCounts.outcome_cons]
  simp [NodeCounts.outcome, NodeCounts.start]

/-! ## The order of children -/

/-- A tree has the nodes of a subtree of another one, under other numbers and with the children of
each node in any order. -/
structure IsRearranged (t : SyntaxTree) (id : Nat) (f : Nat → Nat) (t' : SyntaxTree) : Prop where
  kind_eq : ∀ x ∈ t.subtree id, t'.kind (f x) = t.kind x
  isNamed_eq : ∀ x ∈ t.subtree id, t'.isNamed (f x) = t.isNamed x
  children_perm : ∀ x ∈ t.subtree id, (t'.children (f x)).Perm ((t.children x).map f)

namespace IsRearranged

variable {t' : SyntaxTree} {f : Nat → Nat} {id : Nat}

theorem of_child (h : t.IsRearranged id f t') {c : Nat} (hc : c ∈ t.children id) :
    t.IsRearranged c f t' := by
  have hbelow : ∀ x ∈ t.subtree c, x ∈ t.subtree id := by
    intro x hx
    rw [subtree_eq]
    exact List.mem_cons_of_mem id (List.mem_flatMap.mpr ⟨c, hc, hx⟩)
  exact ⟨fun x hx => h.kind_eq x (hbelow x hx), fun x hx => h.isNamed_eq x (hbelow x hx),
    fun x hx => h.children_perm x (hbelow x hx)⟩

theorem subtree_perm (h : t.IsRearranged id f t') :
    (t'.subtree (f id)).Perm ((t.subtree id).map f) := by
  induction id using t.inductionOnChildren with
  | step id ih =>
    have hchildren := h.children_perm id (t.mem_subtree_self id)
    rw [subtree_eq, subtree_eq t, List.map_cons, List.map_flatMap]
    refine List.Perm.cons _ ((hchildren.flatMap_right _).trans ?_)
    rw [List.flatMap_map]
    exact List.Perm.flatMap_left _ fun c hc => ih c hc (h.of_child hc)

theorem branchNodes_eq (h : t.IsRearranged id f t') : branchNodes t' (f id) = branchNodes t id := by
  rw [branchNodes, branchNodes, h.subtree_perm.countP_eq, List.countP_map]
  refine List.countP_congr fun x hx => ?_
  rw [Function.comp_apply, h.kind_eq x hx, h.isNamed_eq x hx]

theorem isLevel_iff (h : t.IsRearranged id f t') : t'.IsLevel (f id) ↔ t.IsLevel id := by
  have hself := t.mem_subtree_self id
  rw [IsLevel, IsLevel, h.kind_eq id hself, h.isNamed_eq id hself]

theorem nestingBelow_eq (h : t.IsRearranged id f t') :
    nestingBelow t' (f id) = nestingBelow t id := by
  induction id using t.inductionOnChildren with
  | step id ih =>
    have hbelow : ((t'.children (f id)).map (nestingBelow t')).Perm
        ((t.children id).map (nestingBelow t)) := by
      refine ((h.children_perm id (t.mem_subtree_self id)).map _).trans (List.Perm.of_eq ?_)
      rw [List.map_map]
      exact List.map_congr_left fun c hc => ih c hc (h.of_child hc)
    rw [SyntaxTree.nestingBelow_eq, SyntaxTree.nestingBelow_eq t, hbelow.foldl_eq]
    simp only [h.isLevel_iff]

end IsRearranged

end SyntaxTree

/-! ## The measures of a node -/

/-- The measure with a name. -/
def Analysis.measure? (a : Analysis) (name : String) : Option Measure := a.entries.lookup name

theorem analyse_of_lt {t : SyntaxTree} {id : Nat} (hid : id < t.size) {kind : Kind}
    (hkind : kind.isCode = true) (content : Text) : analyse content kind (some (t, id)) =
      .code (.of content) (.nodes (branchNodes t id)) (nestingBelow t id) := by
  rw [analyse, if_pos hkind, Option.filter_some_pos (by simpa using hid)]
  simp only [SyntaxTree.nodeCounts_eq]

/-- Code that is measured on a node of a tree has one more than the branches of the node as its
score, up to the greatest one, and the same number as both complexities; its nesting is the greatest
number of levels on a way down from the node.  The order of children plays no part in it. -/
theorem analyse_node {t : SyntaxTree} (h : t.IsLinked) {id : Nat} (hid : id < t.size) {kind : Kind}
    (hkind : kind.isCode = true) (content : Text) :
    ((analyse content kind (some (t, id))).score = min (1 + (t.branchesOf id).ncard) (2 ^ 32 - 1) ∧
      (analyse content kind (some (t, id))).measure? "cyclomatic" =
        some (.count (1 + (t.branchesOf id).ncard)) ∧
      (analyse content kind (some (t, id))).measure? "cognitive" =
        some (.count (1 + (t.branchesOf id).ncard))) ∧
    (∃ depth, IsGreatest {d | ∃ way, t.IsWayDown id way ∧ d = way.countP t.IsLevel} depth ∧
      (analyse content kind (some (t, id))).measure? "max_nesting_depth" = some (.count depth)) ∧
    ∀ (t' : SyntaxTree) (f : Nat → Nat), t.IsRearranged id f t' → f id < t'.size →
      analyse content kind (some (t', f id)) = analyse content kind (some (t, id)) := by
  rw [analyse_of_lt hid hkind, ← SyntaxTree.branchNodes_eq_ncard h]
  refine ⟨⟨rfl, rfl, rfl⟩, ⟨_, t.isGreatest_nestingBelow id, rfl⟩, fun t' f ht' hid' => ?_⟩
  rw [analyse_of_lt hid' hkind, ht'.branchNodes_eq, ht'.nestingBelow_eq]

/-- A function with a loop in a condition, and a choice behind the condition. -/
def branchingTree : SyntaxTree :=
  ((((((SyntaxTree.ofSource
    "fn f() \x7b if a \x7b for b in c \x7b \x7d \x7d match d \x7b \x7d \x7d".toList).add
    none "function_item" none 0 46).add
    (some 0) "block" none 7 46).add
    (some 1) "if_expression" none 9 32).add
    (some 2) "\x7b" none 14 15).add
    (some 2) "for_expression" none 16 30).add
    (some 1) "match_expression" none 33 44

theorem isBuilt_branchingTree : branchingTree.IsBuilt :=
  ((((((SyntaxTree.IsBuilt.ofSource _).add _ _ _ _ _).add _ _ _ _ _).add _ _ _ _ _).add
    _ _ _ _ _).add _ _ _ _ _).add _ _ _ _ _

/-- The same with the choice before the condition. -/
def turnedTree : SyntaxTree :=
  ((((((SyntaxTree.ofSource
    "fn f() \x7b match d \x7b \x7d if a \x7b for b in c \x7b \x7d \x7d \x7d".toList).add
    none "function_item" none 0 46).add
    (some 0) "block" none 7 46).add
    (some 1) "match_expression" none 9 20).add
    (some 1) "if_expression" none 21 44).add
    (some 3) "\x7b" none 26 27).add
    (some 3) "for_expression" none 28 42

/-- The numbers that the nodes of the one tree have in the other. -/
def turned (x : Nat) : Nat := [0, 1, 3, 4, 5, 2].getD x x

theorem isRearranged_turnedTree : branchingTree.IsRearranged 0 turned turnedTree :=
  ⟨by decide +kernel, by decide +kernel, by decide +kernel⟩

/-- Three branches, two of them one inside the other, in either order. -/
theorem analyse_node_of_branchingTree :
    (analyse branchingTree.source .function (some (branchingTree, 0))).score = 4 ∧
      (branchingTree.branchesOf 0).ncard = 3 ∧
      IsGreatest {d | ∃ way, branchingTree.IsWayDown 0 way ∧
        d = way.countP branchingTree.IsLevel} 2 ∧
      analyse branchingTree.source .function (some (turnedTree, 0)) =
        analyse branchingTree.source .function (some (branchingTree, 0)) := by
  have hid : 0 < branchingTree.size := by decide +kernel
  obtain ⟨⟨hscore, -⟩, ⟨depth, hgreatest, hdepth⟩, hturned⟩ :=
    analyse_node isBuilt_branchingTree.isLinked hid (show Kind.function.isCode = true from rfl)
      branchingTree.source
  have hfour : (analyse branchingTree.source .function (some (branchingTree, 0))).score = 4 := by
    decide +kernel
  have hbelow : nestingBelow branchingTree 0 = 2 := by decide +kernel
  rw [analyse_of_lt hid rfl, hbelow] at hdepth
  obtain rfl : 2 = depth := Measure.count.inj (Option.some.inj hdepth)
  refine ⟨hfour, ?_, hgreatest, ?_⟩
  · rw [hfour] at hscore
    omega
  · exact hturned turnedTree turned isRearranged_turnedTree (by decide +kernel)

end Outline

import Mathlib.Order.WellFounded
import Outline.Proofs.Tree.Ancestors

/-!
# A tree is a forest

Nodes are added with any parent: one that is there, one that is not, or one that is still to come.
Only a parent that is there gets a child, so after every step the children of a node are known from
the parents alone: they are the nodes behind it that name it (`IsBuilt.children_eq`).  All else
follows.  Children are in ascending order, no node is a child twice, and no way down leads back.

A walk over such a tree needs no memory of where it has been.  The one that looks for kinds keeps a
stack.  What is still to be read from a stack are the subtrees of its nodes, and every step reads
one of their nodes.  So the walk ends (`wellFounded_isNextStack`), and it reads in the order in
which a node comes before its children and all of a child before the next one (`findOnStack_eq`).

* `SyntaxTree.IsForest`: what holds of parents and children.
* `SyntaxTree.IsNextStack`: a step of the walk with a stack.
* `SyntaxTree.isForest_and_findAll`: trees that are built are forests, and in them all nodes of some
  kinds are found.
-/

namespace Outline.SyntaxTree

variable {t : SyntaxTree}

/-! ## Parents and children -/

theorem size_add (t : SyntaxTree) (parent : Option Nat) (kind : String) (field : Option String)
    (startByte stopByte : Nat) :
    (t.add parent kind field startByte stopByte).size = t.size + 1 := by
  cases parent with
  | none => exact Array.size_push _
  | some p => exact (Array.size_push _).trans (congrArg (· + 1) Array.size_modify)

/-- The children of a node are the nodes behind it that name it as their parent. -/
theorem IsBuilt.children_eq (h : t.IsBuilt) (p : Nat) :
    t.children p = (List.range t.size).filter fun c => p < c ∧ t.parent? c = some p := by
  induction h with
  | ofSource source => rfl
  | @add t h parent kind field startByte stopByte ih =>
    rw [children_add, size_add, List.range_succ, List.filter_append, ih]
    congr 1
    · refine List.filter_congr fun c hc => ?_
      rw [parent?_add, if_neg (Nat.ne_of_lt (List.mem_range.mp hc))]
    · rw [List.filter_singleton, parent?_add, if_pos rfl]
      simp only [Bool.cond_decide, and_comm]

/-- The children of all nodes are in order, and no node is a child twice or lies below itself. -/
structure IsForest (t : SyntaxTree) : Prop where
  mem_children_iff : ∀ p c, c ∈ t.children p ↔ c < t.size ∧ t.parent? c = some p ∧ p < c
  ascending_children : ∀ p, (t.children p).Pairwise (· < ·)
  nodup_allChildren : ((List.range t.size).flatMap t.children).Nodup
  not_isAncestor_self : ∀ id, ¬ t.IsAncestor id id

theorem IsBuilt.isForest (h : t.IsBuilt) : t.IsForest := by
  have hmem : ∀ p c, c ∈ t.children p ↔ c < t.size ∧ t.parent? c = some p ∧ p < c := by
    intro p c
    rw [h.children_eq, List.mem_filter, List.mem_range, decide_eq_true_eq, and_comm (a := p < c)]
  refine ⟨hmem, fun p => ?_, ?_, fun id hid => Nat.lt_irrefl id hid.lt⟩
  · rw [h.children_eq]
    exact List.pairwise_lt_range.filter _
  · -- a node that is a child twice is so below one parent, the one that it names
    refine List.nodup_flatMap.mpr ⟨fun p _ => h.isLinked.nodup_children p, ?_⟩
    refine List.nodup_range.imp fun {p q} hne c hp hq => hne ?_
    have hparent := ((hmem p c).mp hp).2.1
    rw [((hmem q c).mp hq).2.1] at hparent
    exact (Option.some.inj hparent).symm

/-! ## The walk with a stack -/

/-- The stack that is left when a node is taken off and its children are put on. -/
def IsNextStack (t : SyntaxTree) (next stack : List Nat) : Prop :=
  ∃ id rest, stack = id :: rest ∧ next = t.stackChildren id rest

/-- A walk with a stack ends. -/
theorem wellFounded_isNextStack (t : SyntaxTree) : WellFounded t.IsNextStack := by
  refine Subrelation.wf ?_ (measure fun stack => (stack.flatMap t.subtree).length).wf
  rintro next stack ⟨id, rest, rfl, rfl⟩
  change ((t.stackChildren id rest).flatMap t.subtree).length <
    ((id :: rest).flatMap t.subtree).length
  rw [flatMap_subtree_cons, List.length_cons]
  exact Nat.lt_succ_self _

/-- What is found from a stack are the nodes of its subtrees that have one of the kinds. -/
theorem findOnStack_eq (t : SyntaxTree) (kinds : List String) (stack : List Nat) :
    t.findOnStack kinds stack = (stack.flatMap t.subtree).filter fun x => t.kind x ∈ kinds := by
  induction stack using (wellFounded_isNextStack t).induction with
  | _ stack ih =>
    cases stack with
    | nil => rw [findOnStack, List.flatMap_nil, List.filter_nil]
    | cons id rest =>
      rw [findOnStack, ih _ ⟨id, rest, rfl, rfl⟩, flatMap_subtree_cons, List.filter_cons]
      simp only [List.contains_iff_mem, decide_eq_true_eq]

theorem findAll_eq (t : SyntaxTree) (start : Nat) (kinds : List String) :
    t.findAll start kinds = (t.subtree start).filter fun x => t.kind x ∈ kinds := by
  rw [findAll, findOnStack_eq, List.flatMap_singleton]

/-- A node is read before what is below its children, one after the other. -/
theorem findAll_eq_append (t : SyntaxTree) (start : Nat) (kinds : List String) :
    t.findAll start kinds = (if t.kind start ∈ kinds then [start] else []) ++
      (t.children start).flatMap fun c => t.findAll c kinds := by
  simp only [findAll_eq]
  rw [subtree_eq, List.filter_cons, List.filter_flatMap]
  simp only [decide_eq_true_eq]
  split <;> rfl

/-- After any additions a tree is a forest.  In it a walk with a stack ends, and finds the nodes of
the kinds that can be reached by steps to children, each once; a node comes before what is found
below its children, and that comes child by child. -/
theorem isForest_and_findAll (h : t.IsBuilt) :
    t.IsForest ∧ WellFounded t.IsNextStack ∧ ∀ (start : Nat) (kinds : List String),
      (∀ x, x ∈ t.findAll start kinds ↔ (∃ steps, t.StepsBelow start steps x) ∧ t.kind x ∈ kinds) ∧
      (t.findAll start kinds).Nodup ∧
      t.findAll start kinds = (if t.kind start ∈ kinds then [start] else []) ++
        (t.children start).flatMap fun c => t.findAll c kinds := by
  refine ⟨h.isForest, wellFounded_isNextStack t, fun start kinds => ⟨fun x => ?_, ?_, ?_⟩⟩
  · rw [findAll_eq, List.mem_filter, mem_subtree_iff, decide_eq_true_eq]
  · rw [findAll_eq]
    exact (h.isLinked.nodup_subtree start).filter _
  · exact findAll_eq_append t start kinds

/-- A tree with nodes whose parents are not there: one names a node that comes later, one itself,
and one a node that never comes. -/
def strayTree : SyntaxTree :=
  (((((((ofSource "a b c d".toList).add
    none "program" none 0 7).add
    (some 2) "word" none 0 1).add
    (some 0) "list" none 2 7).add
    (some 3) "word" none 4 5).add
    (some 2) "word" none 4 5).add
    (some 9) "word" none 6 7).add
    (some 0) "word" none 6 7

theorem isBuilt_strayTree : strayTree.IsBuilt :=
  (((((((IsBuilt.ofSource _).add _ _ _ _ _).add _ _ _ _ _).add _ _ _ _ _).add _ _ _ _ _).add
    _ _ _ _ _).add _ _ _ _ _).add _ _ _ _ _

/-- Of the five words, those that were added too early, under themselves or under no node are not
found from the root. -/
theorem isForest_and_findAll_of_strayTree :
    strayTree.IsForest ∧ strayTree.parent? 1 = some 2 ∧ 1 ∉ strayTree.children 2 ∧
      strayTree.findAll 0 ["word"] = [4, 6] ∧ (strayTree.findAll 0 ["word"]).Nodup := by
  obtain ⟨hforest, -, hfound⟩ := isForest_and_findAll isBuilt_strayTree
  refine ⟨hforest, rfl, fun hchild => ?_, by decide +kernel, (hfound 0 ["word"]).2.1⟩
  have hlater := ((hforest.mem_children_iff 2 1).mp hchild).2.2
  omega

end Outline.SyntaxTree

import Outline.Proofs.Extraction.NodeOnce

/-!
# Ancestors

What lies below a node can be listed (`SyntaxTree.subtree`), or it can be reached by steps that lead
from a node to one of its children.  The second way counts the steps, and shows what a node lies
below.  Both ways come to the same (`mem_subtree_iff`).

In a tree whose nodes have one parent each, the ancestors of a child are its parent and those of its
parent (`IsLinked.isAncestor_child_iff`).  So they form a line: of two nodes above a third one, one
lies above the other (`IsLinked.mem_subtree_or_mem_subtree`).
-/

namespace Outline.SyntaxTree

/-! ## Steps -/

/-- A node lies a number of steps below another one, each step leading to a child. -/
inductive StepsBelow (t : SyntaxTree) (top : Nat) : (steps node : Nat) → Prop
  | self : StepsBelow t top 0 top
  | child {steps p c : Nat} (h : StepsBelow t top steps p) (hc : c ∈ t.children p) :
      StepsBelow t top (steps + 1) c

/-- A node from which one or more steps lead down to another one. -/
def IsAncestor (t : SyntaxTree) (a id : Nat) : Prop := ∃ steps, t.StepsBelow a (steps + 1) id

/-- A node lies below another one, but no more than `depth` steps. -/
def IsWithin (t : SyntaxTree) (depth top id : Nat) : Prop :=
  ∃ steps, 1 ≤ steps ∧ steps ≤ depth ∧ t.StepsBelow top steps id

variable {t : SyntaxTree}

theorem StepsBelow.of_child {p c : Nat} (hc : c ∈ t.children p) {steps x : Nat}
    (h : t.StepsBelow c steps x) : t.StepsBelow p (steps + 1) x := by
  induction h with
  | self => exact .child .self hc
  | child _ hx ih => exact .child ih hx

theorem StepsBelow.exists_child {p n x : Nat} (h : t.StepsBelow p n x) :
    n = 0 ∧ x = p ∨ ∃ c ∈ t.children p, ∃ steps, n = steps + 1 ∧ t.StepsBelow c steps x := by
  induction h with
  | self => exact Or.inl ⟨rfl, rfl⟩
  | @child steps q y hq hy ih =>
    refine Or.inr ?_
    rcases ih with ⟨hn, rfl⟩ | ⟨c, hc, n, rfl, hn⟩
    · exact ⟨y, hy, 0, by rw [hn], .self⟩
    · exact ⟨c, hc, n + 1, rfl, .child hn hy⟩

/-- The first step leads to a child. -/
theorem stepsBelow_succ_iff {p steps x : Nat} :
    t.StepsBelow p (steps + 1) x ↔ ∃ c ∈ t.children p, t.StepsBelow c steps x := by
  constructor
  · intro h
    rcases h.exists_child with ⟨hzero, -⟩ | ⟨c, hc, n, hn, h⟩
    · exact absurd hzero (Nat.succ_ne_zero steps)
    · exact ⟨c, hc, Nat.succ.inj hn ▸ h⟩
  · rintro ⟨c, hc, h⟩
    exact .of_child hc h

theorem not_isWithin_zero {top x : Nat} : ¬ t.IsWithin 0 top x := by
  rintro ⟨steps, hpos, hle, -⟩
  omega

/-- What lies below a node is a child, or lies below a child and one step nearer to it. -/
theorem isWithin_succ_iff {depth top x : Nat} :
    t.IsWithin (depth + 1) top x ↔ ∃ c ∈ t.children top, x = c ∨ t.IsWithin depth c x := by
  constructor
  · rintro ⟨steps, hpos, hle, h⟩
    obtain ⟨n, rfl⟩ := Nat.exists_eq_add_of_le' hpos
    obtain ⟨c, hc, h⟩ := stepsBelow_succ_iff.mp h
    rcases h.exists_child with ⟨-, rfl⟩ | ⟨-, -, m, rfl, -⟩
    · exact ⟨x, hc, Or.inl rfl⟩
    · exact ⟨c, hc, Or.inr ⟨m + 1, by omega, by omega, h⟩⟩
  · rintro ⟨c, hc, rfl | ⟨steps, hpos, hle, h⟩⟩
    · exact ⟨1, by omega, by omega, .child .self hc⟩
    · exact ⟨steps + 1, by omega, by omega, .of_child hc h⟩

theorem StepsBelow.le {p steps x : Nat} (h : t.StepsBelow p steps x) : p + steps ≤ x := by
  induction h with
  | self => exact Nat.le_refl p
  | child _ hx ih =>
    have hlt := (lt_of_mem_children hx).1
    omega

theorem StepsBelow.trans {a b x m n : Nat} (hb : t.StepsBelow a m b) (hx : t.StepsBelow b n x) :
    t.StepsBelow a (m + n) x := by
  induction hx with
  | self => exact hb
  | child _ hc ih => exact .child ih hc

/-- A subtree holds what lies below its first node. -/
theorem mem_subtree_iff {top x : Nat} : x ∈ t.subtree top ↔ ∃ steps, t.StepsBelow top steps x := by
  induction top using t.inductionOnChildren with
  | step top ih =>
    rw [subtree_eq, List.mem_cons, List.mem_flatMap]
    constructor
    · rintro (rfl | ⟨c, hc, hx⟩)
      · exact ⟨0, .self⟩
      · obtain ⟨steps, hsteps⟩ := (ih c hc).mp hx
        exact ⟨steps + 1, .of_child hc hsteps⟩
    · rintro ⟨steps, hsteps⟩
      rcases hsteps.exists_child with ⟨-, hx⟩ | ⟨c, hc, n, -, hn⟩
      · exact Or.inl hx
      · exact Or.inr ⟨c, hc, (ih c hc).mpr ⟨n, hn⟩⟩

theorem mem_subtree_trans {a b x : Nat} (hb : b ∈ t.subtree a) (hx : x ∈ t.subtree b) :
    x ∈ t.subtree a := by
  obtain ⟨m, hb⟩ := mem_subtree_iff.mp hb
  obtain ⟨n, hx⟩ := mem_subtree_iff.mp hx
  exact mem_subtree_iff.mpr ⟨m + n, hb.trans hx⟩

/-! ## Ancestors -/

theorem isAncestor_iff {a x : Nat} : t.IsAncestor a x ↔ ∃ c ∈ t.children a, x ∈ t.subtree c := by
  constructor
  · rintro ⟨steps, h⟩
    obtain ⟨c, hc, h⟩ := stepsBelow_succ_iff.mp h
    exact ⟨c, hc, mem_subtree_iff.mpr ⟨steps, h⟩⟩
  · rintro ⟨c, hc, h⟩
    obtain ⟨steps, h⟩ := mem_subtree_iff.mp h
    exact ⟨steps, .of_child hc h⟩

theorem IsAncestor.lt {a x : Nat} (h : t.IsAncestor a x) : a < x := by
  obtain ⟨steps, h⟩ := h
  have hle := h.le
  omega

theorem IsWithin.isAncestor {depth top x : Nat} (h : t.IsWithin depth top x) :
    t.IsAncestor top x := by
  obtain ⟨steps, hpos, -, h⟩ := h
  obtain ⟨n, rfl⟩ := Nat.exists_eq_add_of_le' hpos
  exact ⟨n, h⟩

theorem IsAncestor.mem_subtree {a x : Nat} (h : t.IsAncestor a x) : x ∈ t.subtree a := by
  obtain ⟨steps, h⟩ := h
  exact mem_subtree_iff.mpr ⟨steps + 1, h⟩

theorem eq_or_isAncestor_of_mem_subtree {a x : Nat} (h : x ∈ t.subtree a) :
    x = a ∨ t.IsAncestor a x := by
  obtain ⟨steps, h⟩ := mem_subtree_iff.mp h
  cases steps with
  | zero =>
    cases h
    exact Or.inl rfl
  | succ steps => exact Or.inr ⟨steps, h⟩

/-- The ancestors of a child are its parent and the ancestors of its parent. -/
theorem IsLinked.isAncestor_child_iff (h : t.IsLinked) {p c : Nat} (hc : c ∈ t.children p)
    {a : Nat} : t.IsAncestor a c ↔ p ∈ t.subtree a := by
  rw [mem_subtree_iff]
  constructor
  · rintro ⟨steps, ha⟩
    cases ha with
    | @child _ q _ hq hcq =>
      have hpq : some p = some q := by rw [← h.parent_of_child p c hc, h.parent_of_child q c hcq]
      exact ⟨steps, Option.some.inj hpq ▸ hq⟩
  · rintro ⟨steps, ha⟩
    exact ⟨steps, .child ha hc⟩

/-- Of two nodes above a third one, one lies above the other. -/
theorem IsLinked.mem_subtree_or_mem_subtree (h : t.IsLinked) {a b x : Nat} (ha : x ∈ t.subtree a)
    (hb : x ∈ t.subtree b) : b ∈ t.subtree a ∨ a ∈ t.subtree b := by
  obtain ⟨steps, hsteps⟩ := mem_subtree_iff.mp hb
  induction hsteps with
  | self => exact Or.inl ha
  | @child steps p c hp hc ih =>
    rcases eq_or_isAncestor_of_mem_subtree ha with rfl | hac
    · exact Or.inr hb
    · exact ih ((h.isAncestor_child_iff hc).mp hac) (mem_subtree_iff.mpr ⟨steps, hp⟩)

end Outline.SyntaxTree

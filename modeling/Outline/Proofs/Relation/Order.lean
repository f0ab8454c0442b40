import Mathlib.Data.List.FinRange
import Mathlib.Order.Defs.Unbundled
import Outline.Proofs.Tree.Places

/-!
# Containment orders the places of a list

An edge names its ends by value, so where a value stands in two places the edges alone cannot tell
which of them is meant.  What the analysis compares, though, are places: it goes through all pairs
of them and gives out one edge for each pair that passes the test (`containment_eq`).  So
containment is a relation on the places of the list (`Contains`), and as such it is a strict order,
whatever the list: the same value may stand in it twice, the spans may come from nodes and from
lines, and a span may end before it begins.

Enclosure of spans is transitive, and of two spans that enclose each other both are the same.  So a
chain of two steps either encloses strictly as a whole, or all three spans are equal; then both
steps went from an earlier place to a later one, and so does the chain (`Contains.trans`).

* `Contains`: the structure at one place contains the one at another.
* `edgeBetween`: the edge for a pair of places.
* `containment_isStrictOrder`: the order, and when two places are related.
-/

namespace Outline

variable {structures : List Ref} {tree : Option SyntaxTree}

/-- The span of the structure at a place. -/
def spanAt (structures : List Ref) (tree : Option SyntaxTree) (i : Fin structures.length) : Span :=
  spanOf tree structures[i]

/-- The structure at place `i` contains the one at place `j`. -/
def Contains (structures : List Ref) (tree : Option SyntaxTree) (i j : Fin structures.length) :
    Prop :=
  holdsAt (spanAt structures tree i) (spanAt structures tree j) i j = true

instance : DecidableRel (Contains structures tree) := fun _ _ =>
  inferInstanceAs (Decidable (_ = true))

/-- The edge from the structure at place `i` to the one at place `j`. -/
def edgeBetween (strategy : StrengthStrategy) (structures : List Ref)
    (i j : Fin structures.length) : Edge :=
  ⟨structures[i], structures[j], .containment,
    strategy.strength structures[i].location structures[j].location⟩

/-! ## Edges and places -/

theorem zipIdx_eq_map_finRange {α : Type} (l : List α) :
    l.zipIdx = (List.finRange l.length).map fun i : Fin l.length => (l[i], (i : Nat)) := by
  refine List.ext_getElem (by simp) fun i _ _ => ?_
  simp

/-- There is one edge for each pair of places of which one contains the other, row by row. -/
theorem containment_eq (strategy : StrengthStrategy) (structures : List Ref)
    (tree : Option SyntaxTree) :
    containment strategy structures tree =
      ((List.finRange structures.length ×ˢ List.finRange structures.length).filter
        fun p => Contains structures tree p.1 p.2).map
          fun p => edgeBetween strategy structures p.1 p.2 := by
  have hspans : (structures.map fun s => (s, spanOf tree s)).zipIdx =
      (List.finRange structures.length).map fun i : Fin structures.length =>
        ((structures[i], spanAt structures tree i), (i : Nat)) := by
    rw [List.zipIdx_map, zipIdx_eq_map_finRange, List.map_map]
    rfl
  have hpairs : ∀ l : List (Fin structures.length),
      l ×ˢ l = l.flatMap fun i => l.map fun j => (i, j) := fun _ => rfl
  simp only [containment, hspans, hpairs, List.flatMap_map, List.filter_map, List.map_map,
    List.filter_flatMap, List.map_flatMap]
  refine congrArg (List.flatMap · _) (funext fun i => ?_)
  have htest : ∀ j, holdsAt (spanAt structures tree i) (spanAt structures tree j) i j =
      decide (Contains structures tree i j) := fun j => Bool.decide_eq_true.symm
  simp only [Function.comp_def, htest]
  rfl

/-! ## The order -/

theorem contains_iff {i j : Fin structures.length} : Contains structures tree i j ↔
    i ≠ j ∧ (spanAt structures tree i).encloses (spanAt structures tree j) = true ∧
      (spanAt structures tree i ≠ spanAt structures tree j ∨ i < j) := by
  rw [Contains, holdsAt_iff, ne_eq, Fin.val_inj]
  rfl

/-- A structure that contains another one encloses it and, if the spans are equal, comes before
it. -/
theorem contains_iff_encloses {i j : Fin structures.length} (hne : i ≠ j) :
    Contains structures tree i j ↔
      (spanAt structures tree i).encloses (spanAt structures tree j) = true ∧
        ((spanAt structures tree j).encloses (spanAt structures tree i) = true → i < j) := by
  rw [contains_iff, and_iff_right hne]
  refine and_congr_right fun hij => ?_
  constructor
  · intro hor hji
    exact hor.resolve_left fun h => h (Span.eq_of_encloses hij hji)
  · intro h
    by_cases heq : spanAt structures tree i = spanAt structures tree j
    · exact Or.inr (h (heq ▸ Span.encloses_refl _))
    · exact Or.inl heq

/-- No structure contains itself. -/
theorem Contains.irrefl (i : Fin structures.length) : ¬ Contains structures tree i i :=
  fun h => (contains_iff.mp h).1 rfl

/-- No two structures contain each other. -/
theorem Contains.asymm {i j : Fin structures.length} (h : Contains structures tree i j) :
    ¬ Contains structures tree j i :=
  not_holdsAt_swap h

/-- What is contained in a part is contained in the whole. -/
theorem Contains.trans {i j k : Fin structures.length} (hij : Contains structures tree i j)
    (hjk : Contains structures tree j k) : Contains structures tree i k := by
  have hne : i ≠ k := by
    rintro rfl
    exact hij.asymm hjk
  obtain ⟨hneij, henc, -⟩ := contains_iff.mp hij
  obtain ⟨hnejk, henc', -⟩ := contains_iff.mp hjk
  refine (contains_iff_encloses hne).mpr ⟨Span.encloses_trans henc henc', fun hback => ?_⟩
  -- the chain closes, so all three spans enclose one another and both steps go forward
  have hlt : i < j :=
    ((contains_iff_encloses hneij).mp hij).2 (Span.encloses_trans henc' hback)
  have hlt' : j < k :=
    ((contains_iff_encloses hnejk).mp hjk).2 (Span.encloses_trans hback henc)
  exact lt_trans hlt hlt'

instance : IsStrictOrder (Fin structures.length) (Contains structures tree) where
  irrefl := Contains.irrefl
  trans _ _ _ := Contains.trans

/-- Two different places are related if one span encloses the other. -/
theorem contains_or_contains_iff {i j : Fin structures.length} (hne : i ≠ j) :
    Contains structures tree i j ∨ Contains structures tree j i ↔
      (spanAt structures tree i).encloses (spanAt structures tree j) = true ∨
        (spanAt structures tree j).encloses (spanAt structures tree i) = true := by
  constructor
  · exact Or.imp (fun h => (contains_iff.mp h).2.1) fun h => (contains_iff.mp h).2.1
  · rw [contains_iff_encloses hne, contains_iff_encloses hne.symm]
    rcases lt_or_gt_of_ne hne with hlt | hlt
    · tauto
    · tauto

/-- The edges of containment stand for the pairs of a strict order on the places of the list: no
place contains itself, no two contain each other, and what is contained in a part is contained in
the whole.  Two different places are related exactly when one span, from the first to the last row
and column, encloses the other, and then in one direction only; of equal spans the earlier place
contains the later one. -/
theorem containment_isStrictOrder (strategy : StrengthStrategy) (structures : List Ref)
    (tree : Option SyntaxTree) :
    containment strategy structures tree =
        ((List.finRange structures.length ×ˢ List.finRange structures.length).filter
          fun p => Contains structures tree p.1 p.2).map
            (fun p => edgeBetween strategy structures p.1 p.2) ∧
      IsStrictOrder (Fin structures.length) (Contains structures tree) ∧
      (∀ i j, Contains structures tree i j → ¬ Contains structures tree j i) ∧
      (∀ i j, i ≠ j → (Contains structures tree i j ∨ Contains structures tree j i ↔
        (spanAt structures tree i).encloses (spanAt structures tree j) = true ∨
          (spanAt structures tree j).encloses (spanAt structures tree i) = true)) ∧
      (∀ i j, Contains structures tree i j →
        (spanAt structures tree i).encloses (spanAt structures tree j) = true) ∧
      ∀ i j, i < j → spanAt structures tree i = spanAt structures tree j →
        Contains structures tree i j := by
  refine ⟨containment_eq strategy structures tree, inferInstance, fun _ _ => Contains.asymm,
    fun _ _ => contains_or_contains_iff, fun _ _ h => (contains_iff.mp h).2.1,
    fun i j hlt hspan => ?_⟩
  exact contains_iff.mpr ⟨ne_of_lt hlt, hspan ▸ Span.encloses_refl _, Or.inr hlt⟩

/-- A class that stands there twice, and a function in it. -/
def repeatedClass : List Ref :=
  [⟨.classDecl, "A", .clamped 1 4, none⟩, ⟨.classDecl, "A", .clamped 1 4, none⟩,
   ⟨.method, "f", .clamped 2 3, none⟩]

/-- A chain of an equal and a smaller span: the first place contains the second one, this one the
third, and so the first one does. -/
theorem containment_isStrictOrder_of_repeated :
    spanAt repeatedClass none ⟨0, by decide⟩ = spanAt repeatedClass none ⟨1, by decide⟩ ∧
      Contains repeatedClass none ⟨0, by decide⟩ ⟨1, by decide⟩ ∧
      Contains repeatedClass none ⟨1, by decide⟩ ⟨2, by decide⟩ ∧
      Contains repeatedClass none ⟨0, by decide⟩ ⟨2, by decide⟩ := by
  obtain ⟨-, horder, -, -, -, hequal⟩ := containment_isStrictOrder .sizeRatio repeatedClass none
  have hfirst : Contains repeatedClass none ⟨0, by decide⟩ ⟨1, by decide⟩ :=
    hequal _ _ (by decide) (by decide)
  have hsecond : Contains repeatedClass none ⟨1, by decide⟩ ⟨2, by decide⟩ := by decide
  exact ⟨by decide, hfirst, hsecond, horder.trans _ _ _ hfirst hsecond⟩

end Outline

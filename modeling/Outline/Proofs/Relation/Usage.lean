import Outline.Proofs.Relation.Attribution
import Outline.Proofs.Relation.Heritage

/-!
# Uses

That one structure uses another is read from the references: a name of a type, on a line that
belongs to the first structure, that means the second one.  The edges are made after the references
were thinned out and sorted, and they are thinned out once more, by their two ends.  Which
references have these two ends does not depend on either (`Reference.any_usage?_eq`), and thinning
out leaves the first of them (`filter_key_distinctBy`).  In the list of all edges those of use come
last, and no other pass makes any (`filter_isUsage_edges`).

* `Reference.NamesType`, `Edge.IsUsage`: a reference and an edge between two structures.
* `usages_areTypeReferences`: the edges of use of a file.
-/

namespace Outline

/-- A reference from one structure to another one, as a type. -/
def Reference.NamesType (a b : Ref) (r : Reference) : Prop :=
  r.kind = .typeName ∧ r.source = a ∧ r.target = some b

instance (a b : Ref) : DecidablePred (Reference.NamesType a b) :=
  fun r => inferInstanceAs (Decidable (r.kind = .typeName ∧ r.source = a ∧ r.target = some b))

/-- An edge by which one structure uses another one. -/
def Edge.IsUsage (a b : Ref) (e : Edge) : Prop := e.kind = .usage ∧ e.parent = a ∧ e.child = b

instance (a b : Ref) : DecidablePred (Edge.IsUsage a b) :=
  fun e => inferInstanceAs (Decidable (e.kind = .usage ∧ e.parent = a ∧ e.child = b))

/-- A reference stands for the use of one structure by another exactly if it names the second one
as a type from within the first. -/
theorem Reference.usage?_eq_some_iff {r : Reference} {e : Edge} : r.usage? = some e ↔
    ∃ a b, a ≠ b ∧ r.NamesType a b ∧ e = ⟨a, b, .usage, r.confidence⟩ := by
  rw [usage?]
  split
  · rename_i b hkind htarget
    by_cases hself : b = r.source
    · rw [if_pos hself]
      refine iff_of_false (by simp) ?_
      rintro ⟨a, c, hne, ⟨-, rfl, hc⟩, -⟩
      rw [htarget, Option.some_inj] at hc
      exact hne (hself ▸ hc)
    · rw [if_neg hself, Option.some_inj]
      constructor
      · rintro rfl
        exact ⟨r.source, b, Ne.symm hself, ⟨hkind, rfl, htarget⟩, rfl⟩
      · rintro ⟨a, c, -, ⟨-, rfl, hc⟩, rfl⟩
        rw [htarget, Option.some_inj] at hc
        rw [hc]
  · rename_i hnone
    refine iff_of_false (by simp) ?_
    rintro ⟨a, b, -, ⟨hkind, -, htarget⟩, -⟩
    exact hnone b hkind htarget

/-- The references that stand for the use of one structure by another, as a test. -/
theorem Reference.any_usage?_eq {a b : Ref} (hne : a ≠ b) (r : Reference) :
    r.usage?.any (fun e => (e.parent, e.child) == (a, b)) = decide (r.NamesType a b) := by
  rw [Bool.eq_iff_iff, decide_eq_true_iff, Option.any_eq_true]
  simp only [beq_iff_eq, Prod.mk.injEq]
  constructor
  · rintro ⟨e, he, rfl, rfl⟩
    obtain ⟨a, b, -, hnames, rfl⟩ := usage?_eq_some_iff.mp he
    exact hnames
  · intro hnames
    exact ⟨_, usage?_eq_some_iff.mpr ⟨a, b, hne, hnames, rfl⟩, rfl, rfl⟩

/-- The edge of use between two structures is that of the first reference between them. -/
theorem filter_isUsage_usageEdges (references : List Reference) (a b : Ref) :
    (usageEdges references).filter (Edge.IsUsage a b) =
      if a = b then [] else ((references.find? (Reference.NamesType a b)).map fun r =>
        (⟨a, b, .usage, r.confidence⟩ : Edge)).toList := by
  have hkey : (usageEdges references).filter (Edge.IsUsage a b) =
      (usageEdges references).filter fun e => (e.parent, e.child) == (a, b) := by
    refine List.filter_congr fun e he => ?_
    rw [Bool.eq_iff_iff, decide_eq_true_iff, beq_iff_eq, Prod.mk.injEq]
    exact and_iff_right (kind_of_mem_usageEdges he)
  rw [hkey, usageEdges, filter_key_distinctBy]
  split
  · rename_i hab
    rw [Option.toList_eq_nil_iff, List.find?_eq_none]
    rintro e he hends
    obtain ⟨r, -, hr⟩ := List.mem_filterMap.mp he
    obtain ⟨c, d, hne, -, rfl⟩ := Reference.usage?_eq_some_iff.mp hr
    obtain ⟨rfl, rfl⟩ := Prod.mk.inj (beq_iff_eq.mp hends)
    exact hne hab
  · rename_i hab
    rw [List.find?_filterMap]
    simp only [Reference.any_usage?_eq hab]
    refine congrArg Option.toList ?_
    cases hfound : references.find? (Reference.NamesType a b) with
    | none => rfl
    | some r =>
      have htest := List.find?_some hfound
      have hnames := of_decide_eq_true htest
      exact Reference.usage?_eq_some_iff.mpr ⟨a, b, hab, hnames, rfl⟩

/-- Among the edges of a file, those of use between two structures come from the references. -/
theorem filter_isUsage_edges (strategy : StrengthStrategy) (x : Extraction) (content : Text)
    (a b : Ref) : (relate strategy x content).edges.filter (Edge.IsUsage a b) =
      (usageEdges (relate strategy x content).references).filter (Edge.IsUsage a b) := by
  have hnone : ∀ {edges : List Edge}, (∀ e ∈ edges, e.kind ≠ .usage) →
      edges.filter (Edge.IsUsage a b) = [] := fun h =>
    List.filter_eq_nil_iff.mpr fun e he husage => h e he (of_decide_eq_true husage).1
  have hcontained : ∀ e ∈ containment strategy x.named x.tree, e.kind ≠ .usage := by
    intro e he
    obtain ⟨i, j, -, -, -, hkind, -⟩ := mem_containment.mp he
    rw [hkind]
    decide
  have hheritage : ∀ e ∈ heritageEdges (rulesOf x.language) x.named content x.tree,
      e.kind ≠ .usage := by
    intro e he
    obtain ⟨l, -, hl⟩ := List.mem_filterMap.mp he
    have hkind := HeritageLink.isHeritage_of_edge? hl
    rintro hu
    rw [Edge.isHeritage, hu] at hkind
    exact absurd hkind (by decide)
  have hedges : (relate strategy x content).edges =
      containment strategy x.named x.tree ++
        heritageEdges (rulesOf x.language) x.named content x.tree ++
          usageEdges (relate strategy x content).references := rfl
  rw [hedges, List.filter_append, List.filter_append, hnone hcontained, hnone hheritage,
    List.nil_append, List.nil_append]

/-- Uses are the references to types as a relation.  From one structure to another there is one edge
of use if some reference names the second as a type from within the first, and none otherwise; none
leads from a structure to itself.  The references stand in the order of their lines, and the edge is
as strong as the first one that it comes from is sure. -/
theorem usages_areTypeReferences (strategy : StrengthStrategy) (x : Extraction) (content : Text)
    (a b : Ref) :
    ((relate strategy x content).references.Pairwise fun q r => q.line ≤ r.line) ∧
      (relate strategy x content).edges.countP (Edge.IsUsage a b) =
        (if a ≠ b ∧ ∃ r ∈ (relate strategy x content).references, r.NamesType a b then 1 else 0) ∧
      (relate strategy x content).edges.filter (Edge.IsUsage a b) =
        if a = b then [] else
          (((relate strategy x content).references.find? (Reference.NamesType a b)).map fun r =>
            (⟨a, b, .usage, r.confidence⟩ : Edge)).toList := by
  have hfilter := (filter_isUsage_edges strategy x content a b).trans
    (filter_isUsage_usageEdges _ a b)
  refine ⟨pairwise_line_references, ?_, hfilter⟩
  rw [List.countP_eq_length_filter, hfilter]
  by_cases hab : a = b
  · rw [if_pos hab, if_neg fun h => h.1 hab]
    rfl
  · rw [if_neg hab]
    cases hfound : (relate strategy x content).references.find? (Reference.NamesType a b) with
    | none =>
      have hnone := List.find?_eq_none.mp hfound
      rw [if_neg fun ⟨_, r, hr, hnames⟩ => hnone r hr (decide_eq_true hnames)]
      rfl
    | some r =>
      have htest := List.find?_some hfound
      rw [if_pos ⟨hab, r, List.mem_of_find?_eq_some hfound, of_decide_eq_true htest⟩]
      rfl

end Outline

import Mathlib.Data.List.Nodup
import Outline.Extraction.Basic
import Outline.Proofs.Extraction.LineOnce
import Outline.Proofs.Extraction.NodeOnce
import Outline.Relation.Analysis

/-!
# Containment is strict

Two structures may have the same span, and then each encloses the other; the earlier one is taken
to contain the later one.  Earlier and later are places in the list of structures, though, and an
edge does not keep them: it names its ends by value.  So the order on places (`not_holdsAt_swap`)
carries over to the edges exactly as far as a value stands in one place only
(`isStrict_containment_iff`).

Whether it does is a matter of the extraction.  Structures from a tree have different nodes, those
from text begin on different lines (`nodup_named_of_isLinked`, `nodup_named_extractText`).  Where
the text rules of a language let the same line begin a structure of either tier, a structure comes
out as contained in itself (`not_isStrict_of_namespace`).

* `IsStrict`: no structure contains itself, and no two contain each other.
* `isStrict_relate_iff`: containment is strict exactly when no structure was found twice.
* `isStrict_relate`: where this is so.
-/

namespace Outline

/-! ## Spans -/

theorem Point.le_refl (a : Point) : a ≤ a := Or.inr ⟨rfl, Nat.le_refl _⟩

theorem Point.le_antisymm {a b : Point} (hab : a ≤ b) (hba : b ≤ a) : a = b := by
  rcases hab with hab | ⟨hrow, hab⟩
  · rcases hba with hba | ⟨hrow, -⟩
    · omega
    · omega
  · rcases hba with hba | ⟨-, hba⟩
    · omega
    · exact Point.ext hrow (Nat.le_antisymm hab hba)

theorem Span.encloses_iff {a b : Span} :
    a.encloses b = true ↔ a.start ≤ b.start ∧ b.stop ≤ a.stop := by
  rw [encloses, Bool.and_eq_true, decide_eq_true_eq, decide_eq_true_eq]

theorem Span.eq_of_encloses {a b : Span} (hab : a.encloses b = true) (hba : b.encloses a = true) :
    a = b := by
  obtain ⟨hstart, hstop⟩ := encloses_iff.mp hab
  obtain ⟨hstart', hstop'⟩ := encloses_iff.mp hba
  cases a
  cases b
  rw [Span.mk.injEq]
  exact ⟨Point.le_antisymm hstart hstart', Point.le_antisymm hstop' hstop⟩

theorem holdsAt_iff {a b : Span} {i j : Nat} :
    holdsAt a b i j = true ↔ i ≠ j ∧ a.encloses b = true ∧ (a ≠ b ∨ i < j) := by
  simp only [holdsAt, Bool.and_eq_true, Bool.or_eq_true, bne_iff_ne, decide_eq_true_eq, and_assoc]

/-- Of equal spans the earlier one contains the later one. -/
theorem holdsAt_self (a : Span) {i j : Nat} (h : i < j) : holdsAt a a i j = true :=
  holdsAt_iff.mpr ⟨Nat.ne_of_lt h,
    Span.encloses_iff.mpr ⟨Point.le_refl _, Point.le_refl _⟩, Or.inr h⟩

/-- Of two places, at most one contains the other. -/
theorem not_holdsAt_swap {a b : Span} {i j : Nat} (h : holdsAt a b i j = true) :
    holdsAt b a j i ≠ true := by
  intro h'
  obtain ⟨-, hab, hor⟩ := holdsAt_iff.mp h
  obtain ⟨-, hba, hor'⟩ := holdsAt_iff.mp h'
  have heq := Span.eq_of_encloses hab hba
  have hlt := hor.resolve_left fun hne => hne heq
  have hlt' := hor'.resolve_left fun hne => hne heq.symm
  omega

/-! ## Edges -/

/-- No structure contains itself, and no two contain each other. -/
structure IsStrict (edges : List Edge) : Prop where
  parent_ne_child : ∀ e ∈ edges, e.kind = .containment → e.parent ≠ e.child
  not_exchanged : ∀ e ∈ edges, ∀ e' ∈ edges, e.kind = .containment → e'.kind = .containment →
    ¬ (e.parent = e'.child ∧ e.child = e'.parent)

theorem mem_zipIdx_spans {structures : List Ref} {tree : Option SyntaxTree} {s : Ref} {span : Span}
    {i : Nat} : ((s, span), i) ∈ (structures.map fun s => (s, spanOf tree s)).zipIdx ↔
      structures[i]? = some s ∧ span = spanOf tree s := by
  rw [List.mem_zipIdx_iff_getElem?, List.getElem?_map, Option.map_eq_some_iff]
  constructor
  · rintro ⟨a, ha, heq⟩
    obtain ⟨rfl, rfl⟩ := Prod.mk.inj heq
    exact ⟨ha, rfl⟩
  · rintro ⟨hs, rfl⟩
    exact ⟨s, hs, rfl⟩

theorem mem_containment {strategy : StrengthStrategy} {structures : List Ref}
    {tree : Option SyntaxTree} {e : Edge} :
    e ∈ containment strategy structures tree ↔
      ∃ i j, structures[i]? = some e.parent ∧ structures[j]? = some e.child ∧
        holdsAt (spanOf tree e.parent) (spanOf tree e.child) i j = true ∧
        e.kind = .containment ∧
        e.strength = strategy.strength e.parent.location e.child.location := by
  rw [containment, List.mem_flatMap]
  constructor
  · rintro ⟨⟨⟨parent, outer⟩, i⟩, hparent, he⟩
    obtain ⟨⟨⟨child, inner⟩, j⟩, hchild, rfl⟩ := List.mem_map.mp he
    obtain ⟨hmem, hholds⟩ := List.mem_filter.mp hchild
    obtain ⟨hi, rfl⟩ := mem_zipIdx_spans.mp hparent
    obtain ⟨hj, rfl⟩ := mem_zipIdx_spans.mp hmem
    exact ⟨i, j, hi, hj, hholds, rfl, rfl⟩
  · rintro ⟨i, j, hi, hj, hholds, hkind, hstrength⟩
    refine ⟨((e.parent, spanOf tree e.parent), i), mem_zipIdx_spans.mpr ⟨hi, rfl⟩, ?_⟩
    refine List.mem_map.mpr ⟨((e.child, spanOf tree e.child), j), ?_, ?_⟩
    · exact List.mem_filter.mpr ⟨mem_zipIdx_spans.mpr ⟨hj, rfl⟩, hholds⟩
    · simp only [← hkind, ← hstrength]

/-- Containment is strict exactly when no structure stands in two places. -/
theorem isStrict_containment_iff (strategy : StrengthStrategy) (structures : List Ref)
    (tree : Option SyntaxTree) :
    IsStrict (containment strategy structures tree) ↔ structures.Nodup := by
  constructor
  · intro h
    rw [List.nodup_iff_getElem?_ne_getElem?]
    intro i j hij hj hsame
    have hparent : structures[i]? = some structures[j] := by
      rw [hsame, List.getElem?_eq_getElem hj]
    have hmem : (⟨structures[j], structures[j], .containment,
        strategy.strength structures[j].location structures[j].location⟩ : Edge) ∈
          containment strategy structures tree :=
      mem_containment.mpr ⟨i, j, hparent, List.getElem?_eq_getElem hj, holdsAt_self _ hij, rfl, rfl⟩
    exact h.parent_ne_child _ hmem rfl rfl
  · intro h
    have hplace : ∀ {i j : Nat} {s : Ref}, structures[i]? = some s → structures[j]? = some s →
        i = j := by
      intro i j s hi hj
      exact (List.getElem?_inj (List.getElem?_eq_some_iff.mp hi).1 h).mp (hi.trans hj.symm)
    constructor
    · intro e he _ hsame
      obtain ⟨i, j, hi, hj, hholds, -⟩ := mem_containment.mp he
      rw [hsame] at hi
      exact (holdsAt_iff.mp hholds).1 (hplace hi hj)
    · rintro e he e' he' - - ⟨hparent, hchild⟩
      obtain ⟨i, j, hi, hj, hholds, -⟩ := mem_containment.mp he
      obtain ⟨k, l, hk, hl, hholds', -⟩ := mem_containment.mp he'
      rw [hparent] at hi hholds
      rw [hchild] at hj hholds
      rw [hplace hi hl, hplace hj hk] at hholds
      exact not_holdsAt_swap hholds hholds'

/-! ## All edges of a file -/

theorem kind_of_mem_usageEdges {references : List Reference} {e : Edge}
    (h : e ∈ usageEdges references) : e.kind = .usage := by
  obtain ⟨r, -, hr⟩ := List.mem_filterMap.mp (mem_of_mem_distinctBy h)
  rw [Reference.usage?] at hr
  split at hr
  · split at hr
    · exact absurd hr (by simp)
    · rw [← Option.some.inj hr]
  · exact absurd hr (by simp)

theorem kind_ne_containment_of_edge? {l : HeritageLink} {e : Edge} (h : l.edge? = some e) :
    e.kind ≠ .containment := by
  rw [HeritageLink.edge?, Option.map_eq_some_iff] at h
  obtain ⟨parent, -, rfl⟩ := h
  simp only
  split <;> decide

/-- The edges of containment among all edges. -/
theorem mem_edges_relate_iff {strategy : StrengthStrategy} {x : Extraction} {content : Text}
    {e : Edge} (hkind : e.kind = .containment) :
    e ∈ (relate strategy x content).edges ↔ e ∈ containment strategy x.named x.tree := by
  rw [relate]
  simp only [List.mem_append, or_assoc]
  refine or_iff_left ?_
  rintro (h | h)
  · obtain ⟨l, -, hl⟩ := List.mem_filterMap.mp h
    exact kind_ne_containment_of_edge? hl hkind
  · rw [kind_of_mem_usageEdges h] at hkind
    exact absurd hkind (by decide)

/-- Containment is strict exactly when no structure was found twice. -/
theorem isStrict_relate_iff {strategy : StrengthStrategy} {x : Extraction} {content : Text} :
    IsStrict (relate strategy x content).edges ↔ x.named.Nodup := by
  rw [← isStrict_containment_iff strategy x.named x.tree]
  constructor
  · intro h
    constructor
    · intro e he hkind
      exact h.parent_ne_child e ((mem_edges_relate_iff hkind).mpr he) hkind
    · intro e he e' he' hkind hkind'
      exact h.not_exchanged e ((mem_edges_relate_iff hkind).mpr he) e'
        ((mem_edges_relate_iff hkind').mpr he') hkind hkind'
  · intro h
    constructor
    · intro e he hkind
      exact h.parent_ne_child e ((mem_edges_relate_iff hkind).mp he) hkind
    · intro e he e' he' hkind hkind'
      exact h.not_exchanged e ((mem_edges_relate_iff hkind).mp he) e'
        ((mem_edges_relate_iff hkind').mp he') hkind hkind'

/-! ## All extractions -/

section

variable {parser : Option ParserService} {maxDepth : Nat} {content : Text} {language : String}

theorem nodup_named_of_tree (h : (extractAll parser maxDepth content language).strategy = .tree)
    (hlinked : ∀ p t, parser = some p → p.parse content language = .ok t → t.IsLinked) :
    (extractAll parser maxDepth content language).named.Nodup := by
  obtain ⟨t, found, hyields⟩ := exists_treeYields_of_strategy h
  obtain ⟨p, hp, -, hparse⟩ := hyields.parsed
  have hnodup := nodup_named_of_isLinked (hlinked p t hp hparse) hyields.extracted
  rw [hyields.extractAll_eq]
  exact hnodup

theorem nodup_named_of_text (h : (extractAll parser maxDepth content language).strategy = .text)
    (hcsharp : (rulesOf language).name ≠ "csharp")
    (hmarkdown : (rulesOf language).name ≠ "markdown") :
    (extractAll parser maxDepth content language).named.Nodup := by
  rw [extractAll_eq_of_strategy h]
  exact nodup_named_extractText hcsharp hmarkdown content

end

/-- Containment is strict in all that is extracted from a tree whose children know their parents,
and in all that is extracted from text in a language other than C# and Markdown; in any case it is
strict exactly when no structure was found twice. -/
theorem isStrict_relate (parser : Option ParserService) (strategy : StrengthStrategy)
    (maxDepth : Nat) (content : Text) (language : String) :
    (IsStrict (relate strategy (extractAll parser maxDepth content language) content).edges ↔
      (extractAll parser maxDepth content language).named.Nodup) ∧
    ((extractAll parser maxDepth content language).strategy = .tree →
      (∀ p t, parser = some p → p.parse content language = .ok t → t.IsLinked) →
      IsStrict (relate strategy (extractAll parser maxDepth content language) content).edges) ∧
    ((extractAll parser maxDepth content language).strategy = .text →
      (rulesOf language).name ≠ "csharp" → (rulesOf language).name ≠ "markdown" →
      IsStrict (relate strategy (extractAll parser maxDepth content language) content).edges) := by
  refine ⟨isStrict_relate_iff, fun h hlinked => ?_, fun h hcsharp hmarkdown => ?_⟩
  · exact isStrict_relate_iff.mpr (nodup_named_of_tree h hlinked)
  · exact isStrict_relate_iff.mpr (nodup_named_of_text h hcsharp hmarkdown)

/-- A class around a function, node by node. -/
def classTree : SyntaxTree :=
  ((((SyntaxTree.ofSource "class A:\n  def f(): pass\n".toList).add none "module" none 0 25).add
    (some 0) "class_definition" none 0 24).add
    (some 1) "block" none 11 24).add
    (some 2) "function_definition" none 11 24

theorem isBuilt_classTree : classTree.IsBuilt :=
  ((((SyntaxTree.IsBuilt.ofSource _).add _ _ _ _ _).add _ _ _ _ _).add _ _ _ _ _).add _ _ _ _ _

/-- A class around a function, from text and from a tree: two structures, one in the other. -/
theorem isStrict_relate_of_class :
    ((extractAll none 10 classTree.source "python").named.length = 2 ∧
      IsStrict (relate .sizeRatio (extractAll none 10 classTree.source "python")
        classTree.source).edges) ∧
    (extractAll (some (.constant (.ok classTree))) 10 classTree.source "python").named.length = 2 ∧
      IsStrict (relate .sizeRatio
        (extractAll (some (.constant (.ok classTree))) 10 classTree.source "python")
        classTree.source).edges := by
  refine ⟨⟨by decide +kernel, ?_⟩, by decide +kernel, ?_⟩
  · exact (isStrict_relate none .sizeRatio 10 _ "python").2.2 (by decide +kernel)
      (by decide +kernel) (by decide +kernel)
  · refine (isStrict_relate _ .sizeRatio 10 _ "python").2.1 (by decide +kernel) ?_
    intro p t hp ht
    obtain rfl := Option.some.inj hp
    exact Except.ok.inj ht ▸ isBuilt_classTree.isLinked

/-- A class in a namespace, each with its braces. -/
def namespaceText : Text := "namespace N \x7b\n  class A \x7b\n  \x7d\n\x7d\n".toList

/-- The class is found on the top level and again inside the namespace, and contains itself. -/
theorem not_isStrict_of_namespace :
    ¬ IsStrict (relate .sizeRatio (extractAll none 10 namespaceText "csharp")
      namespaceText).edges := by
  intro h
  have hnodup := isStrict_relate_iff.mp h
  have htop : TextExtraction.topLevel (rulesOf "csharp") namespaceText "csharp" =
      TextExtraction.announced (rulesOf "csharp") namespaceText "csharp" :=
    TextExtraction.declarations_of_pairwise (by decide +kernel)
  rw [(TreeFails.absent rfl).extractAll_eq, Extraction.named, extractText] at hnodup
  simp only [htop] at hnodup
  exact absurd hnodup (by decide +kernel)

end Outline

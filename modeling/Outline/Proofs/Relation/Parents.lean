import Outline.Proofs.Tree.Places

/-!
# Parents contain their members

A nested structure names the structure it was found in.  Containment knows nothing of this: it
compares the spans of all pairs, and of two equal spans takes the earlier one for the outer one.
The two agree (`exists_edge_of_mem_nested`), for two reasons.

A parent comes before its members.  The top level comes before everything nested, and the walk over
a tree gives out a member before what lies below it (`FollowsParents`).  So where spans are equal,
the parent is the earlier one.

A parent encloses its members.  In a text, the lines of a member are looked for in the lines of the
parent and cut off at their end.  In a tree, a member lies any number of nodes below its parent, and
each of them inside the one before (`encloses_of_mem_nestedBelow`).
-/

namespace Outline

/-! ## Order -/

/-- Each structure of a list belongs to one that stands before it: one of the given ones, or an
earlier one of the list. -/
def FollowsParents (before : List Ref) : List NestedStructure → Prop
  | [] => True
  | s :: rest => s.parent ∈ before ∧ FollowsParents (before ++ [s.ref]) rest

theorem FollowsParents.mono : ∀ {members : List NestedStructure} {before before' : List Ref},
    FollowsParents before members → before ⊆ before' → FollowsParents before' members
  | [], _, _, _, _ => trivial
  | _ :: _, _, _, ⟨hs, hrest⟩, hsub =>
    ⟨hsub hs, hrest.mono (List.append_subset.mpr
      ⟨List.subset_append_of_subset_left _ hsub, List.subset_append_right _ _⟩)⟩

theorem FollowsParents.append : ∀ {members more : List NestedStructure} {before : List Ref},
    FollowsParents before members → FollowsParents before more →
      FollowsParents before (members ++ more)
  | [], _, _, _, hmore => hmore
  | _ :: _, _, _, ⟨hs, hrest⟩, hmore =>
    ⟨hs, hrest.append (hmore.mono (List.subset_append_left _ _))⟩

theorem followsParents_flatMap {α : Type} {before : List Ref} {f : α → List NestedStructure} :
    ∀ {as : List α}, (∀ a ∈ as, FollowsParents before (f a)) →
      FollowsParents before (as.flatMap f)
  | [], _ => trivial
  | a :: as, h => by
    obtain ⟨ha, has⟩ := List.forall_mem_cons.mp h
    exact ha.append (followsParents_flatMap has)

theorem followsParents_of_forall_mem : ∀ {members : List NestedStructure} {before : List Ref},
    (∀ s ∈ members, s.parent ∈ before) → FollowsParents before members
  | [], _, _ => trivial
  | s :: rest, _, h => by
    obtain ⟨hs, hrest⟩ := List.forall_mem_cons.mp h
    exact ⟨hs, followsParents_of_forall_mem fun m hm => List.mem_append_left _ (hrest m hm)⟩

/-- A parent stands in an earlier place than its member. -/
theorem FollowsParents.exists_lt {members : List NestedStructure} {before : List Ref}
    (h : FollowsParents before members) {s : NestedStructure} (hs : s ∈ members) :
    ∃ i j : Nat, i < j ∧
      (before ++ members.map NestedStructure.ref)[i]? = some s.parent ∧
      (before ++ members.map NestedStructure.ref)[j]? = some s.ref := by
  induction members generalizing before with
  | nil => exact absurd hs List.not_mem_nil
  | cons m rest ih =>
    obtain ⟨hm, hrest⟩ := h
    have hlist : before ++ (m :: rest).map NestedStructure.ref =
        before ++ [m.ref] ++ rest.map NestedStructure.ref := by simp
    rcases List.mem_cons.mp hs with rfl | hs
    · obtain ⟨i, hi, hget⟩ := List.mem_iff_getElem.mp hm
      refine ⟨i, before.length, hi, ?_, ?_⟩
      · rw [List.getElem?_append_left hi, List.getElem?_eq_getElem hi, hget]
      · rw [List.getElem?_append_right (Nat.le_refl _), Nat.sub_self, List.map_cons,
          List.getElem?_cons_zero]
    · rw [hlist]
      exact ih hrest hs

/-- A member that comes after its parent, and whose span lies inside that of the parent, is
contained in it. -/
theorem exists_edge_of_encloses {strategy : StrengthStrategy} {x : Extraction} {content : Text}
    (hfollows : FollowsParents (x.topLevel.map Structure.ref) x.nested) {s : NestedStructure}
    (hs : s ∈ x.nested)
    (hspan : (spanOf x.tree s.parent).encloses (spanOf x.tree s.ref) = true) :
    ∃ e ∈ (relate strategy x content).edges,
      e.kind = .containment ∧ e.parent = s.parent ∧ e.child = s.ref := by
  obtain ⟨i, j, hlt, hi, hj⟩ := hfollows.exists_lt hs
  have hholds : holdsAt (spanOf x.tree s.parent) (spanOf x.tree s.ref) i j = true :=
    holdsAt_iff.mpr ⟨Nat.ne_of_lt hlt, hspan, Or.inr hlt⟩
  let e : Edge := ⟨s.parent, s.ref, .containment,
    strategy.strength s.parent.location s.ref.location⟩
  refine ⟨e, (mem_edges_relate_iff rfl).mpr ?_, rfl, rfl, rfl⟩
  exact mem_containment.mpr ⟨i, j, hi, hj, hholds, rfl, rfl⟩

/-! ## Trees -/

namespace TreeExtraction

variable {r : Rules} {t : SyntaxTree} {language : String}

theorem spanOf_of_get? {s : Ref} {id : Nat} {n : Node} (hs : s.node = some id)
    (hn : t.get? id = some n) : spanOf (some t) s = n.span := by
  simp [spanOf, hs, hn, Node.span]

/-- The walk gives out a member before what lies below it. -/
theorem followsParents_nestedBelow : ∀ (depth node : Nat) (parent : Ref) (level : Nat),
    FollowsParents [parent] (nestedBelow r t language depth node parent level)
  | 0, _, _, _ => trivial
  | depth + 1, node, parent, level => by
    rw [nestedBelow]
    refine followsParents_flatMap fun child _ => ?_
    split
    · exact followsParents_nestedBelow depth child parent level
    · rename_i found hfound
      have hbelow := followsParents_nestedBelow depth child found.ref (level + 1)
      exact ⟨List.mem_cons_self, hbelow.mono (List.subset_append_right [parent] [found.ref])⟩

/-- What lies inside the parent lies inside it together with all nodes below. -/
theorem encloses_of_mem_nestedBelow (hplaced : t.IsPlaced) (hnested : t.IsNested) :
    ∀ {depth node : Nat} {n : Node} {parent : Ref} {level : Nat}, t.get? node = some n →
      (spanOf (some t) parent).encloses n.span = true →
        ∀ s ∈ nestedBelow r t language depth node parent level,
          (spanOf (some t) s.parent).encloses (spanOf (some t) s.ref) = true
  | 0, _, _, _, _, _, _, s, hs => absurd hs List.not_mem_nil
  | depth + 1, node, n, parent, level, hn, hparent, s, hs => by
    rw [nestedBelow] at hs
    obtain ⟨child, hchild, hs⟩ := List.mem_flatMap.mp hs
    obtain ⟨m, hm⟩ := SyntaxTree.exists_get?_of_lt (SyntaxTree.lt_size_of_mem_children hchild)
    have hinside := Span.encloses_trans hparent
      (hplaced.encloses_of_mem_children hnested hn hm hchild)
    split at hs
    · exact encloses_of_mem_nestedBelow hplaced hnested hm hinside s hs
    · rename_i found hfound
      obtain ⟨kind, -, hstructure⟩ := Option.bind_eq_some_iff.mp hfound
      have hspan : spanOf (some t) found.ref = m.span :=
        spanOf_of_get? (node_of_structureOf? hstructure).1 hm
      rcases List.mem_cons.mp hs with rfl | hs
      · have hself : spanOf (some t) (NestedStructure.ref { found with parent, level }) = m.span :=
          hspan
        rw [hself]
        exact hinside
      · refine encloses_of_mem_nestedBelow hplaced hnested hm ?_ s hs
        rw [hspan]
        exact Span.encloses_refl _

theorem followsParents_nested (maxDepth : Nat) (top : List Structure) :
    FollowsParents (top.map Structure.ref) (nested r t language maxDepth top) := by
  refine followsParents_flatMap fun s hs => ?_
  have htop : s.ref ∈ top.map Structure.ref := List.mem_map_of_mem (List.mem_filter.mp hs).1
  split
  · trivial
  · rename_i node hnode
    refine (followsParents_nestedBelow maxDepth node s.ref 0).mono fun p hp => ?_
    rw [List.mem_singleton.mp hp]
    exact htop

theorem encloses_of_mem_nested (hplaced : t.IsPlaced) (hnested : t.IsNested) {root maxDepth : Nat}
    (hroot : t.root? = some root) {s : NestedStructure}
    (hs : s ∈ nested r t language maxDepth (topLevel r t language)) :
    (spanOf (some t) s.parent).encloses (spanOf (some t) s.ref) = true := by
  obtain ⟨container, hcontainer, hs⟩ := List.mem_flatMap.mp hs
  obtain ⟨node, hnode, hlt⟩ :=
    exists_node_of_mem_topLevel hroot (List.mem_filter.mp hcontainer).1
  obtain ⟨n, hn⟩ := SyntaxTree.exists_get?_of_lt hlt
  rw [hnode] at hs
  refine encloses_of_mem_nestedBelow hplaced hnested hn ?_ s hs
  rw [spanOf_of_get? hnode hn]
  exact Span.encloses_refl _

end TreeExtraction

/-! ## Text -/

namespace TextExtraction

variable {content : Text} {language : String}

theorem followsParents_nested (content : Text) (language : String) :
    FollowsParents ((extractText content language).topLevel.map Structure.ref)
      (extractText content language).nested := by
  refine followsParents_of_forall_mem fun s hs => ?_
  obtain ⟨parent, hparent, -, hit, -, hat⟩ := mem_nested hs
  rw [eq_of_nestedAt? hat]
  exact List.mem_map_of_mem hparent

/-- Lines inside other lines. -/
theorem encloses_spanOf {outer inner : Ref} (hstart : outer.location.start ≤ inner.location.start)
    (hstop : inner.location.stop ≤ outer.location.stop) :
    (spanOf none outer).encloses (spanOf none inner) = true := by
  have hspan : ∀ s : Ref, spanOf none s =
      ⟨⟨s.location.start - 1, 0⟩, ⟨s.location.stop - 1, lastColumn⟩⟩ := fun _ => rfl
  rw [hspan, hspan, Span.encloses_iff]
  constructor
  · rcases Nat.lt_or_eq_of_le (Nat.sub_le_sub_right hstart 1) with hlt | heq
    · exact Or.inl hlt
    · exact Or.inr ⟨heq, Nat.le_refl _⟩
  · rcases Nat.lt_or_eq_of_le (Nat.sub_le_sub_right hstop 1) with hlt | heq
    · exact Or.inl hlt
    · exact Or.inr ⟨heq, Nat.le_refl _⟩

theorem encloses_of_mem_nested {s : NestedStructure}
    (hs : s ∈ (extractText content language).nested) :
    (spanOf none s.parent).encloses (spanOf none s.ref) = true := by
  obtain ⟨parent, hparent, -, hit, hhit, hat⟩ := mem_nested hs
  obtain ⟨⟨hone, -⟩, hle, -⟩ := isFilled_of_hit_in (rulesOf language).blockStyle
    (isCut_or_whole_of_mem_topLevel (Markdown.findsFilledLines_headings content) hparent) hhit
  have hline : 1 ≤ hit.line := by
    obtain ⟨rule, -, f, -, rfl⟩ := Hit.mem_ofRules.mp hhit
    exact Nat.le_add_left 1 _
  rw [eq_of_nestedAt? hat]
  refine encloses_spanOf ?_ ?_
  · show parent.location.start ≤ (Location.clamped _ _).start
    rw [Location.start_clamped]
    omega
  · show (Location.clamped _ _).stop ≤ parent.location.stop
    rw [Location.stop_clamped]
    omega

end TextExtraction

/-- Whatever names a parent is contained in it, by an edge between the same two structures; in a
tree, if the bytes of each node lie inside those of its parent.  Nothing is asked of the nodes
beyond that but that their places are those of their bytes. -/
theorem exists_edge_of_mem_nested (parser : Option ParserService) (strategy : StrengthStrategy)
    (maxDepth : Nat) (content : Text) (language : String)
    (htree : ∀ p t, parser = some p → p.parse content language = .ok t → t.IsPlaced ∧ t.IsNested) :
    ∀ s ∈ (extractAll parser maxDepth content language).nested,
      ∃ e ∈ (relate strategy (extractAll parser maxDepth content language) content).edges,
        e.kind = .containment ∧ e.parent = s.parent ∧ e.child = s.ref := by
  intro s hs
  rcases treeYields_or_treeFails parser maxDepth content language with ⟨t, found, hyields⟩ | hfails
  · obtain ⟨p, hp, -, hparse⟩ := hyields.parsed
    obtain ⟨hplaced, hnested⟩ := htree p t hp hparse
    obtain ⟨⟨⟨root, hroot⟩, -⟩, htiers⟩ := isFromTree_of_extractTree hyields.extracted
    rw [hyields.extractAll_eq] at hs ⊢
    have hmem := hs
    simp only [htiers.nested_eq, htiers.topLevel_eq] at hmem
    refine exists_edge_of_encloses ?_ hs
      (TreeExtraction.encloses_of_mem_nested hplaced hnested hroot hmem)
    simp only [htiers.nested_eq]
    exact TreeExtraction.followsParents_nested maxDepth _
  · rw [hfails.extractAll_eq] at hs ⊢
    exact exists_edge_of_encloses (TextExtraction.followsParents_nested content language) hs
      (TextExtraction.encloses_of_mem_nested hs)

/-- A class, its method and a function in the method, all over the same bytes. -/
def nestedTree : SyntaxTree :=
  ((((SyntaxTree.ofSource "class A:\n  def f(): pass\n".toList).add none "module" none 0 25).add
    (some 0) "class_definition" none 0 25).add
    (some 1) "function_definition" none 0 25).add
    (some 2) "function_definition" none 0 25

theorem isBuilt_nestedTree : nestedTree.IsBuilt :=
  ((((SyntaxTree.IsBuilt.ofSource _).add _ _ _ _ _).add _ _ _ _ _).add _ _ _ _ _).add _ _ _ _ _

/-- The same text, read from the tree and from its lines: two members with equal spans on two levels
in the one case, one member in the other, and each contained in its parent. -/
theorem exists_edge_of_class :
    ((extractAll (some (.constant (.ok nestedTree))) 10 nestedTree.source "python").nested.map
        (·.level) = [0, 1] ∧
      ∀ s ∈ (extractAll (some (.constant (.ok nestedTree))) 10 nestedTree.source "python").nested,
        ∃ e ∈ (relate .sizeRatio (extractAll (some (.constant (.ok nestedTree))) 10
          nestedTree.source "python") nestedTree.source).edges,
            e.kind = .containment ∧ e.parent = s.parent ∧ e.child = s.ref) ∧
    (extractAll none 10 nestedTree.source "python").nested.length = 1 ∧
      ∀ s ∈ (extractAll none 10 nestedTree.source "python").nested,
        ∃ e ∈ (relate .sizeRatio (extractAll none 10 nestedTree.source "python")
          nestedTree.source).edges,
            e.kind = .containment ∧ e.parent = s.parent ∧ e.child = s.ref := by
  refine ⟨⟨by decide +kernel, exists_edge_of_mem_nested _ .sizeRatio 10 _ "python" ?_⟩,
    by decide +kernel, exists_edge_of_mem_nested none .sizeRatio 10 _ "python" (by simp)⟩
  intro p t hp ht
  obtain rfl := Option.some.inj hp
  exact Except.ok.inj ht ▸ ⟨isBuilt_nestedTree.isPlaced, by decide +kernel⟩

end Outline

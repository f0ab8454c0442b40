import Mathlib.Data.List.Flatten
import Outline.Proofs.Extraction.Tree

/-!
# How deep a tree is searched

The walks for members and for statements go a limited number of steps down, each from the nodes
that the walk before it found.  A greater number adds to what is found and takes nothing away.

For one walk this is an induction on the number of steps: what a node is taken for depends on the
node and on its parent, never on the steps that are left, so both walks do the same at every node
that they both reach, and hand the same parent and level on (`nestedBelow_sublist`,
`statementsBelow_sublist`).

The tiers need a second argument, since the statements are looked for below the members: more steps
mean more members to begin at.  But the additional ones only add lists of statements of their own
between the others (`internal_sublist`).

* `Extraction.IsPartOf`: the same top level, and the other two tiers within those of another
  extraction, in the same order.
* `extractTree_of_le`: the extractions of one tree for two depths.
-/

namespace Outline

namespace TreeExtraction

variable {r : Rules} {t : SyntaxTree} {language : String}

/-! ## The two walks -/

theorem nestedBelow_sublist : ∀ {depth depth' : Nat}, depth ≤ depth' →
    ∀ (node : Nat) (parent : Ref) (level : Nat),
      (nestedBelow r t language depth node parent level).Sublist
        (nestedBelow r t language depth' node parent level)
  | 0, depth', _, node, parent, level => List.nil_sublist _
  | depth + 1, 0, h, node, parent, level => absurd h (Nat.not_succ_le_zero depth)
  | depth + 1, depth' + 1, h, node, parent, level => by
    have hbelow : depth ≤ depth' := Nat.le_of_succ_le_succ h
    rw [nestedBelow, nestedBelow]
    refine List.Sublist.flatMap_right _ fun child _ => ?_
    -- the child is taken for the same member, or for none, on both sides
    cases (memberKindOf? r t parent.kind child).bind (structureOf? r t language child) with
    | none => exact nestedBelow_sublist hbelow child parent level
    | some found => exact (nestedBelow_sublist hbelow child found.ref (level + 1)).cons_cons _

theorem statementsBelow_sublist {parent : Ref} : ∀ {depth depth' : Nat}, depth ≤ depth' →
    ∀ node : Nat, (statementsBelow r t parent depth node).Sublist
      (statementsBelow r t parent depth' node)
  | 0, depth', _, node => List.nil_sublist _
  | depth + 1, 0, h, node => absurd h (Nat.not_succ_le_zero depth)
  | depth + 1, depth' + 1, h, node => by
    have hbelow : depth ≤ depth' := Nat.le_of_succ_le_succ h
    rw [statementsBelow, statementsBelow]
    refine List.Sublist.flatMap_right _ fun child _ => ?_
    split
    · split
      · exact List.Sublist.refl _
      · exact (List.Sublist.refl _).append (statementsBelow_sublist hbelow child)
    · exact statementsBelow_sublist hbelow child

/-! ## The two tiers -/

theorem nested_sublist {depth depth' : Nat} (h : depth ≤ depth') (top : List Structure) :
    (nested r t language depth top).Sublist (nested r t language depth' top) := by
  rw [nested, nested]
  refine List.Sublist.flatMap_right _ fun container _ => ?_
  cases container.node with
  | none => exact List.Sublist.refl _
  | some node => exact nestedBelow_sublist h node container.ref 0

/-- More members and more steps give more statements. -/
theorem internal_sublist {depth depth' : Nat} (h : depth ≤ depth') (top : List Structure)
    {members members' : List NestedStructure} (hmembers : members.Sublist members') :
    (internal r t depth top members).Sublist (internal r t depth' top members') := by
  have hparents : ((top.map Structure.ref ++ members.map NestedStructure.ref).filter
      fun p => p.kind.isFunctionLike).Sublist
        ((top.map Structure.ref ++ members'.map NestedStructure.ref).filter
          fun p => p.kind.isFunctionLike) :=
    ((List.Sublist.refl _).append (hmembers.map NestedStructure.ref)).filter _
  rw [internal, internal]
  refine List.Sublist.trans (List.Sublist.flatMap_right _ fun p _ => ?_) (hparents.flatMap _)
  cases p.node with
  | none => exact List.Sublist.refl _
  | some node => exact statementsBelow_sublist h node

end TreeExtraction

/-! ## Two depths -/

/-- An extraction has the top level of another one, and its other tiers are part of those of the
other one, parents and levels included. -/
structure Extraction.IsPartOf (x y : Extraction) : Prop where
  language_eq : x.language = y.language
  strategy_eq : x.strategy = y.strategy
  topLevel_eq : x.topLevel = y.topLevel
  nested_sublist : x.nested.Sublist y.nested
  internal_sublist : x.internal.Sublist y.internal

theorem Extraction.IsFromTree.isPartOf {depth depth' : Nat} (h : depth ≤ depth')
    {language : String} {t : SyntaxTree} {x y : Extraction} (hx : x.IsFromTree depth language t)
    (hy : y.IsFromTree depth' language t) : x.IsPartOf y := by
  have htop : x.topLevel = y.topLevel := hx.topLevel_eq.trans hy.topLevel_eq.symm
  have hnested : x.nested.Sublist y.nested := by
    rw [hx.nested_eq, hy.nested_eq, htop]
    exact TreeExtraction.nested_sublist h y.topLevel
  constructor
  · rw [hx.language_eq, hy.language_eq]
  · rw [hx.strategy_eq, hy.strategy_eq]
  · exact htop
  · exact hnested
  · rw [hx.internal_eq, hy.internal_eq, htop]
    exact TreeExtraction.internal_sublist h y.topLevel hnested

/-- A tree that cannot be used is refused for the same reason, however deep it is searched. -/
theorem exists_extractTree_eq_error {content : Text} {t : SyntaxTree} (h : ¬ t.IsOver content) :
    ∃ e, ∀ (maxDepth : Nat) (language : String),
      extractTree maxDepth content language t = .error e := by
  cases hcheck : checkTree content t with
  | ok u => exact absurd (checkTree_eq_ok_iff.mp hcheck) h
  | error e =>
    refine ⟨e, fun maxDepth language => ?_⟩
    rw [extractTree, hcheck]
    rfl

/-- A tree over a text is searched with two limits of depth: with the greater one the same top level
is found, and in the other tiers everything that is found with the smaller one, in the same order,
with the same parents and levels.  Any other tree is refused with the same error for both. -/
theorem extractTree_of_le {depth depth' : Nat} (h : depth ≤ depth') (content : Text)
    (language : String) (t : SyntaxTree) :
    (t.IsOver content → ∃ x y, extractTree depth content language t = .ok x ∧
      extractTree depth' content language t = .ok y ∧ x.IsPartOf y) ∧
    (¬ t.IsOver content → ∃ e, extractTree depth content language t = .error e ∧
      extractTree depth' content language t = .error e) := by
  constructor
  · intro hover
    obtain ⟨x, hx⟩ := exists_extractTree_eq_ok hover depth language
    obtain ⟨y, hy⟩ := exists_extractTree_eq_ok hover depth' language
    exact ⟨x, y, hx, hy,
      (isFromTree_of_extractTree hx).2.isPartOf h (isFromTree_of_extractTree hy).2⟩
  · intro hover
    obtain ⟨e, he⟩ := exists_extractTree_eq_error hover
    exact ⟨e, he depth language, he depth' language⟩

/-- A class with a method, and in the method a statement and a function with a statement of its
own. -/
def methodTree : SyntaxTree :=
  ((((((SyntaxTree.ofSource
    "class A:\n  def f():\n    return 1\n    def g(): return 2\n".toList).add
    none "module" none 0 55).add
    (some 0) "class_definition" none 0 54).add
    (some 1) "function_definition" none 11 54).add
    (some 2) "return_statement" none 24 32).add
    (some 2) "function_definition" none 37 54).add
    (some 4) "return_statement" none 46 54

/-- One step down there is the method with its statement; the second step adds the function in it
as one more member, and with it one more statement.  For another text the tree is refused. -/
theorem extractTree_of_le_of_method :
    (∃ x y, extractTree 1 methodTree.source "python" methodTree = .ok x ∧
      extractTree 2 methodTree.source "python" methodTree = .ok y ∧
        (x.nested.map (·.level), x.internal.length) = ([0], 1) ∧
          (y.nested.map (·.level), y.internal.length) = ([0, 1], 2) ∧ x.IsPartOf y) ∧
    ∃ e, extractTree 1 [] "python" methodTree = .error e ∧
      extractTree 2 [] "python" methodTree = .error e := by
  have hover : methodTree.IsOver methodTree.source := ⟨⟨0, by decide +kernel⟩, rfl⟩
  have hother : ¬ methodTree.IsOver [] := fun h => absurd h.source_eq (by decide +kernel)
  refine ⟨?_, (extractTree_of_le (by decide) _ _ _).2 hother⟩
  obtain ⟨x, y, hx, hy, hpart⟩ := (extractTree_of_le (by decide : 1 ≤ 2) _ "python" _).1 hover
  have hone : (extractTree 1 methodTree.source "python" methodTree).toOption.map
      (fun z => (z.nested.map (·.level), z.internal.length)) = some ([0], 1) := by decide +kernel
  have htwo : (extractTree 2 methodTree.source "python" methodTree).toOption.map
      (fun z => (z.nested.map (·.level), z.internal.length)) = some ([0, 1], 2) := by
    decide +kernel
  rw [hx] at hone
  rw [hy] at htwo
  exact ⟨x, y, hx, hy, Option.some.inj hone, Option.some.inj htwo, hpart⟩

end Outline

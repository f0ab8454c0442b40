import Outline.Extraction.Tree
import Outline.Proofs.Except

/-!
# Where the structures of a tree come from

Three walks read a tree.  The first looks for declarations with a stack.  What it meets is told by a
recursion over the children of a node (`declarationsOnStack_eq`), which ends only because children
stand behind their parents in the arena; `SyntaxTree.inductionOnChildren` is the induction that goes
with it.  The other two go down a stated number of steps, so they are followed by induction on that
number.

What each walk finds is the structure of a node that exists, because a position without a node has
no lines (`lt_size_of_structureOf?`).  Parents are copied on the way down: the walk for members
hands every member on to what lies below it and counts a level for each, and the walk for
statements hands on the function it began at (`parent_of_mem_statementsBelow`).

* `declarations`: what the walk for declarations meets below a node, with
  `declarations_of_not_listed` and `declarations_of_listed` for its two branches.
* `IsFamily`: what the walk for members keeps up, `isFamily_nestedBelow`.
* `mem_topLevel`, `mem_nested`, `mem_internal`: the tiers.
* `isFromTree_of_extractTree`: the three tiers of a tree that can be used.
-/

namespace Outline

/-- What passes from the children of every node on to the node holds of all nodes. -/
theorem SyntaxTree.inductionOnChildren (t : SyntaxTree) {motive : Nat → Prop}
    (step : ∀ id, (∀ c ∈ t.children id, motive c) → motive id) (id : Nat) : motive id :=
  step id fun c _ => inductionOnChildren t step c
termination_by t.size - id
decreasing_by
  have := lt_of_mem_children (t := t) (p := id) (c := c) (by assumption)
  omega

theorem SyntaxTree.lt_size_of_root? {t : SyntaxTree} {root : Nat} (h : t.root? = some root) :
    root < t.size := by
  rw [root?] at h
  split at h
  · exact absurd h (by simp)
  · have hroot := Option.some.inj h
    omega

theorem SyntaxTree.lt_size_of_lineSpan? {t : SyntaxTree} {id : Nat} {span : Nat × Nat}
    (h : t.lineSpan? id = some span) : id < t.size := by
  rw [lineSpan?, Option.map_eq_some_iff] at h
  obtain ⟨n, hn, -⟩ := h
  exact (Array.getElem?_eq_some_iff.mp hn).1

/-- A node that exists has lines. -/
theorem SyntaxTree.exists_lineSpan?_of_lt {t : SyntaxTree} {id : Nat} (h : id < t.size) :
    ∃ span, t.lineSpan? id = some span := by
  rw [lineSpan?, get?, Array.getElem?_eq_getElem h]
  exact ⟨_, rfl⟩

namespace TreeExtraction

variable {r : Rules} {t : SyntaxTree} {language : String}

/-! ## Single nodes -/

/-- A structure is that of its node, with its lines and its text, and has the kind it was looked
for. -/
theorem exists_span_of_structureOf? {node : Nat} {kind : Kind} {s : Structure}
    (h : structureOf? r t language node kind = some s) :
    ∃ span, t.lineSpan? node = some span ∧ (t.text node).isBlank = false ∧ s.node = some node ∧
      s.kind = kind ∧ s.content = String.ofList (t.text node) ∧
      s.location = .clamped span.1 span.2 := by
  obtain ⟨⟨start, stop⟩, hspan, h⟩ := Option.bind_eq_some_iff.mp h
  simp only at h
  split at h
  · exact absurd h (by simp)
  · rename_i hblank
    rw [← Option.some.inj h]
    exact ⟨(start, stop), hspan, Bool.eq_false_iff.mpr hblank, rfl, rfl, rfl, rfl⟩

theorem node_of_structureOf? {node : Nat} {kind : Kind} {s : Structure}
    (h : structureOf? r t language node kind = some s) : s.node = some node ∧ s.kind = kind := by
  obtain ⟨span, -, -, hnode, hkind, -⟩ := exists_span_of_structureOf? h
  exact ⟨hnode, hkind⟩

theorem isBlank_content_of_structureOf? {node : Nat} {kind : Kind} {s : Structure}
    (h : structureOf? r t language node kind = some s) : isBlank s.content = false := by
  obtain ⟨span, -, hblank, -, -, hcontent, -⟩ := exists_span_of_structureOf? h
  rw [hcontent, isBlank, String.toList_ofList]
  exact hblank

theorem lt_size_of_structureOf? {node : Nat} {kind : Kind} {s : Structure}
    (h : structureOf? r t language node kind = some s) : node < t.size := by
  obtain ⟨span, hspan, -⟩ := exists_span_of_structureOf? h
  exact SyntaxTree.lt_size_of_lineSpan? hspan

/-- The node of a structure exists. -/
theorem exists_node_of_structureOf? {node : Nat} {kind : Kind} {s : Structure}
    (h : structureOf? r t language node kind = some s) : ∃ n, s.node = some n ∧ n < t.size :=
  ⟨node, (node_of_structureOf? h).1, lt_size_of_structureOf? h⟩

/-- A statement is that of its node, which is of a listed type, with its lines and its text. -/
theorem exists_span_of_statementOf? {parent : Ref} {node : Nat} {s : InternalStructure}
    (h : statementOf? r t parent node = some s) :
    ∃ span, (∃ kind importance, r.internalKind (t.kind node) = some (kind, importance)) ∧
      t.lineSpan? node = some span ∧ (t.text node).isBlank = false ∧ s.parent = parent ∧
      s.content = String.ofList (t.text node) ∧ s.location = .clamped span.1 span.2 := by
  obtain ⟨⟨kind, importance⟩, hlisted, h⟩ := Option.bind_eq_some_iff.mp h
  obtain ⟨⟨start, stop⟩, hspan, h⟩ := Option.bind_eq_some_iff.mp h
  simp only at h
  split at h
  · exact absurd h (by simp)
  · rename_i hblank
    rw [← Option.some.inj h]
    exact ⟨(start, stop), ⟨kind, importance, hlisted⟩, hspan, Bool.eq_false_iff.mpr hblank, rfl,
      rfl, rfl⟩

theorem parent_of_statementOf? {parent : Ref} {node : Nat} {s : InternalStructure}
    (h : statementOf? r t parent node = some s) : s.parent = parent := by
  obtain ⟨span, -, -, -, hparent, -⟩ := exists_span_of_statementOf? h
  exact hparent

/-! ## Top level -/

/-- The declarations at and below a node, in reading order. -/
def declarations (r : Rules) (t : SyntaxTree) (language : String) (id : Nat) : List Structure :=
  let below := (t.children id).attach.flatMap fun ⟨c, _⟩ => declarations r t language c
  match listedKind? r t id with
  | none => below
  | some listed =>
    let kind := r.refine t id listed
    (structureOf? r t language id kind).toList ++ (if kind = .exportDecl then below else [])
termination_by t.size - id
decreasing_by
  have := SyntaxTree.lt_of_mem_children (t := t) (p := id) (c := c) (by assumption)
  omega

theorem flatMap_attach_declarations (id : Nat) :
    ((t.children id).attach.flatMap fun ⟨c, _⟩ => declarations r t language c) =
      (t.children id).flatMap (declarations r t language) := by
  rw [List.flatMap_subtype (g := declarations r t language) (fun _ _ => rfl),
    List.unattach_attach]

theorem declarations_of_not_listed {id : Nat} (h : listedKind? r t id = none) :
    declarations r t language id = (t.children id).flatMap (declarations r t language) := by
  rw [declarations, h, flatMap_attach_declarations]

theorem declarations_of_listed {id : Nat} {listed : Kind} (h : listedKind? r t id = some listed) :
    declarations r t language id =
      (structureOf? r t language id (r.refine t id listed)).toList ++
        if r.refine t id listed = .exportDecl then
          (t.children id).flatMap (declarations r t language)
        else [] := by
  rw [declarations, h, flatMap_attach_declarations]

/-- What is met from a stack are the declarations at and below its nodes, one node after the
other. -/
theorem declarationsOnStack_eq (r : Rules) (t : SyntaxTree) (language : String)
    (stack : List Nat) :
    declarationsOnStack r t language stack = stack.flatMap (declarations r t language) := by
  fun_induction declarationsOnStack r t language stack with
  | case1 => rfl
  | case2 id stack hlisted ih =>
    rw [ih, SyntaxTree.stackChildren_eq, List.flatMap_append, List.flatMap_cons,
      declarations_of_not_listed hlisted]
  | case3 id stack listed hlisted kind ihbelow ih =>
    rw [ihbelow, ih, SyntaxTree.stackChildren_eq, List.flatMap_append, List.flatMap_cons,
      declarations_of_listed hlisted, List.append_assoc]
    split
    · rfl
    · rfl

/-- The top level by the recursion over the tree. -/
theorem topLevel_eq (r : Rules) (t : SyntaxTree) (language : String) : topLevel r t language =
    if r.wholeFile then (wholeText? t.source language t.root?).toList
    else (t.root?.map (declarations r t language)).getD [] := by
  rw [topLevel]
  simp only [declarationsOnStack_eq, List.flatMap_singleton]

/-- A declaration is the structure of some node that the rules list. -/
theorem exists_structureOf?_of_mem_declarations {id : Nat} {s : Structure} :
    s ∈ declarations r t language id → ∃ n listed, listedKind? r t n = some listed ∧
      structureOf? r t language n (r.refine t n listed) = some s := by
  induction id using t.inductionOnChildren with
  | step id ih =>
    -- both branches that go on below the node end in the same way
    have hbelow : s ∈ (t.children id).flatMap (declarations r t language) →
        ∃ n listed, listedKind? r t n = some listed ∧
          structureOf? r t language n (r.refine t n listed) = some s := by
      intro h
      obtain ⟨c, hc, hs⟩ := List.mem_flatMap.mp h
      exact ih c hc hs
    intro h
    cases hlisted : listedKind? r t id with
    | none =>
      rw [declarations_of_not_listed hlisted] at h
      exact hbelow h
    | some listed =>
      rw [declarations_of_listed hlisted] at h
      rcases List.mem_append.mp h with h | h
      · exact ⟨id, listed, hlisted, Option.mem_toList.mp h⟩
      · split at h
        · exact hbelow h
        · exact absurd h List.not_mem_nil

/-- An entry of the top level is the document that a whole file makes, or was found by the walk from
the first node. -/
theorem mem_topLevel {s : Structure} (h : s ∈ topLevel r t language) :
    (r.wholeFile = true ∧ s.kind = .document ∧ s.node = t.root?) ∨
      ∃ root, r.wholeFile = false ∧ t.root? = some root ∧ s ∈ declarations r t language root := by
  rw [topLevel_eq] at h
  split at h
  · rename_i hwhole
    rw [Option.mem_toList, wholeText?] at h
    split at h
    · exact absurd h (by simp)
    · rw [← Option.some.inj h]
      exact Or.inl ⟨hwhole, rfl, rfl⟩
  · rename_i hcode
    cases hroot : t.root? with
    | none =>
      rw [hroot] at h
      exact absurd h List.not_mem_nil
    | some root =>
      rw [hroot] at h
      exact Or.inr ⟨root, Bool.eq_false_iff.mpr hcode, rfl, h⟩

/-- An entry of the top level has a node, if the tree has any. -/
theorem exists_node_of_mem_topLevel {root : Nat} (hroot : t.root? = some root) {s : Structure}
    (h : s ∈ topLevel r t language) : ∃ n, s.node = some n ∧ n < t.size := by
  rcases mem_topLevel h with ⟨-, -, hnode⟩ | ⟨first, -, -, hs⟩
  · exact ⟨root, hnode.trans hroot, SyntaxTree.lt_size_of_root? hroot⟩
  · obtain ⟨n, listed, -, hs⟩ := exists_structureOf?_of_mem_declarations hs
    exact exists_node_of_structureOf? hs

/-! ## Nested -/

/-- A list of members that exist in the tree, closed under parents: each of them belongs to the
given parent, on the given level, or to another one of the list, one level deeper. -/
def IsFamily (t : SyntaxTree) (parent : Ref) (level : Nat) (members : List NestedStructure) :
    Prop :=
  ∀ s ∈ members, (∃ n, s.node = some n ∧ n < t.size) ∧
    (s.level = level ∧ s.parent = parent ∨ ∃ p ∈ members, s.level = p.level + 1 ∧ s.parent = p.ref)

theorem isFamily_flatMap {α : Type} {parent : Ref} {level : Nat} {as : List α}
    {f : α → List NestedStructure} (h : ∀ a ∈ as, IsFamily t parent level (f a)) :
    IsFamily t parent level (as.flatMap f) := by
  intro s hs
  obtain ⟨a, ha, hs⟩ := List.mem_flatMap.mp hs
  obtain ⟨hnode, hparent⟩ := h a ha s hs
  refine ⟨hnode, hparent.imp_right ?_⟩
  rintro ⟨p, hp, hlevel, href⟩
  exact ⟨p, List.mem_flatMap.mpr ⟨a, ha, hp⟩, hlevel, href⟩

/-- A member with its own family is part of the family of its parent. -/
theorem isFamily_cons {parent : Ref} {level : Nat} {found : Structure}
    {members : List NestedStructure} (hnode : ∃ n, found.node = some n ∧ n < t.size)
    (h : IsFamily t found.ref (level + 1) members) :
    IsFamily t parent level ({ found with parent, level } :: members) := by
  intro s hs
  rcases List.mem_cons.mp hs with rfl | hs
  · exact ⟨hnode, Or.inl ⟨rfl, rfl⟩⟩
  · obtain ⟨hexists, hparent⟩ := h s hs
    refine ⟨hexists, Or.inr ?_⟩
    rcases hparent with ⟨hlevel, href⟩ | ⟨p, hp, hlevel, href⟩
    · exact ⟨_, List.mem_cons_self, hlevel, href⟩
    · exact ⟨p, List.mem_cons_of_mem _ hp, hlevel, href⟩

theorem isFamily_nestedBelow : ∀ (depth node : Nat) (parent : Ref) (level : Nat),
    IsFamily t parent level (nestedBelow r t language depth node parent level)
  | 0, node, parent, level => fun _ hs => absurd hs List.not_mem_nil
  | depth + 1, node, parent, level => by
    rw [nestedBelow]
    refine isFamily_flatMap fun child _ => ?_
    split
    · exact isFamily_nestedBelow depth child parent level
    · rename_i found hfound
      obtain ⟨kind, -, hstructure⟩ := Option.bind_eq_some_iff.mp hfound
      exact isFamily_cons (exists_node_of_structureOf? hstructure)
        (isFamily_nestedBelow depth child found.ref (level + 1))

/-- A nested structure exists in the tree, and belongs to a container on level nought, to another
nested structure on any deeper level. -/
theorem mem_nested {maxDepth : Nat} {top : List Structure} {s : NestedStructure}
    (h : s ∈ nested r t language maxDepth top) :
    (∃ n, s.node = some n ∧ n < t.size) ∧
      ((s.level = 0 ∧ ∃ p ∈ top, s.parent = p.ref) ∨
        ∃ p ∈ nested r t language maxDepth top, s.level = p.level + 1 ∧ s.parent = p.ref) := by
  rw [nested] at h ⊢
  obtain ⟨container, hcontainer, hs⟩ := List.mem_flatMap.mp h
  have htop : container ∈ top := (List.mem_filter.mp hcontainer).1
  cases hnode : container.node with
  | none =>
    rw [hnode] at hs
    exact absurd hs List.not_mem_nil
  | some node =>
    rw [hnode] at hs
    obtain ⟨hexists, hparent⟩ := isFamily_nestedBelow maxDepth node container.ref 0 s hs
    refine ⟨hexists, hparent.imp ?_ ?_⟩
    · rintro ⟨hlevel, href⟩
      exact ⟨hlevel, container, htop, href⟩
    · rintro ⟨p, hp, hlevel, href⟩
      refine ⟨p, List.mem_flatMap.mpr ⟨container, hcontainer, ?_⟩, hlevel, href⟩
      rw [hnode]
      exact hp

/-! ## Internal -/

theorem parent_of_mem_statementsBelow {parent : Ref} : ∀ {depth node : Nat}
    {s : InternalStructure}, s ∈ statementsBelow r t parent depth node → s.parent = parent
  | 0, node, s, h => absurd h List.not_mem_nil
  | depth + 1, node, s, h => by
    rw [statementsBelow] at h
    obtain ⟨child, -, h⟩ := List.mem_flatMap.mp h
    split at h
    · split at h
      · exact absurd h List.not_mem_nil
      · rcases List.mem_append.mp h with h | h
        · exact parent_of_statementOf? (Option.mem_toList.mp h)
        · exact parent_of_mem_statementsBelow h
    · exact parent_of_mem_statementsBelow h

/-- A statement belongs to a function. -/
theorem mem_internal {maxDepth : Nat} {top : List Structure} {nested : List NestedStructure}
    {s : InternalStructure} (h : s ∈ internal r t maxDepth top nested) :
    s.parent ∈ top.map Structure.ref ++ nested.map NestedStructure.ref ∧
      s.parent.kind.isFunctionLike = true := by
  rw [internal] at h
  obtain ⟨p, hp, hs⟩ := List.mem_flatMap.mp h
  have hparent : s.parent = p := by
    split at hs
    · exact absurd hs List.not_mem_nil
    · exact parent_of_mem_statementsBelow hs
  rw [hparent]
  exact List.mem_filter.mp hp

end TreeExtraction

/-! ## The three tiers together -/

/-- An extraction whose tiers are those of a tree, each walk beginning at what the one before it
found. -/
structure Extraction.IsFromTree (maxDepth : Nat) (language : String) (t : SyntaxTree)
    (x : Extraction) : Prop where
  language_eq : x.language = language
  strategy_eq : x.strategy = .tree
  topLevel_eq : x.topLevel = TreeExtraction.topLevel (rulesOf language) t language
  nested_eq : x.nested = TreeExtraction.nested (rulesOf language) t language maxDepth x.topLevel
  internal_eq :
    x.internal = TreeExtraction.internal (rulesOf language) t maxDepth x.topLevel x.nested

/-- A tree can be used for a text. -/
structure SyntaxTree.IsOver (content : Text) (t : SyntaxTree) : Prop where
  exists_root : ∃ root, t.root? = some root
  source_eq : t.source = content

theorem checkTree_eq_ok_iff {content : Text} {t : SyntaxTree} {u : Unit} :
    checkTree content t = .ok u ↔ t.IsOver content := by
  rw [checkTree]
  cases hroot : t.root? with
  | none =>
    refine iff_of_false (by simp) fun h => ?_
    obtain ⟨root, h⟩ := h.exists_root
    rw [hroot] at h
    exact absurd h (by simp)
  | some root =>
    by_cases hsource : t.source = content
    · exact iff_of_true (by simp [hsource]) ⟨⟨root, hroot⟩, hsource⟩
    · exact iff_of_false (by simp [hsource]) fun h => hsource h.source_eq

theorem isFromTree_of_extractTree {maxDepth : Nat} {content : Text} {language : String}
    {t : SyntaxTree} {x : Extraction} (h : extractTree maxDepth content language t = .ok x) :
    t.IsOver content ∧ x.IsFromTree maxDepth language t := by
  obtain ⟨u, hcheck, h⟩ := bind_eq_ok_iff.mp h
  -- the rules are a table; nothing should look into it
  generalize hr : rulesOf language = r at h
  obtain rfl := Except.ok.inj h
  refine ⟨checkTree_eq_ok_iff.mp hcheck, ?_⟩
  constructor
  · rfl
  · rfl
  · rw [hr]
  · rw [hr]
  · rw [hr]

theorem exists_extractTree_eq_ok {content : Text} {t : SyntaxTree} (h : t.IsOver content)
    (maxDepth : Nat) (language : String) :
    ∃ x, extractTree maxDepth content language t = .ok x :=
  ⟨_, bind_eq_ok_iff.mpr ⟨(), checkTree_eq_ok_iff.mpr h, rfl⟩⟩

end Outline

import Outline.Proofs.Extraction.Members

/-!
# The statements of a function

The walk for statements starts at a function and goes down a stated number of steps, but never into
another function: what is written there belongs to that one.  So a node belongs to a function if
nothing on the way down to it, the node itself included, is a function again (`IsCredited`).

Both ends of the walk are about functions, and they are told in different ways.  It starts at the
structures that are functions after their kinds were corrected, and it ends at the nodes whose types
are those of functions in one of the tables.  If the two ever disagreed on a function inside another
one, the outer walk would go through it and read its statements a second time.  They do disagree:
the declaration of a variable is a function if its value is one, and the tables do not say so.  But
such a declaration is found on the top level only, and there nothing lies below a container
(`not_isAncestor_of_isContainer`), which every function is; a function that does lie below another
one is a member, and of members the tables know it (`isBoundary_of_isAncestor`).

* `statementNodes`: the nodes that the walk reads, whosever statements they are.
* `mem_statementNodes_iff`: they are those that belong to the function.
* `internal_areStatements`: this for all functions of a tree, and that no node belongs to two.
-/

namespace Outline

theorem SyntaxTree.IsAncestor.trans {t : SyntaxTree} {a b x : Nat} (hab : t.IsAncestor a b)
    (hbx : t.IsAncestor b x) : t.IsAncestor a x := by
  obtain ⟨m, hab⟩ := hab
  obtain ⟨n, hbx⟩ := hbx
  exact ⟨m + 1 + n, hab.trans hbx⟩

/-- Of a list that is put together from what belongs to each of several owners, what belongs to
one of them is a part. -/
theorem filter_flatMap_eq {α β : Type} [DecidableEq α] {owner : β → α} {f : α → List β} {p : α} :
    ∀ {owners : List α}, owners.Nodup → p ∈ owners → (∀ q ∈ owners, ∀ s ∈ f q, owner s = q) →
      (owners.flatMap f).filter (fun s => owner s = p) = f p := by
  intro owners hnodup hp howner
  obtain ⟨before, after, rfl⟩ := List.append_of_mem hp
  rw [List.nodup_append, List.nodup_cons] at hnodup
  obtain ⟨-, ⟨hafter, -⟩, hbefore⟩ := hnodup
  have hother : ∀ qs : List α, (∀ q ∈ qs, q ≠ p) → (∀ q ∈ qs, q ∈ before ++ p :: after) →
      (qs.flatMap f).filter (fun s => owner s = p) = [] := by
    intro qs hne hsub
    refine List.filter_eq_nil_iff.mpr fun s hs => ?_
    obtain ⟨q, hq, hs⟩ := List.mem_flatMap.mp hs
    rw [howner q (hsub q hq) s hs]
    simpa using hne q hq
  have hown : (f p).filter (fun s => owner s = p) = f p :=
    List.filter_eq_self.mpr fun s hs => by simpa using howner p hp s hs
  rw [List.flatMap_append, List.flatMap_cons, List.filter_append, List.filter_append, hown,
    hother before (fun q hq => hbefore q hq p List.mem_cons_self)
      fun q hq => List.mem_append_left _ hq,
    hother after (fun q hq heq => hafter (heq ▸ hq))
      fun q hq => List.mem_append_right _ (List.mem_cons_of_mem p hq)]
  rw [List.nil_append, List.append_nil]

namespace TreeExtraction

variable {r : Rules} {t : SyntaxTree} {language : String}

/-! ## Single nodes -/

/-- A named node of a type that one of the tables lists as a function. -/
def IsBoundary (r : Rules) (t : SyntaxTree) (id : Nat) : Prop :=
  t.isNamed id = true ∧ ∃ kind, kind.isFunctionLike = true ∧
    (r.nestedKind (t.kind id) = some kind ∨ r.topLevelKind (t.kind id) = some kind)

/-- A named node whose type is in the table for statements, and that has some text. -/
structure IsStatementNode (r : Rules) (t : SyntaxTree) (id : Nat) : Prop where
  named : t.isNamed id = true
  listed : ∃ kind importance, r.internalKind (t.kind id) = some (kind, importance)
  filled : (t.text id).isBlank = false

theorem isBoundary_iff {id : Nat} : IsBoundary r t id ↔
    t.isNamed id = true ∧ isFunctionBoundary r (t.kind id) = true := by
  rw [isFunctionBoundary, Bool.or_eq_true, Option.any_eq_true, Option.any_eq_true, ← exists_or]
  refine and_congr_right fun _ => exists_congr fun kind => ?_
  rw [← or_and_right, and_comm]

theorem isStatementNode_iff {id : Nat} : IsStatementNode r t id ↔ t.isNamed id = true ∧
    (r.internalKind (t.kind id)).isSome = true ∧ (t.text id).isBlank = false := by
  rw [Option.isSome_iff_exists, Prod.exists]
  exact ⟨fun h => ⟨h.named, h.listed, h.filled⟩, fun ⟨hnamed, hlisted, hfilled⟩ =>
    ⟨hnamed, hlisted, hfilled⟩⟩

instance (r : Rules) (t : SyntaxTree) (id : Nat) : Decidable (IsBoundary r t id) :=
  decidable_of_iff _ isBoundary_iff.symm

instance (r : Rules) (t : SyntaxTree) (id : Nat) : Decidable (IsStatementNode r t id) :=
  decidable_of_iff _ isStatementNode_iff.symm

/-- A statement is found at a named node exactly when the node is one of a statement; whose
statement does not matter. -/
theorem exists_statementOf?_iff (p : Ref) {id : Nat} (hnamed : t.isNamed id = true) :
    (∃ s, statementOf? r t p id = some s) ↔ IsStatementNode r t id := by
  constructor
  · rintro ⟨s, hs⟩
    obtain ⟨-, hlisted, -, hfilled, -⟩ := exists_span_of_statementOf? hs
    exact ⟨hnamed, hlisted, hfilled⟩
  · rintro ⟨-, ⟨kind, importance, hlisted⟩, hfilled⟩
    obtain ⟨⟨start, stop⟩, hspan⟩ :=
      SyntaxTree.exists_lineSpan?_of_lt (SyntaxTree.lt_size_of_isNamed hnamed)
    simp only [statementOf?, hlisted, hspan, hfilled, Option.bind_eq_bind, Option.bind_some,
      Bool.false_eq_true, if_false]
    exact ⟨_, rfl⟩

/-! ## The walk for statements -/

/-- The nodes at which the walk finds statements. -/
def statementNodes (r : Rules) (t : SyntaxTree) : (depth : Nat) → (node : Nat) → List Nat
  | 0, _ => []
  | depth + 1, node =>
    (t.children node).flatMap fun child =>
      if IsBoundary r t child then []
      else if IsStatementNode r t child then child :: statementNodes r t depth child
      else statementNodes r t depth child

/-- The statements are those of the nodes, one by one. -/
theorem map_some_statementsBelow (p : Ref) : ∀ depth node : Nat,
    (statementsBelow r t p depth node).map some =
      (statementNodes r t depth node).map (statementOf? r t p)
  | 0, node => rfl
  | depth + 1, node => by
    rw [statementsBelow, statementNodes, List.map_flatMap, List.map_flatMap]
    refine List.flatMap_congr fun child _ => ?_
    have hbelow := map_some_statementsBelow p depth child
    by_cases hnamed : t.isNamed child = true
    · rw [if_pos hnamed]
      by_cases hboundary : isFunctionBoundary r (t.kind child) = true
      · rw [if_pos hboundary, if_pos (isBoundary_iff.mpr ⟨hnamed, hboundary⟩)]
        rfl
      · rw [if_neg hboundary, if_neg fun h => hboundary (isBoundary_iff.mp h).2, List.map_append,
          hbelow]
        have hfound := exists_statementOf?_iff (r := r) p hnamed
        cases hs : statementOf? r t p child with
        | none =>
          rw [if_neg fun h => by simpa [hs] using hfound.mpr h]
          rfl
        | some s =>
          rw [if_pos (hfound.mp ⟨s, hs⟩), List.map_cons, hs]
          rfl
    · rw [if_neg hnamed, if_neg fun h => hnamed h.1, if_neg fun h => hnamed h.named]
      exact hbelow

/-- They stand in reading order. -/
theorem statementNodes_sublist : ∀ depth node : Nat,
    (statementNodes r t depth node).Sublist ((t.children node).flatMap t.subtree)
  | 0, node => List.nil_sublist _
  | depth + 1, node => by
    rw [statementNodes]
    refine List.Sublist.flatMap_right _ fun child _ => ?_
    have hbelow := statementNodes_sublist depth child
    rw [SyntaxTree.subtree_eq]
    split
    · exact List.nil_sublist _
    · split
      · exact hbelow.cons_cons child
      · exact hbelow.cons child

theorem mem_statementNodes_succ_iff {depth node id : Nat} :
    id ∈ statementNodes r t (depth + 1) node ↔ ∃ c ∈ t.children node, ¬ IsBoundary r t c ∧
      (id = c ∧ IsStatementNode r t c ∨ id ∈ statementNodes r t depth c) := by
  rw [statementNodes, List.mem_flatMap]
  refine exists_congr fun c => and_congr_right fun _ => ?_
  split
  · rename_i hboundary
    simp [hboundary]
  · rename_i hboundary
    split
    · rename_i hstatement
      simp [hboundary, hstatement]
    · rename_i hstatement
      simp [hboundary, hstatement]

/-! ## What belongs to a function -/

/-- A node with a statement, no more than `depth` steps below a function, and with no function on
the way down to it. -/
structure IsCredited (r : Rules) (t : SyntaxTree) (depth top id : Nat) : Prop where
  within : t.IsWithin depth top id
  statement : IsStatementNode r t id
  inside : ∀ a, t.IsAncestor top a → a = id ∨ t.IsAncestor a id → ¬ IsBoundary r t a

/-- The first step down leads to the node itself or to what lies above it, and not to a function. -/
theorem isCredited_succ_iff (h : t.IsLinked) {depth top id : Nat} :
    IsCredited r t (depth + 1) top id ↔ ∃ c ∈ t.children top, ¬ IsBoundary r t c ∧
      (id = c ∧ IsStatementNode r t c ∨ IsCredited r t depth c id) := by
  have hchild : ∀ {c}, c ∈ t.children top → t.IsAncestor top c := fun hc => ⟨0, .child .self hc⟩
  constructor
  · rintro ⟨hwithin, hstatement, hinside⟩
    obtain ⟨c, hc, rfl | hwithin⟩ := SyntaxTree.isWithin_succ_iff.mp hwithin
    · exact ⟨id, hc, hinside id (hchild hc) (Or.inl rfl), Or.inl ⟨rfl, hstatement⟩⟩
    · exact ⟨c, hc, hinside c (hchild hc) (Or.inr hwithin.isAncestor), Or.inr
        ⟨hwithin, hstatement, fun a ha => hinside a ((hchild hc).trans ha)⟩⟩
  · rintro ⟨c, hc, hboundary, ⟨rfl, hstatement⟩ | ⟨hwithin, hstatement, hinside⟩⟩
    · refine ⟨SyntaxTree.isWithin_succ_iff.mpr ⟨id, hc, Or.inl rfl⟩, hstatement, ?_⟩
      rintro a ha (rfl | haid)
      · exact hboundary
      · -- nothing lies between a node and its child
        have hle := SyntaxTree.le_of_mem_subtree ((h.isAncestor_child_iff hc).mp haid)
        have hlt := ha.lt
        omega
    · refine ⟨SyntaxTree.isWithin_succ_iff.mpr ⟨c, hc, Or.inr hwithin⟩, hstatement, ?_⟩
      intro a ha haid
      obtain ⟨d, hd, had⟩ := SyntaxTree.isAncestor_iff.mp ha
      have hida : id ∈ t.subtree a := by
        rcases haid with rfl | haid
        · exact SyntaxTree.mem_subtree_iff.mpr ⟨0, .self⟩
        · exact haid.mem_subtree
      -- what lies above the node lies below the same child
      obtain rfl : c = d := h.eq_of_mem_subtree hc hd hwithin.isAncestor.mem_subtree
        (SyntaxTree.mem_subtree_trans had hida)
      rcases SyntaxTree.eq_or_isAncestor_of_mem_subtree had with rfl | hca
      · exact hboundary
      · exact hinside a hca haid

/-- The walk finds statements at the nodes that belong to the function. -/
theorem mem_statementNodes_iff (h : t.IsLinked) {id : Nat} : ∀ depth node : Nat,
    id ∈ statementNodes r t depth node ↔ IsCredited r t depth node id
  | 0, node => iff_of_false List.not_mem_nil fun hid => SyntaxTree.not_isWithin_zero hid.within
  | depth + 1, node => by
    rw [mem_statementNodes_succ_iff, isCredited_succ_iff h]
    simp only [mem_statementNodes_iff h depth]

/-! ## Functions below functions -/

theorem isContainer_of_isFunctionLike {kind : Kind} (h : kind.isFunctionLike = true) :
    kind.isContainer = true := by
  cases kind <;> simp_all [Kind.isFunctionLike, Kind.isContainer]

theorem isFunctionLike_memberKind (parent kind : Kind) :
    (memberKind parent kind).isFunctionLike = kind.isFunctionLike := by
  cases kind <;> cases h : parent.ownsMethods <;> simp [memberKind, h, Kind.isFunctionLike]

/-- On the top level nothing lies below a container. -/
theorem not_isAncestor_of_isContainer (h : t.IsLinked) {c s : Structure}
    (hc : c ∈ topLevel r t language) (hs : s ∈ topLevel r t language)
    (hcontainer : c.kind.isContainer = true) {a b : Nat} (ha : c.node = some a)
    (hb : s.node = some b) : ¬ t.IsAncestor a b := by
  rcases mem_topLevel hc with ⟨-, hkind, -⟩ | ⟨root, hcode, hroot, hc⟩
  · -- a document is no container
    rw [hkind] at hcontainer
    exact absurd hcontainer (by decide)
  · rcases mem_topLevel hs with ⟨hwhole, -, -⟩ | ⟨other, -, hother, hs⟩
    · exact absurd (hcode.symm.trans hwhole) Bool.false_ne_true
    · obtain rfl : root = other := Option.some.inj (hroot.symm.trans hother)
      intro hab
      have hbelow := ((mem_nodes_declarations_iff h).mp (List.mem_map.mpr ⟨c, hc, ha⟩)).1
      have hopen := ((mem_nodes_declarations_iff h).mp (List.mem_map.mpr ⟨s, hs, hb⟩)).2.2
      obtain ⟨n, listed, hlisted, hstructure⟩ := exists_structureOf?_of_mem_declarations hc
      obtain ⟨hn, hkind⟩ := node_of_structureOf? hstructure
      obtain rfl : a = n := Option.some.inj (ha.symm.trans hn)
      -- the walk went on behind it, so it is an export
      rw [hkind, hopen a hbelow hab listed hlisted] at hcontainer
      exact absurd hcontainer (by decide)

/-- A nested structure was found below a container. -/
theorem exists_container_of_mem_nested {maxDepth : Nat} {top : List Structure}
    {s : NestedStructure} (hs : s ∈ nested r t language maxDepth top) :
    ∃ c ∈ top, c.kind.isContainer = true ∧ ∃ node, c.node = some node ∧
      s ∈ nestedBelow r t language maxDepth node c.ref 0 := by
  rw [nested] at hs
  obtain ⟨c, hc, hs⟩ := List.mem_flatMap.mp hs
  obtain ⟨htop, hcontainer⟩ := List.mem_filter.mp hc
  cases hnode : c.node with
  | none =>
    rw [hnode] at hs
    exact absurd hs List.not_mem_nil
  | some node =>
    rw [hnode] at hs
    exact ⟨c, htop, hcontainer, node, hnode, hs⟩

/-- A member that is a function has the type of one. -/
theorem isBoundary_of_mem_nestedBelow (h : t.IsLinked) {depth top level b : Nat} {parent : Ref}
    {s : NestedStructure}
    (hs : s ∈ nestedBelow (rulesOf language) t language depth top parent level)
    (hb : s.node = some b) (hfunction : s.kind.isFunctionLike = true) :
    IsBoundary (rulesOf language) t b := by
  obtain ⟨id, hplaced⟩ := isPlaced_of_mem_nestedBelow h depth top parent level hs
  obtain rfl : b = id := Option.some.inj (hb.symm.trans hplaced.node_eq)
  obtain ⟨listed, hlisted, hkind⟩ := hplaced.kind_eq
  rw [← memberKind_eq] at hkind
  rw [hkind, isFunctionLike_memberKind] at hfunction
  have hmember : IsMemberNode (rulesOf language) t b :=
    ((mem_nodes_nestedBelow_iff depth top parent level).mp (List.mem_map.mpr ⟨s, hs, hb⟩)).1
  exact ⟨hmember.named, listed, isFunctionLike_of_refine hlisted hfunction, Or.inl hlisted⟩

/-- The named structures of a tree, and where they come from. -/
theorem mem_named_cases {maxDepth : Nat} {x : Extraction} (hx : x.IsFromTree maxDepth language t)
    {p : Ref} (hp : p ∈ x.named) :
    (∃ s ∈ topLevel (rulesOf language) t language, p = s.ref) ∨
      ∃ s ∈ nested (rulesOf language) t language maxDepth (topLevel (rulesOf language) t language),
        p = s.ref := by
  rw [Extraction.named, hx.nested_eq, hx.topLevel_eq, List.mem_append, List.mem_map,
    List.mem_map] at hp
  simpa only [eq_comm] using hp

/-- A walk that comes down to another function ends there. -/
theorem isBoundary_of_isAncestor (h : t.IsLinked) {maxDepth : Nat} {x : Extraction}
    (hx : x.IsFromTree maxDepth language t) {p q : Ref} (hp : p ∈ x.named) (hq : q ∈ x.named)
    (hpfunction : p.kind.isFunctionLike = true) (hqfunction : q.kind.isFunctionLike = true)
    {a b : Nat} (ha : p.node = some a) (hb : q.node = some b) (hab : t.IsAncestor a b) :
    IsBoundary (rulesOf language) t b := by
  rcases mem_named_cases hx hq with ⟨s, hs, rfl⟩ | ⟨s, hs, rfl⟩
  · -- on the top level it would lie below a container
    rcases mem_named_cases hx hp with ⟨o, ho, rfl⟩ | ⟨o, ho, rfl⟩
    · exact absurd hab (not_isAncestor_of_isContainer h ho hs
        (isContainer_of_isFunctionLike hpfunction) ha hb)
    · obtain ⟨c, hc, hcontainer, top, htop, ho⟩ := exists_container_of_mem_nested ho
      have habove : t.IsAncestor top a := isAncestor_of_mem_nestedBelow ho ha
      exact absurd (habove.trans hab) (not_isAncestor_of_isContainer h hc hs hcontainer htop hb)
  · obtain ⟨c, -, -, top, -, hs⟩ := exists_container_of_mem_nested hs
    exact isBoundary_of_mem_nestedBelow h hs hb hqfunction

/-- What belongs to two functions belongs to one: they are the same. -/
theorem node_eq_of_isCredited (h : t.IsLinked) {maxDepth : Nat} {x : Extraction}
    (hx : x.IsFromTree maxDepth language t) {p q : Ref} (hp : p ∈ x.named) (hq : q ∈ x.named)
    (hpfunction : p.kind.isFunctionLike = true) (hqfunction : q.kind.isFunctionLike = true)
    {a b id : Nat} (ha : p.node = some a) (hb : q.node = some b)
    (hpid : IsCredited (rulesOf language) t maxDepth a id)
    (hqid : IsCredited (rulesOf language) t maxDepth b id) : a = b := by
  have hbelow : ∀ {top}, IsCredited (rulesOf language) t maxDepth top id → t.IsAncestor top id :=
    fun hid => hid.within.isAncestor
  rcases h.mem_subtree_or_mem_subtree (hbelow hpid).mem_subtree (hbelow hqid).mem_subtree
    with hmem | hmem
  · rcases SyntaxTree.eq_or_isAncestor_of_mem_subtree hmem with heq | hab
    · exact heq.symm
    · exact absurd (isBoundary_of_isAncestor h hx hp hq hpfunction hqfunction ha hb hab)
        (hpid.inside b hab (Or.inr (hbelow hqid)))
  · rcases SyntaxTree.eq_or_isAncestor_of_mem_subtree hmem with heq | hba
    · exact heq
    · exact absurd (isBoundary_of_isAncestor h hx hq hp hqfunction hpfunction hb ha hba)
        (hqid.inside a hba (Or.inr (hbelow hpid)))

/-! ## All functions -/

/-- The statements of a function whose node is `top`, read from the nodes that belong to it, one
from each, in reading order. -/
structure AreStatements (r : Rules) (t : SyntaxTree) (depth top : Nat) (function : Ref)
    (nodes : List Nat) (statements : List InternalStructure) : Prop where
  in_order : nodes.Sublist (t.subtree top)
  mem_iff : ∀ id, id ∈ nodes ↔ IsCredited r t depth top id
  read : statements.map some = nodes.map (statementOf? r t function)

theorem areStatements_statementsBelow (h : t.IsLinked) (depth top : Nat) (function : Ref) :
    AreStatements r t depth top function (statementNodes r t depth top)
      (statementsBelow r t function depth top) where
  in_order := by
    rw [SyntaxTree.subtree_eq]
    exact (statementNodes_sublist depth top).cons top
  mem_iff _ := mem_statementNodes_iff h depth top
  read := map_some_statementsBelow function depth top

/-- A function was read from a node. -/
theorem exists_node_of_isFunctionLike {maxDepth : Nat} {x : Extraction}
    (hx : x.IsFromTree maxDepth language t) {p : Ref} (hp : p ∈ x.named)
    (hfunction : p.kind.isFunctionLike = true) : ∃ node, p.node = some node := by
  rcases mem_named_cases hx hp with ⟨s, hs, rfl⟩ | ⟨s, hs, rfl⟩
  · exact exists_node_of_isContainer hs (isContainer_of_isFunctionLike hfunction)
  · obtain ⟨⟨node, hnode, -⟩, -⟩ := mem_nested hs
    exact ⟨node, hnode⟩

/-- The internal structures with a function as their parent are the statements of this function. -/
theorem filter_parent_internal {maxDepth : Nat} {x : Extraction}
    (hx : x.IsFromTree maxDepth language t) (hnodup : x.named.Nodup) {p : Ref} (hp : p ∈ x.named)
    (hfunction : p.kind.isFunctionLike = true) {node : Nat} (hnode : p.node = some node) :
    x.internal.filter (fun s => s.parent = p) =
      statementsBelow (rulesOf language) t p maxDepth node := by
  have hinternal : x.internal = (x.named.filter fun p => p.kind.isFunctionLike).flatMap fun p =>
      p.node.elim [] (statementsBelow (rulesOf language) t p maxDepth) := by
    rw [hx.internal_eq, internal, Extraction.named]
    refine List.flatMap_congr fun q _ => ?_
    cases q.node <;> rfl
  rw [hinternal, filter_flatMap_eq (hnodup.filter _) (List.mem_filter.mpr ⟨hp, hfunction⟩), hnode,
    Option.elim_some]
  intro q _ s hs
  cases hq : q.node with
  | none =>
    rw [hq] at hs
    exact absurd hs List.not_mem_nil
  | some top =>
    rw [hq] at hs
    exact parent_of_mem_statementsBelow hs

/-- The statements of a function are read from the nodes that belong to it, every statement belongs
to a function, and no node belongs to two. -/
theorem internal_areStatements (h : t.IsLinked) {maxDepth : Nat} {content : Text} {x : Extraction}
    (hx : extractTree maxDepth content language t = .ok x) :
    (∀ p ∈ x.named, p.kind.isFunctionLike = true → ∃ node nodes, p.node = some node ∧
      AreStatements (rulesOf language) t maxDepth node p nodes
        (x.internal.filter fun s => s.parent = p)) ∧
      (∀ s ∈ x.internal, s.parent ∈ x.named ∧ s.parent.kind.isFunctionLike = true) ∧
      ∀ p ∈ x.named, ∀ q ∈ x.named, p.kind.isFunctionLike = true → q.kind.isFunctionLike = true →
        ∀ a b id, p.node = some a → q.node = some b →
          IsCredited (rulesOf language) t maxDepth a id →
            IsCredited (rulesOf language) t maxDepth b id → p = q := by
  obtain ⟨-, htiers⟩ := isFromTree_of_extractTree hx
  have hnodes : (x.named.map fun p => p.node).Nodup := by
    rw [Extraction.named, List.map_append, List.map_map, List.map_map, htiers.nested_eq,
      htiers.topLevel_eq]
    exact nodup_nodes h maxDepth
  refine ⟨fun p hp hfunction => ?_, fun s hs => ?_, ?_⟩
  · obtain ⟨node, hnode⟩ := exists_node_of_isFunctionLike htiers hp hfunction
    refine ⟨node, statementNodes (rulesOf language) t maxDepth node, hnode, ?_⟩
    rw [filter_parent_internal htiers hnodes.of_map hp hfunction hnode]
    exact areStatements_statementsBelow h maxDepth node p
  · rw [htiers.internal_eq] at hs
    exact mem_internal hs
  · intro p hp q hq hpfunction hqfunction a b id ha hb hpid hqid
    refine List.inj_on_of_nodup_map hnodes hp hq ?_
    rw [ha, hb, node_eq_of_isCredited h htiers hp hq hpfunction hqfunction ha hb hpid hqid]

/-- A function with a branch, and after it a function of its own; both return something. -/
def innerText : Text :=
  "function f() \x7b if (a) return 1; function g() \x7b return 2 \x7d \x7d\n".toList

/-- Its tree, node by node. -/
def innerTree : SyntaxTree :=
  ((((((SyntaxTree.ofSource innerText).add none "program" none 0 60).add
    (some 0) "function_declaration" none 0 59).add
    (some 1) "if_statement" none 15 31).add
    (some 2) "return_statement" none 22 31).add
    (some 1) "function_declaration" none 32 57).add
    (some 4) "return_statement" none 47 55

theorem isBuilt_innerTree : innerTree.IsBuilt :=
  ((((((SyntaxTree.IsBuilt.ofSource _).add _ _ _ _ _).add _ _ _ _ _).add _ _ _ _ _).add
    _ _ _ _ _).add _ _ _ _ _).add _ _ _ _ _

/-- The return of the inner function belongs to that one alone. -/
theorem internal_areStatements_of_inner :
    ∃ x, extractTree 5 innerText "javascript" innerTree = .ok x ∧
      (x.named.map fun p => (p.kind, p.node)) = [(.function, some 1), (.function, some 4)] ∧
      (x.internal.map fun s => (s.content, s.parent.node)) =
        [("if (a) return 1;", some 1), ("return 1;", some 1), ("return 2", some 4)] ∧
      (∀ p ∈ x.named, ∃ node nodes, p.node = some node ∧
        AreStatements (rulesOf "javascript") innerTree 5 node p nodes
          (x.internal.filter fun s => s.parent = p)) ∧
      ∀ id, IsCredited (rulesOf "javascript") innerTree 5 1 id →
        ¬ IsCredited (rulesOf "javascript") innerTree 5 4 id := by
  have hover : innerTree.IsOver innerText := ⟨⟨0, by decide +kernel⟩, rfl⟩
  obtain ⟨x, hx⟩ := exists_extractTree_eq_ok hover 5 "javascript"
  obtain ⟨-, htiers⟩ := isFromTree_of_extractTree hx
  have hnamed : (x.named.map fun p => (p.kind, p.node)) =
      [(.function, some 1), (.function, some 4)] := by
    rw [Extraction.named, htiers.nested_eq, htiers.topLevel_eq]
    decide +kernel
  have hinternal : (x.internal.map fun s => (s.content, s.parent.node)) =
      [("if (a) return 1;", some 1), ("return 1;", some 1), ("return 2", some 4)] := by
    rw [htiers.internal_eq, htiers.nested_eq, htiers.topLevel_eq]
    decide +kernel
  have hfunctions : ∀ p ∈ x.named, p.kind.isFunctionLike = true := by
    intro p hp
    have hmem : p.kind ∈ (x.named.map fun p => (p.kind, p.node)).map Prod.fst := by
      rw [List.map_map]
      exact List.mem_map.mpr ⟨p, hp, rfl⟩
    rw [hnamed] at hmem
    have hkind : p.kind = .function := by simpa using hmem
    rw [hkind]
    rfl
  obtain ⟨hread, -, honce⟩ := internal_areStatements isBuilt_innerTree.isLinked hx
  refine ⟨x, hx, hnamed, hinternal, fun p hp => hread p hp (hfunctions p hp), ?_⟩
  intro id houter hinner
  have hentry : ∀ entry ∈ [(Kind.function, some 1), (.function, some 4)],
      ∃ p ∈ x.named, (p.kind, p.node) = entry := fun entry h => List.mem_map.mp (hnamed ▸ h)
  obtain ⟨p, hp, hpnode⟩ := hentry (.function, some 1) (by simp)
  obtain ⟨q, hq, hqnode⟩ := hentry (.function, some 4) (by simp)
  obtain ⟨-, hpnode⟩ := Prod.mk.inj hpnode
  obtain ⟨-, hqnode⟩ := Prod.mk.inj hqnode
  have hsame : p = q :=
    honce p hp q hq (hfunctions p hp) (hfunctions q hq) 1 4 id hpnode hqnode houter hinner
  rw [hsame, hqnode] at hpnode
  exact absurd hpnode (by decide)

end TreeExtraction

end Outline

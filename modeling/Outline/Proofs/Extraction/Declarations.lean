import Outline.Proofs.Language.Rules
import Outline.Proofs.Tree.Ancestors

/-!
# The top level of a tree

The walk for declarations starts at the root.  A node that the table lists is read, if it has some
text, and the walk ends there, with or without text; only behind an export it goes on.  So whether
the walk comes to a node depends on everything above the node: it does if nothing above it is
listed, exports and the root apart (`IsOutermost`).

One step of the walk says what is read at a node and whether its children are walked
(`mem_nodes_declarations_step`).  From this it follows by induction on the children that the walk
reads the nodes it can come to (`mem_nodes_declarations_iff`).  The induction needs that nodes have
one parent each: then what lies above a node below a child is the node the child belongs to, and
what lies above it from the child on (`isOpen_iff_of_child`).  Every tree that is put together node
by node is of this kind (`SyntaxTree.IsBuilt.isLinked`).

The walk asks for the corrected kind of a node when it looks for exports, and the table knows the
listed one; `refine_eq_exportDecl_iff` brings the two together.

* `nodes_topLevel_isOutermost`: the top level holds the outermost nodes, each once, in reading
  order.
-/

namespace Outline

theorem SyntaxTree.eq_zero_of_root? {t : SyntaxTree} {root : Nat} (h : t.root? = some root) :
    root = 0 := by
  rw [root?] at h
  split at h
  · exact absurd h (by simp)
  · exact (Option.some.inj h).symm

theorem SyntaxTree.lt_size_of_isNamed {t : SyntaxTree} {id : Nat} (h : t.isNamed id = true) :
    id < t.size := by
  rw [isNamed, Option.any_eq_true] at h
  obtain ⟨n, hn, -⟩ := h
  exact (Array.getElem?_eq_some_iff.mp hn).1

/-- All nodes that are reached from the first one, in reading order. -/
def SyntaxTree.preorder (t : SyntaxTree) : List Nat := (t.root?.map t.subtree).getD []

namespace TreeExtraction

variable {r : Rules} {t : SyntaxTree} {language : String}

/-! ## Single nodes -/

theorem listedKind?_eq_some_iff {id : Nat} {kind : Kind} : listedKind? r t id = some kind ↔
    (t.isNamed id = true ∧ t.root? ≠ some id) ∧ r.topLevelKind (t.kind id) = some kind := by
  rw [listedKind?]
  split
  · rename_i h
    exact ⟨fun hkind => ⟨h, hkind⟩, fun hkind => hkind.2⟩
  · rename_i h
    exact iff_of_false (by simp) fun hkind => h hkind.1

/-- A node that exists has a structure exactly when it has some text. -/
theorem exists_structureOf?_iff {id : Nat} (hid : id < t.size) (kind : Kind) :
    (∃ s, structureOf? r t language id kind = some s) ↔ (t.text id).isBlank = false := by
  constructor
  · rintro ⟨s, hs⟩
    obtain ⟨-, -, hblank, -⟩ := exists_span_of_structureOf? hs
    exact hblank
  · intro hblank
    obtain ⟨⟨start, stop⟩, hspan⟩ := SyntaxTree.exists_lineSpan?_of_lt hid
    simp only [structureOf?, hspan, hblank, Option.bind_eq_bind, Option.bind_some,
      Bool.false_eq_true, if_false]
    exact ⟨_, rfl⟩

/-! ## The walk for declarations -/

/-- A node that the walk reads when it comes to it. -/
def IsRead (r : Rules) (t : SyntaxTree) (id : Nat) : Prop :=
  (∃ listed, listedKind? r t id = some listed) ∧ (t.text id).isBlank = false

/-- A node behind which the walk goes on. -/
def IsPassed (r : Rules) (t : SyntaxTree) (id : Nat) : Prop :=
  ∀ listed, listedKind? r t id = some listed → r.refine t id listed = .exportDecl

/-- From `top` on, the walk goes on behind everything above a node. -/
def IsOpen (r : Rules) (t : SyntaxTree) (top id : Nat) : Prop :=
  ∀ a ∈ t.subtree top, t.IsAncestor a id → IsPassed r t a

theorem isOpen_self (r : Rules) (t : SyntaxTree) (id : Nat) : IsOpen r t id id := by
  intro a ha habove
  have hle := SyntaxTree.le_of_mem_subtree ha
  have hlt := habove.lt
  omega

/-- What lies below a child is open if it is open from the child on and the walk goes on behind the
node. -/
theorem isOpen_iff_of_child (h : t.IsLinked) {top c id : Nat} (hc : c ∈ t.children top)
    (hid : id ∈ t.subtree c) : IsOpen r t top id ↔ IsPassed r t top ∧ IsOpen r t c id := by
  have hbelow : ∀ a, a ∈ t.subtree top ↔ a = top ∨ ∃ d ∈ t.children top, a ∈ t.subtree d := by
    intro a
    rw [SyntaxTree.subtree_eq, List.mem_cons, List.mem_flatMap]
  constructor
  · intro hopen
    constructor
    · exact hopen top ((hbelow top).mpr (Or.inl rfl)) (SyntaxTree.isAncestor_iff.mpr ⟨c, hc, hid⟩)
    · exact fun a ha => hopen a ((hbelow a).mpr (Or.inr ⟨c, hc, ha⟩))
  · rintro ⟨htop, hopen⟩ a ha habove
    rcases (hbelow a).mp ha with rfl | ⟨d, hd, ha⟩
    · exact htop
    · -- an ancestor below another child would have the node below that child, too
      have hidd : id ∈ t.subtree d := SyntaxTree.mem_subtree_trans ha habove.mem_subtree
      exact hopen a (h.eq_of_mem_subtree hd hc hidd hid ▸ ha) habove

/-- What the walk reads at a node is the node itself. -/
theorem mem_nodes_structureOf?_iff {id n : Nat} {listed : Kind}
    (hlisted : listedKind? r t id = some listed) :
    some n ∈ (structureOf? r t language id (r.refine t id listed)).toList.map (fun s => s.node) ↔
      n = id ∧ IsRead r t id := by
  have hid : id < t.size := SyntaxTree.lt_size_of_isNamed (listedKind?_eq_some_iff.mp hlisted).1.1
  have hfilled : (∃ s, structureOf? r t language id (r.refine t id listed) = some s) ↔
      (t.text id).isBlank = false := exists_structureOf?_iff hid _
  rw [IsRead, ← hfilled]
  cases hs : structureOf? r t language id (r.refine t id listed) with
  | none => simp
  | some s => simp [(node_of_structureOf? hs).1, hlisted, eq_comm]

/-- One step of the walk: a node is read, and then its children are walked unless the walk ends
there. -/
theorem mem_nodes_declarations_step {top id : Nat} :
    some id ∈ (declarations r t language top).map (fun s => s.node) ↔
      id = top ∧ IsRead r t top ∨ IsPassed r t top ∧
        ∃ c ∈ t.children top, some id ∈ (declarations r t language c).map fun s => s.node := by
  have hbelow : some id ∈ ((t.children top).flatMap (declarations r t language)).map
      (fun s => s.node) ↔
        ∃ c ∈ t.children top, some id ∈ (declarations r t language c).map fun s => s.node := by
    rw [List.map_flatMap, List.mem_flatMap]
  cases hlisted : listedKind? r t top with
  | none =>
    have hread : ¬ IsRead r t top := by
      rintro ⟨⟨listed, h⟩, -⟩
      rw [hlisted] at h
      exact absurd h (by simp)
    have hpassed : IsPassed r t top := by
      intro listed h
      rw [hlisted] at h
      exact absurd h (by simp)
    rw [declarations_of_not_listed hlisted, hbelow]
    simp only [hread, hpassed, and_false, false_or, true_and]
  | some listed =>
    have hpassed : IsPassed r t top ↔ r.refine t top listed = .exportDecl := by
      simp only [IsPassed, hlisted, Option.some.injEq, forall_eq']
    rw [declarations_of_listed hlisted, List.map_append, List.mem_append,
      mem_nodes_structureOf?_iff hlisted, hpassed]
    split
    · rename_i hexport
      rw [hbelow]
      simp only [hexport, true_and]
    · rename_i hend
      simp only [hend, List.map_nil, List.not_mem_nil, false_and]

/-- What the walk reads below a node are the nodes that it reads when it comes to them, and to which
it comes. -/
theorem mem_nodes_declarations_iff (h : t.IsLinked) {top id : Nat} :
    some id ∈ (declarations r t language top).map (fun s => s.node) ↔
      id ∈ t.subtree top ∧ IsRead r t id ∧ IsOpen r t top id := by
  induction top using t.inductionOnChildren with
  | step top ih =>
    rw [mem_nodes_declarations_step, SyntaxTree.subtree_eq, List.mem_cons, List.mem_flatMap]
    constructor
    · rintro (⟨rfl, hread⟩ | ⟨hpassed, c, hc, hid⟩)
      · exact ⟨Or.inl rfl, hread, isOpen_self r t id⟩
      · obtain ⟨hid, hread, hopen⟩ := (ih c hc).mp hid
        exact ⟨Or.inr ⟨c, hc, hid⟩, hread, (isOpen_iff_of_child h hc hid).mpr ⟨hpassed, hopen⟩⟩
    · rintro ⟨rfl | ⟨c, hc, hid⟩, hread, hopen⟩
      · exact Or.inl ⟨rfl, hread⟩
      · obtain ⟨hpassed, hopen⟩ := (isOpen_iff_of_child h hc hid).mp hopen
        exact Or.inr ⟨hpassed, c, hc, (ih c hc).mpr ⟨hid, hread, hopen⟩⟩

/-! ## The top level -/

/-- A node below the root that is named, has a kind in the table and some text, and lies below no
other such named node, exports and the root apart. -/
structure IsOutermost (r : Rules) (t : SyntaxTree) (root id : Nat) : Prop where
  ne_root : id ≠ root
  reached : ∃ steps, t.StepsBelow root steps id
  named : t.isNamed id = true
  listed : ∃ kind, r.topLevelKind (t.kind id) = some kind
  filled : (t.text id).isBlank = false
  outermost : ∀ a, a ≠ root → t.IsAncestor a id → t.isNamed a = true →
    ∀ kind, r.topLevelKind (t.kind a) = some kind → kind = .exportDecl

theorem isOutermost_iff (h : t.IsLinked) {root : Nat} (hroot : t.root? = some root) {id : Nat} :
    IsOutermost (rulesOf language) t root id ↔
      id ∈ t.subtree root ∧ IsRead (rulesOf language) t id ∧
        IsOpen (rulesOf language) t root id := by
  have hlisted : ∀ {n : Nat} {kind : Kind}, listedKind? (rulesOf language) t n = some kind ↔
      n ≠ root ∧ t.isNamed n = true ∧ (rulesOf language).topLevelKind (t.kind n) = some kind := by
    intro n kind
    rw [listedKind?_eq_some_iff, hroot, ne_eq, Option.some.injEq, and_comm (a := _ = true),
      and_assoc, eq_comm]
  constructor
  · intro houter
    obtain ⟨kind, hkind⟩ := houter.listed
    refine ⟨SyntaxTree.mem_subtree_iff.mpr houter.reached,
      ⟨⟨kind, hlisted.mpr ⟨houter.ne_root, houter.named, hkind⟩⟩, houter.filled⟩, ?_⟩
    intro a _ habove listed ha
    obtain ⟨hne, hnamed, ha⟩ := hlisted.mp ha
    exact (refine_eq_exportDecl_iff ha).mpr (houter.outermost a hne habove hnamed listed ha)
  · rintro ⟨hid, ⟨⟨kind, hkind⟩, hfilled⟩, hopen⟩
    obtain ⟨hne, hnamed, hkind⟩ := hlisted.mp hkind
    refine ⟨hne, SyntaxTree.mem_subtree_iff.mp hid, hnamed, ⟨kind, hkind⟩, hfilled, ?_⟩
    intro a ha habove hanamed listed halisted
    -- the root stands first, so nothing else lies above it
    have hbelow : a ∈ t.subtree root := by
      rcases h.mem_subtree_or_mem_subtree hid habove.mem_subtree with hbelow | hroota
      · exact hbelow
      · have hle := SyntaxTree.le_of_mem_subtree hroota
        have hzero := SyntaxTree.eq_zero_of_root? hroot
        omega
    exact (refine_eq_exportDecl_iff halisted).mp
      (hopen a hbelow habove listed (hlisted.mpr ⟨ha, hanamed, halisted⟩))

/-- The declarations stand in the order of their nodes. -/
theorem nodes_declarations_in_order (id : Nat) :
    ((declarations r t language id).map fun s => s.node).Sublist ((t.subtree id).map some) := by
  have hsublist : ((declarations r t language id).map fun s => s.node).Sublist
      ((declarations r t language id).flatMap fun s => s.node :: memberNodes r t language 0 s) := by
    rw [List.map_eq_flatMap]
    exact List.Sublist.flatMap_right _ fun s _ => List.singleton_sublist.mpr List.mem_cons_self
  exact hsublist.trans (nodes_declarations_sublist 0 id)

/-- In a code language, the entries of the top level are the structures of the outermost nodes, each
of them once, in reading order, under their corrected kinds. -/
theorem nodes_topLevel_isOutermost (h : t.IsLinked)
    (hcode : (rulesOf language).wholeFile = false) :
    ((topLevel (rulesOf language) t language).map fun s => s.node).Sublist
        (t.preorder.map some) ∧
      ((topLevel (rulesOf language) t language).map fun s => s.node).Nodup ∧
      (∀ id, some id ∈ (topLevel (rulesOf language) t language).map (fun s => s.node) ↔
        ∃ root, t.root? = some root ∧ IsOutermost (rulesOf language) t root id) ∧
      ∀ s ∈ topLevel (rulesOf language) t language, ∃ id listed, s.node = some id ∧
        (rulesOf language).topLevelKind (t.kind id) = some listed ∧
          s.kind = (rulesOf language).refine t id listed ∧
            structureOf? (rulesOf language) t language id s.kind = some s := by
  rw [topLevel_eq, if_neg (by rw [hcode]; exact Bool.false_ne_true), SyntaxTree.preorder]
  cases hroot : t.root? with
  | none => simp
  | some root =>
    rw [Option.map_some, Option.getD_some, Option.map_some, Option.getD_some]
    have horder : ((declarations (rulesOf language) t language root).map fun s => s.node).Sublist
        ((t.subtree root).map some) := nodes_declarations_in_order root
    refine ⟨horder, horder.nodup ((h.nodup_subtree root).map fun _ _ => Option.some.inj), ?_, ?_⟩
    · intro id
      rw [mem_nodes_declarations_iff h, ← isOutermost_iff h hroot]
      simp
    · intro s hs
      obtain ⟨id, listed, hlisted, hstructure⟩ := exists_structureOf?_of_mem_declarations hs
      obtain ⟨hnode, hkind⟩ := node_of_structureOf? hstructure
      exact ⟨id, listed, hnode, (listedKind?_eq_some_iff.mp hlisted).2, hkind, hkind ▸ hstructure⟩

/-- An exported function, and a function around a function. -/
def exportText : Text :=
  "export function f() \x7b\x7d\nfunction g() \x7b function h() \x7b\x7d \x7d\n".toList

/-- Its tree, node by node. -/
def exportTree : SyntaxTree :=
  (((((SyntaxTree.ofSource exportText).add none "program" none 0 56).add
    (some 0) "export_statement" none 0 22).add
    (some 1) "function_declaration" none 7 22).add
    (some 0) "function_declaration" none 23 55).add
    (some 3) "function_declaration" none 38 53

theorem isBuilt_exportTree : exportTree.IsBuilt :=
  (((((SyntaxTree.IsBuilt.ofSource _).add _ _ _ _ _).add _ _ _ _ _).add _ _ _ _ _).add
    _ _ _ _ _).add _ _ _ _ _

/-- The walk goes on below the export and ends at the outer function. -/
theorem nodes_topLevel_isOutermost_of_export :
    ((topLevel (rulesOf "javascript") exportTree "javascript").map fun s => s.node) =
        [some 1, some 2, some 3] ∧
      ∀ id, IsOutermost (rulesOf "javascript") exportTree 0 id ↔ id ∈ [1, 2, 3] := by
  have hnodes : ((topLevel (rulesOf "javascript") exportTree "javascript").map fun s => s.node) =
      [some 1, some 2, some 3] := by decide +kernel
  have hroot : exportTree.root? = some 0 := by decide +kernel
  have hcode : (rulesOf "javascript").wholeFile = false := by decide +kernel
  refine ⟨hnodes, fun id => ?_⟩
  obtain ⟨-, -, hiff, -⟩ := nodes_topLevel_isOutermost isBuilt_exportTree.isLinked hcode
  have hid := hiff id
  rw [hnodes, hroot] at hid
  simpa using hid.symm

end TreeExtraction

end Outline

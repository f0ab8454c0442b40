import Mathlib.Data.List.Forall2
import Mathlib.Data.Set.Card
import Outline.Proofs.Extraction.Declarations

/-!
# The members of a container

The walk for members starts at a container and goes down a stated number of steps.  Unlike the walk
for declarations it never ends at a node; what changes on the way down is to whom the next member
belongs.  A node that is a member (`IsMemberNode`) takes the place of the parent and adds a level,
every other node, also one of a listed kind without text, leaves both as they are.

So the parent and the level of a member tell what lies between the container and the member.  The
walk knows this only as a pair that it hands on; in the tree it is a set, the members above a node
(`membersAbove`).  A step to a child adds the child to this set or leaves it alone
(`mem_membersAbove_of_child_iff`), and this is what the walk does to its pair.  Again it is needed
that nodes have one parent each: otherwise a member could lie below another child, too.

* `mem_nodes_nestedBelow_iff`: which nodes the walk finds.
* `isPlaced_of_mem_nestedBelow`: where it says that they belong.
* `nested_areMembers`: both for all containers of a tree, and that no node comes up twice.
-/

namespace Outline

/-- A function of a type is a method, a method of anything else a function. -/
theorem memberKind_eq (parent kind : Kind) : memberKind parent kind =
    if kind = .function ∧ parent.ownsMethods = true then .method
    else if kind = .method ∧ parent.ownsMethods = false then .function
    else kind := by
  cases kind <;> cases h : parent.ownsMethods <;> simp [memberKind, h]

namespace TreeExtraction

variable {r : Rules} {t : SyntaxTree} {language : String}

/-! ## Single nodes -/

/-- A named node whose kind is in the table for members, and that has some text. -/
structure IsMemberNode (r : Rules) (t : SyntaxTree) (id : Nat) : Prop where
  named : t.isNamed id = true
  listed : ∃ kind, r.nestedKind (t.kind id) = some kind
  filled : (t.text id).isBlank = false

theorem memberKindOf?_eq_some_iff {parent kind : Kind} {id : Nat} :
    memberKindOf? r t parent id = some kind ↔ t.isNamed id = true ∧
      ∃ listed, r.nestedKind (t.kind id) = some listed ∧
        memberKind parent (r.refine t id listed) = kind := by
  rw [memberKindOf?]
  split
  · rename_i hnamed
    rw [Option.map_eq_some_iff]
    exact ⟨fun h => ⟨hnamed, h⟩, fun h => h.2⟩
  · rename_i hnamed
    exact iff_of_false (by simp) fun h => hnamed h.1

/-- The walk finds something at a node exactly when the node is a member; whose member does not
matter. -/
theorem exists_found_iff (language : String) (parent : Kind) {id : Nat} :
    (∃ found, (memberKindOf? r t parent id).bind (structureOf? r t language id) = some found) ↔
      IsMemberNode r t id := by
  constructor
  · rintro ⟨found, hfound⟩
    obtain ⟨kind, hkind, hstructure⟩ := Option.bind_eq_some_iff.mp hfound
    obtain ⟨hnamed, listed, hlisted, -⟩ := memberKindOf?_eq_some_iff.mp hkind
    exact ⟨hnamed, ⟨listed, hlisted⟩,
      (exists_structureOf?_iff (SyntaxTree.lt_size_of_isNamed hnamed) kind).mp ⟨found, hstructure⟩⟩
  · rintro ⟨hnamed, ⟨listed, hlisted⟩, hfilled⟩
    have hstructure : ∃ found,
        structureOf? r t language id (memberKind parent (r.refine t id listed)) = some found :=
      (exists_structureOf?_iff (SyntaxTree.lt_size_of_isNamed hnamed) _).mpr hfilled
    obtain ⟨found, hfound⟩ := hstructure
    exact ⟨found, Option.bind_eq_some_iff.mpr
      ⟨_, memberKindOf?_eq_some_iff.mpr ⟨hnamed, listed, hlisted, rfl⟩, hfound⟩⟩

theorem node_of_found {parent : Kind} {id : Nat} {found : Structure}
    (h : (memberKindOf? r t parent id).bind (structureOf? r t language id) = some found) :
    found.node = some id := by
  obtain ⟨kind, -, hstructure⟩ := Option.bind_eq_some_iff.mp h
  exact (node_of_structureOf? hstructure).1

/-! ## One step of the walk -/

/-- What is found below a node is found at or below one of its children; a child that is a member
is the parent of what is found below it. -/
theorem mem_nestedBelow_succ_iff {depth node level : Nat} {parent : Ref} {s : NestedStructure} :
    s ∈ nestedBelow r t language (depth + 1) node parent level ↔ ∃ c ∈ t.children node,
      ¬ IsMemberNode r t c ∧ s ∈ nestedBelow r t language depth c parent level ∨
      ∃ found,
        (memberKindOf? r t parent.kind c).bind (structureOf? r t language c) = some found ∧
          (s = { found with parent, level } ∨
            s ∈ nestedBelow r t language depth c found.ref (level + 1)) := by
  rw [nestedBelow, List.mem_flatMap]
  refine exists_congr fun c => and_congr_right fun _ => ?_
  rw [← exists_found_iff language parent.kind]
  cases (memberKindOf? r t parent.kind c).bind (structureOf? r t language c) with
  | none => simp
  | some found => simp

/-- The walk finds the members that lie no deeper than it goes. -/
theorem mem_nodes_nestedBelow_iff {id : Nat} : ∀ (depth node : Nat) (parent : Ref) (level : Nat),
    some id ∈ (nestedBelow r t language depth node parent level).map (fun s => s.node) ↔
      IsMemberNode r t id ∧ t.IsWithin depth node id
  | 0, node, parent, level =>
    iff_of_false List.not_mem_nil fun h => SyntaxTree.not_isWithin_zero h.2
  | depth + 1, node, parent, level => by
    rw [SyntaxTree.isWithin_succ_iff, List.mem_map]
    constructor
    · rintro ⟨s, hs, hnode⟩
      obtain ⟨c, hc, ⟨-, hs⟩ | ⟨found, hfound, rfl | hs⟩⟩ := mem_nestedBelow_succ_iff.mp hs
      · obtain ⟨hmember, hwithin⟩ := (mem_nodes_nestedBelow_iff depth c parent level).mp
          (List.mem_map.mpr ⟨s, hs, hnode⟩)
        exact ⟨hmember, c, hc, Or.inr hwithin⟩
      · obtain rfl : c = id := Option.some.inj ((node_of_found hfound).symm.trans hnode)
        exact ⟨(exists_found_iff language parent.kind).mp ⟨found, hfound⟩, c, hc, Or.inl rfl⟩
      · obtain ⟨hmember, hwithin⟩ := (mem_nodes_nestedBelow_iff depth c found.ref (level + 1)).mp
          (List.mem_map.mpr ⟨s, hs, hnode⟩)
        exact ⟨hmember, c, hc, Or.inr hwithin⟩
    · rintro ⟨hmember, c, hc, hid⟩
      by_cases hchild : IsMemberNode r t c
      · obtain ⟨found, hfound⟩ := (exists_found_iff language parent.kind).mpr hchild
        rcases hid with rfl | hwithin
        · exact ⟨_, mem_nestedBelow_succ_iff.mpr ⟨id, hc, Or.inr ⟨found, hfound, Or.inl rfl⟩⟩,
            node_of_found hfound⟩
        · obtain ⟨s, hs, hnode⟩ := List.mem_map.mp
            ((mem_nodes_nestedBelow_iff depth c found.ref (level + 1)).mpr ⟨hmember, hwithin⟩)
          exact ⟨s, mem_nestedBelow_succ_iff.mpr ⟨c, hc, Or.inr ⟨found, hfound, Or.inr hs⟩⟩, hnode⟩
      · -- a node that is no member is not the one that is looked for
        have hwithin : t.IsWithin depth c id := hid.resolve_left fun h => hchild (h ▸ hmember)
        obtain ⟨s, hs, hnode⟩ := List.mem_map.mp
          ((mem_nodes_nestedBelow_iff depth c parent level).mpr ⟨hmember, hwithin⟩)
        exact ⟨s, mem_nestedBelow_succ_iff.mpr ⟨c, hc, Or.inl ⟨hchild, hs⟩⟩, hnode⟩

theorem isAncestor_of_mem_nestedBelow {depth node level id : Nat} {parent : Ref}
    {s : NestedStructure} (hs : s ∈ nestedBelow r t language depth node parent level)
    (hnode : s.node = some id) : t.IsAncestor node id := by
  have hmem : some id ∈ (nestedBelow r t language depth node parent level).map fun s => s.node :=
    List.mem_map.mpr ⟨s, hs, hnode⟩
  exact ((mem_nodes_nestedBelow_iff depth node parent level).mp hmem).2.isAncestor

/-! ## Where they belong -/

/-- The members that lie between a node and another one below it. -/
def membersAbove (r : Rules) (t : SyntaxTree) (top id : Nat) : Set Nat :=
  {a | IsMemberNode r t a ∧ t.IsAncestor top a ∧ t.IsAncestor a id}

/-- The last of the members on the way to a node. -/
structure IsNearest (r : Rules) (t : SyntaxTree) (top id a : Nat) : Prop where
  mem : a ∈ membersAbove r t top id
  above : ∀ b ∈ membersAbove r t top id, b = a ∨ t.IsAncestor b a

theorem finite_membersAbove (r : Rules) (t : SyntaxTree) (top id : Nat) :
    (membersAbove r t top id).Finite :=
  (Set.finite_lt_nat id).subset fun _ ha => ha.2.2.lt

/-- Nothing lies between a node and its child. -/
theorem membersAbove_child (h : t.IsLinked) {top c : Nat} (hc : c ∈ t.children top) :
    membersAbove r t top c = ∅ := by
  refine Set.eq_empty_of_forall_notMem ?_
  rintro a ⟨-, htop, hac⟩
  have hle := SyntaxTree.le_of_mem_subtree ((h.isAncestor_child_iff hc).mp hac)
  have hlt := htop.lt
  omega

/-- On the way to a node below a child stands the child, if it is a member, and what comes after
the child. -/
theorem mem_membersAbove_of_child_iff (h : t.IsLinked) {top c id : Nat}
    (hc : c ∈ t.children top) (hid : t.IsAncestor c id) {a : Nat} :
    a ∈ membersAbove r t top id ↔
      a = c ∧ IsMemberNode r t c ∨ a ∈ membersAbove r t c id := by
  constructor
  · rintro ⟨hmember, htop, haid⟩
    obtain ⟨d, hd, had⟩ := SyntaxTree.isAncestor_iff.mp htop
    have hidd : id ∈ t.subtree d := SyntaxTree.mem_subtree_trans had haid.mem_subtree
    obtain rfl : c = d := h.eq_of_mem_subtree hc hd hid.mem_subtree hidd
    rcases SyntaxTree.eq_or_isAncestor_of_mem_subtree had with rfl | hca
    · exact Or.inl ⟨rfl, hmember⟩
    · exact Or.inr ⟨hmember, hca, haid⟩
  · rintro (⟨rfl, hmember⟩ | ⟨hmember, hca, haid⟩)
    · exact ⟨hmember, ⟨0, .child .self hc⟩, hid⟩
    · exact ⟨hmember, SyntaxTree.isAncestor_iff.mpr ⟨c, hc, hca.mem_subtree⟩, haid⟩

theorem membersAbove_of_not_member (h : t.IsLinked) {top c id : Nat} (hc : c ∈ t.children top)
    (hid : t.IsAncestor c id) (hnot : ¬ IsMemberNode r t c) :
    membersAbove r t top id = membersAbove r t c id := by
  ext a
  rw [mem_membersAbove_of_child_iff h hc hid]
  exact or_iff_right fun ha => hnot ha.2

theorem membersAbove_of_member (h : t.IsLinked) {top c id : Nat} (hc : c ∈ t.children top)
    (hid : t.IsAncestor c id) (hmember : IsMemberNode r t c) :
    membersAbove r t top id = insert c (membersAbove r t c id) := by
  ext a
  rw [mem_membersAbove_of_child_iff h hc hid, Set.mem_insert_iff, and_iff_left hmember]

/-- A child that is a member counts once. -/
theorem ncard_membersAbove_of_member (h : t.IsLinked) {top c id : Nat}
    (hc : c ∈ t.children top) (hid : t.IsAncestor c id) (hmember : IsMemberNode r t c) :
    (membersAbove r t top id).ncard = (membersAbove r t c id).ncard + 1 := by
  have hnotMem : c ∉ membersAbove r t c id := fun hcc => Nat.lt_irrefl c hcc.2.1.lt
  rw [membersAbove_of_member h hc hid hmember,
    Set.ncard_insert_of_notMem hnotMem (finite_membersAbove r t c id)]

/-- The entry of a member among those of a container: its level counts the members above it, it
belongs to the last of them, or else to the container, and its kind depends on whose it is. -/
structure IsPlaced (r : Rules) (t : SyntaxTree) (language : String) (top : Nat) (parent : Ref)
    (level : Nat) (members : List NestedStructure) (s : NestedStructure) (id : Nat) : Prop where
  node_eq : s.node = some id
  level_eq : s.level = level + (membersAbove r t top id).ncard
  parent_eq : membersAbove r t top id = ∅ ∧ s.parent = parent ∨
    ∃ p ∈ members, ∃ a, p.node = some a ∧ IsNearest r t top id a ∧ s.parent = p.ref
  kind_eq : ∃ listed, r.nestedKind (t.kind id) = some listed ∧
    s.kind = if r.refine t id listed = .function ∧ s.parent.kind.ownsMethods = true then .method
      else if r.refine t id listed = .method ∧ s.parent.kind.ownsMethods = false then .function
      else r.refine t id listed
  structure_eq : structureOf? r t language id s.kind = some s.toStructure

theorem IsPlaced.mono {top level id : Nat} {parent : Ref} {members more : List NestedStructure}
    {s : NestedStructure} (h : IsPlaced r t language top parent level members s id)
    (hsub : members ⊆ more) : IsPlaced r t language top parent level more s id where
  node_eq := h.node_eq
  level_eq := h.level_eq
  parent_eq := by
    refine h.parent_eq.imp_right ?_
    rintro ⟨p, hp, hnearest⟩
    exact ⟨p, hsub hp, hnearest⟩
  kind_eq := h.kind_eq
  structure_eq := h.structure_eq

/-- A child that is a member belongs to the one to whom the walk has come. -/
theorem isPlaced_found (h : t.IsLinked) {top c level : Nat} {parent : Ref} {found : Structure}
    {members : List NestedStructure} (hc : c ∈ t.children top)
    (hfound : (memberKindOf? r t parent.kind c).bind (structureOf? r t language c) = some found) :
    IsPlaced r t language top parent level members { found with parent, level } c := by
  obtain ⟨kind, hkind, hstructure⟩ := Option.bind_eq_some_iff.mp hfound
  obtain ⟨-, listed, hlisted, rfl⟩ := memberKindOf?_eq_some_iff.mp hkind
  obtain ⟨hnode, hfoundKind⟩ := node_of_structureOf? hstructure
  have hempty : membersAbove r t top c = ∅ := membersAbove_child h hc
  refine ⟨hnode, ?_, Or.inl ⟨hempty, rfl⟩, ⟨listed, hlisted, ?_⟩, ?_⟩
  · rw [hempty, Set.ncard_empty, Nat.add_zero]
  · rw [← memberKind_eq]
    exact hfoundKind
  · rw [← hfoundKind] at hstructure
    exact hstructure

/-- A child that is no member changes nothing for what lies below it. -/
theorem IsPlaced.of_not_member (h : t.IsLinked) {top c level id : Nat} {parent : Ref}
    {members : List NestedStructure} {s : NestedStructure} (hc : c ∈ t.children top)
    (hid : t.IsAncestor c id) (hnot : ¬ IsMemberNode r t c)
    (hs : IsPlaced r t language c parent level members s id) :
    IsPlaced r t language top parent level members s id := by
  have habove : membersAbove r t top id = membersAbove r t c id :=
    membersAbove_of_not_member h hc hid hnot
  refine ⟨hs.node_eq, habove ▸ hs.level_eq, ?_, hs.kind_eq, hs.structure_eq⟩
  rcases hs.parent_eq with hparent | ⟨p, hp, a, hpa, hnearest, hparent⟩
  · exact Or.inl (habove ▸ hparent)
  · exact Or.inr ⟨p, hp, a, hpa, ⟨habove ▸ hnearest.mem, habove ▸ hnearest.above⟩, hparent⟩

/-- A child that is a member stands alone on the way to what belongs to it, and before everything
on the way to the rest. -/
theorem IsPlaced.of_member (h : t.IsLinked) {top c level id : Nat} {parent : Ref}
    {found : NestedStructure} {members : List NestedStructure} {s : NestedStructure}
    (hc : c ∈ t.children top) (hid : t.IsAncestor c id) (hmember : IsMemberNode r t c)
    (hfound : found.node = some c)
    (hs : IsPlaced r t language c found.ref (level + 1) members s id) :
    IsPlaced r t language top parent level (found :: members) s id := by
  have habove : membersAbove r t top id = insert c (membersAbove r t c id) :=
    membersAbove_of_member h hc hid hmember
  refine ⟨hs.node_eq, ?_, Or.inr ?_, hs.kind_eq, hs.structure_eq⟩
  · rw [hs.level_eq, ncard_membersAbove_of_member h hc hid hmember]
    omega
  rcases hs.parent_eq with ⟨hempty, hparent⟩ | ⟨p, hp, a, hpa, hnearest, hparent⟩
  · refine ⟨found, List.mem_cons_self, c, hfound, ⟨?_, ?_⟩, hparent⟩
    · rw [habove]
      exact Set.mem_insert c _
    · rw [habove, hempty]
      exact fun b hb => Or.inl (hb.resolve_right (Set.notMem_empty b))
  · refine ⟨p, List.mem_cons_of_mem found hp, a, hpa, ⟨?_, ?_⟩, hparent⟩
    · rw [habove]
      exact Set.mem_insert_of_mem c hnearest.mem
    · rw [habove]
      rintro b (rfl | hb)
      · exact Or.inr hnearest.mem.2.1
      · exact hnearest.above b hb

/-- What the walk finds is placed by what lies above it. -/
theorem isPlaced_of_mem_nestedBelow (h : t.IsLinked) : ∀ (depth node : Nat) (parent : Ref)
    (level : Nat) {s : NestedStructure}, s ∈ nestedBelow r t language depth node parent level →
      ∃ id, IsPlaced r t language node parent level
        (nestedBelow r t language depth node parent level) s id
  | 0, node, parent, level, s, hs => absurd hs List.not_mem_nil
  | depth + 1, node, parent, level, s, hs => by
    obtain ⟨c, hc, ⟨hnot, hs⟩ | ⟨found, hfound, rfl | hs⟩⟩ := mem_nestedBelow_succ_iff.mp hs
    · obtain ⟨id, hplaced⟩ := isPlaced_of_mem_nestedBelow h depth c parent level hs
      have hid : t.IsAncestor c id := isAncestor_of_mem_nestedBelow hs hplaced.node_eq
      refine ⟨id, (hplaced.of_not_member h hc hid hnot).mono fun p hp => ?_⟩
      exact mem_nestedBelow_succ_iff.mpr ⟨c, hc, Or.inl ⟨hnot, hp⟩⟩
    · exact ⟨c, isPlaced_found h hc hfound⟩
    · obtain ⟨id, hplaced⟩ := isPlaced_of_mem_nestedBelow h depth c found.ref (level + 1) hs
      have hid : t.IsAncestor c id := isAncestor_of_mem_nestedBelow hs hplaced.node_eq
      have hmember : IsMemberNode r t c :=
        (exists_found_iff language parent.kind).mp ⟨found, hfound⟩
      have hbelow : IsPlaced r t language node parent level ({ found with parent, level } ::
          nestedBelow r t language depth c found.ref (level + 1)) s id :=
        hplaced.of_member h hc hid hmember (node_of_found hfound)
      refine ⟨id, hbelow.mono fun p hp => ?_⟩
      exact mem_nestedBelow_succ_iff.mpr ⟨c, hc, Or.inr ⟨found, hfound, List.mem_cons.mp hp⟩⟩

/-! ## All containers -/

/-- The members of a container whose node is `top`: those no deeper than `depth` steps below it, in
reading order, each at its place. -/
structure AreMembers (r : Rules) (t : SyntaxTree) (language : String) (depth top : Nat)
    (container : Ref) (members : List NestedStructure) : Prop where
  in_order : (members.map fun s => s.node).Sublist ((t.subtree top).map some)
  mem_iff : ∀ id, some id ∈ members.map (fun s => s.node) ↔
    IsMemberNode r t id ∧ t.IsWithin depth top id
  placed : ∀ s ∈ members, ∃ id, IsPlaced r t language top container 0 members s id

theorem areMembers_nestedBelow (h : t.IsLinked) (depth top : Nat) (container : Ref) :
    AreMembers r t language depth top container
      (nestedBelow r t language depth top container 0) where
  in_order := by
    rw [SyntaxTree.subtree_eq, List.map_cons]
    exact (nodes_nestedBelow_sublist depth top container 0).cons _
  mem_iff _ := mem_nodes_nestedBelow_iff depth top container 0
  placed _ hs := isPlaced_of_mem_nestedBelow h depth top container 0 hs

/-- A container was read from a node: a structure of a whole file is none. -/
theorem exists_node_of_isContainer {s : Structure} (h : s ∈ topLevel r t language)
    (hcontainer : s.kind.isContainer = true) : ∃ node, s.node = some node := by
  rcases mem_topLevel h with ⟨-, hkind, -⟩ | ⟨root, -, -, hs⟩
  · rw [hkind] at hcontainer
    exact absurd hcontainer (by decide)
  · obtain ⟨n, listed, -, hs⟩ := exists_structureOf?_of_mem_declarations hs
    exact ⟨n, (node_of_structureOf? hs).1⟩

/-- The nested structures are the members of the containers, container by container, and no node
is read twice. -/
theorem nested_areMembers (h : t.IsLinked) (maxDepth : Nat) :
    (∃ groups : List (List NestedStructure),
      nested r t language maxDepth (topLevel r t language) = groups.flatten ∧
        List.Forall₂
          (fun container members => ∃ node, container.node = some node ∧
            AreMembers r t language maxDepth node container.ref members)
          ((topLevel r t language).filter fun s => s.kind.isContainer) groups) ∧
      ((topLevel r t language).map (fun s => s.node) ++
        (nested r t language maxDepth (topLevel r t language)).map fun s => s.node).Nodup := by
  refine ⟨⟨_, List.flatMap_def, ?_⟩, nodup_nodes h maxDepth⟩
  rw [List.forall₂_map_right_iff, List.forall₂_same]
  intro container hcontainer
  obtain ⟨htop, hkind⟩ := List.mem_filter.mp hcontainer
  obtain ⟨node, hnode⟩ := exists_node_of_isContainer htop hkind
  refine ⟨node, hnode, ?_⟩
  rw [hnode]
  exact areMembers_nestedBelow h maxDepth node container.ref

/-- A class with a function that has a function of its own. -/
def classText : Text := "class A:\n  def f(self):\n    def g(): pass\n".toList

/-- Its tree, with a definition that is blank between the two functions. -/
def classTree : SyntaxTree :=
  ((((((SyntaxTree.ofSource classText).add none "module" none 0 42).add
    (some 0) "class_definition" none 0 41).add
    (some 1) "block" none 11 41).add
    (some 2) "function_definition" none 11 41).add
    (some 3) "function_definition" none 24 28).add
    (some 4) "function_definition" none 28 41

theorem isBuilt_classTree : classTree.IsBuilt :=
  ((((((SyntaxTree.IsBuilt.ofSource _).add _ _ _ _ _).add _ _ _ _ _).add _ _ _ _ _).add
    _ _ _ _ _).add _ _ _ _ _).add _ _ _ _ _

/-- The outer function is a method of the class.  The inner one is a function and belongs to the
outer one: the definition without text is no member. -/
theorem nested_areMembers_of_class :
    ((nested (rulesOf "python") classTree "python" 4
        (topLevel (rulesOf "python") classTree "python")).map
      fun s => (s.node, s.level, s.kind, s.parent.node)) =
        [(some 3, 0, .method, some 1), (some 5, 1, .function, some 3)] ∧
      (∀ id, IsMemberNode (rulesOf "python") classTree id ∧ classTree.IsWithin 4 1 id ↔
        id ∈ [3, 5]) ∧
      (membersAbove (rulesOf "python") classTree 1 5).ncard = 1 := by
  have hentries : ((nested (rulesOf "python") classTree "python" 4
      (topLevel (rulesOf "python") classTree "python")).map
        fun s => (s.node, s.level, s.kind, s.parent.node)) =
          [(some 3, 0, .method, some 1), (some 5, 1, .function, some 3)] := by decide +kernel
  have hcontainers : (((topLevel (rulesOf "python") classTree "python").filter
      fun s => s.kind.isContainer).map fun s => s.node) = [some 1] := by decide +kernel
  -- there is one container, so there is one group
  obtain ⟨⟨groups, hnested, hgroups⟩, -⟩ := nested_areMembers isBuilt_classTree.isLinked 4
  obtain ⟨container, hcontainer, hnode⟩ := List.map_eq_singleton_iff.mp hcontainers
  rw [hcontainer, List.forall₂_cons_left_iff] at hgroups
  obtain ⟨members, rest, ⟨node, hnode', hmembers⟩, hrest, rfl⟩ := hgroups
  obtain rfl := List.forall₂_nil_left_iff.mp hrest
  obtain rfl : node = 1 := Option.some.inj (hnode'.symm.trans hnode)
  rw [List.flatten_singleton] at hnested
  refine ⟨hentries, fun id => ?_, ?_⟩
  · have hnodes : members.map (fun s => s.node) = [some 3, some 5] := by
      rw [← hnested]
      decide +kernel
    rw [← hmembers.mem_iff, hnodes]
    simp
  · have hinner : (some 5, 1, .function, some 3) ∈
        members.map fun s => (s.node, s.level, s.kind, s.parent.node) := by
      rw [← hnested, hentries]
      simp
    obtain ⟨s, hs, hentry⟩ := List.mem_map.mp hinner
    obtain ⟨id, hplaced⟩ := hmembers.placed s hs
    have hlevel := hplaced.level_eq
    simp only [Prod.mk.injEq, hplaced.node_eq, Option.some.injEq] at hentry
    obtain ⟨rfl, hlevelOne, -⟩ := hentry
    omega

end TreeExtraction

end Outline

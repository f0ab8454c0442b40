import Mathlib.Data.List.Flatten
import Mathlib.Data.List.Nodup
import Mathlib.Data.List.Perm.Basic
import Outline.Proofs.Extraction.Fallback
import Outline.Tree.Walk

/-!
# No node is read twice

Two walks read the named structures of a tree: one for declarations, which starts at the root, and
one for members, which starts anew at every container.  Both go down the tree, so a node can only
come up twice if it lies below two of the places where a walk goes on.  In a tree it does not:
nodes that are added one after the other have one parent each (`IsBuilt.isLinked`), the subtrees
of different children are disjoint (`IsLinked.eq_of_mem_subtree`), and below a declaration the walk
for declarations stops where the walk for members begins.  The one declaration behind which it goes
on is an export, and an export is no container.

So if every declaration is followed by its members, what is read is in reading order, and part of
the list of all nodes (`nodes_declarations_sublist`).

* `SyntaxTree.IsBuilt`: the trees that can be put together.
* `SyntaxTree.IsLinked`: a child knows its parent and is entered once.
* `nodup_named_of_isLinked`: no identity comes up twice among the structures of a tree.
-/

namespace Outline

namespace SyntaxTree

/-! ## Parents -/

/-- The trees that can be put together: nodes over a source, added one after the other. -/
inductive IsBuilt : SyntaxTree → Prop
  | ofSource (source : Text) : IsBuilt (ofSource source)
  | add {t : SyntaxTree} (h : IsBuilt t) (parent : Option Nat) (kind : String)
      (field : Option String) (startByte stopByte : Nat) :
      IsBuilt (t.add parent kind field startByte stopByte)

/-- A child knows its parent, and is entered once. -/
structure IsLinked (t : SyntaxTree) : Prop where
  parent_of_child : ∀ p, ∀ c ∈ t.children p, t.parent? c = some p
  nodup_children : ∀ p, (t.children p).Nodup

section Add

variable (t : SyntaxTree) (parent : Option Nat) (kind : String) (field : Option String)
  (startByte stopByte : Nat)

/-- The node that is added. -/
theorem get?_add_size : (t.add parent kind field startByte stopByte).get? t.size = some
    { kind, field, named := isName kind, isError := kind == "ERROR", startByte, stopByte
      start := t.pointAt startByte, stop := t.pointAt stopByte, parent, children := [] } := by
  cases parent with
  | none => exact Array.getElem?_push_size
  | some p =>
    have hlast : ∀ (nodes : Array Node) (n : Node), nodes.size = t.size →
        (nodes.push n)[t.size]? = some n := by
      intro nodes n hsize
      rw [← hsize, Array.getElem?_push_size]
    exact hlast _ _ Array.size_modify

/-- Of the other nodes only the parent changes, and only in its children. -/
theorem get?_add_of_ne {id : Nat} (h : id ≠ t.size) :
    (t.add parent kind field startByte stopByte).get? id = (t.get? id).map fun m =>
      if parent = some id then { m with children := m.children ++ [t.size] } else m := by
  rw [size] at h
  cases parent with
  | none =>
    rw [get?, add, Array.getElem?_push, if_neg h]
    simp [get?]
  | some p =>
    rw [get?, add, Array.getElem?_push, Array.size_modify, if_neg h, Array.getElem?_modify]
    split
    · rename_i hp
      simp [hp, get?, size]
    · rename_i hp
      simp [hp, get?]

theorem parent?_add (id : Nat) : (t.add parent kind field startByte stopByte).parent? id =
    if id = t.size then parent else t.parent? id := by
  split
  · rename_i hid
    rw [hid, parent?, get?_add_size, Option.bind_some]
  · rename_i hid
    rw [parent?, get?_add_of_ne t parent kind field startByte stopByte hid, parent?]
    cases t.get? id with
    | none => rfl
    | some n =>
      rw [Option.map_some, Option.bind_some, Option.bind_some]
      split <;> rfl

theorem children_add (id : Nat) : (t.add parent kind field startByte stopByte).children id =
    t.children id ++ if parent = some id ∧ id < t.size then [t.size] else [] := by
  by_cases hid : id = t.size
  · have hold : t.children t.size = [] := by simp [children, get?, size]
    rw [hid, hold, children, get?_add_size, Option.map_some, Option.getD_some,
      if_neg fun h => Nat.lt_irrefl _ h.2]
    rfl
  · rw [children, get?_add_of_ne t parent kind field startByte stopByte hid, children]
    cases hn : t.get? id with
    | none =>
      have hge : t.size ≤ id := Array.getElem?_eq_none_iff.mp hn
      rw [if_neg fun h => Nat.not_lt.mpr hge h.2]
      rfl
    | some n =>
      have hlt : id < t.size := (Array.getElem?_eq_some_iff.mp hn).1
      by_cases hparent : parent = some id
      · simp [hparent, hlt]
      · simp [hparent]

end Add

variable {t : SyntaxTree}

theorem lt_size_of_mem_children {p c : Nat} (h : c ∈ t.children p) : c < t.size :=
  (lt_of_mem_children h).2

theorem isLinked_ofSource (source : Text) : (ofSource source).IsLinked where
  parent_of_child _ _ h := absurd h List.not_mem_nil
  nodup_children _ := List.nodup_nil

theorem IsLinked.add (h : t.IsLinked) (parent : Option Nat) (kind : String)
    (field : Option String) (startByte stopByte : Nat) :
    (t.add parent kind field startByte stopByte).IsLinked where
  parent_of_child p c hc := by
    rw [children_add, List.mem_append] at hc
    rw [parent?_add]
    rcases hc with hc | hc
    · have hlt := lt_size_of_mem_children hc
      rw [if_neg (Nat.ne_of_lt hlt)]
      exact h.parent_of_child p c hc
    · split at hc
      · rename_i hparent
        rw [if_pos (List.mem_singleton.mp hc)]
        exact hparent.1
      · exact absurd hc List.not_mem_nil
  nodup_children p := by
    rw [children_add]
    split
    · refine List.nodup_append.mpr ⟨h.nodup_children p, List.nodup_singleton _, ?_⟩
      intro c hc d hd
      rw [List.mem_singleton.mp hd]
      exact Nat.ne_of_lt (lt_size_of_mem_children hc)
    · rw [List.append_nil]
      exact h.nodup_children p

theorem IsBuilt.isLinked (h : t.IsBuilt) : t.IsLinked := by
  induction h with
  | ofSource source => exact isLinked_ofSource source
  | add h parent kind field startByte stopByte ih =>
    exact ih.add parent kind field startByte stopByte

/-! ## Subtrees -/

theorem le_of_mem_subtree {id x : Nat} : x ∈ t.subtree id → id ≤ x := by
  induction id using t.inductionOnChildren with
  | step id ih =>
    intro h
    rw [subtree_eq] at h
    rcases List.mem_cons.mp h with rfl | h
    · exact Nat.le_refl _
    · obtain ⟨c, hc, hx⟩ := List.mem_flatMap.mp h
      exact Nat.le_trans (Nat.le_of_lt (lt_of_mem_children hc).1) (ih c hc hx)

/-- A node of a subtree is its first one or a child of another one. -/
theorem eq_or_child_of_mem_subtree {id x : Nat} :
    x ∈ t.subtree id → x = id ∨ ∃ p ∈ t.subtree id, x ∈ t.children p := by
  induction id using t.inductionOnChildren with
  | step id ih =>
    intro h
    rw [subtree_eq] at h ⊢
    rcases List.mem_cons.mp h with rfl | h
    · exact Or.inl rfl
    · obtain ⟨c, hc, hx⟩ := List.mem_flatMap.mp h
      rcases ih c hc hx with rfl | ⟨p, hp, hchild⟩
      · exact Or.inr ⟨id, List.mem_cons_self, hc⟩
      · exact Or.inr ⟨p, List.mem_cons_of_mem id (List.mem_flatMap.mpr ⟨c, hc, hp⟩), hchild⟩

/-- Subtrees of two children have no node in common. -/
theorem IsLinked.eq_of_mem_subtree (h : t.IsLinked) {id c d : Nat} (hc : c ∈ t.children id)
    (hd : d ∈ t.children id) {x : Nat} (hxc : x ∈ t.subtree c) (hxd : x ∈ t.subtree d) : c = d := by
  -- from a common node both subtrees are left upwards by the same parents
  induction x using Nat.strongRecOn with
  | ind x ih =>
    have hbelow : ∀ {e p : Nat}, e ∈ t.children id → p ∈ t.subtree e → id < p := fun he hp =>
      Nat.lt_of_lt_of_le (lt_of_mem_children he).1 (le_of_mem_subtree hp)
    rcases eq_or_child_of_mem_subtree hxc with rfl | ⟨p, hp, hxp⟩
    · rcases eq_or_child_of_mem_subtree hxd with rfl | ⟨q, hq, hxq⟩
      · rfl
      · have hparent := h.parent_of_child q x hxq
        rw [h.parent_of_child id x hc] at hparent
        exact absurd (hbelow hd hq) (by rw [Option.some.inj hparent]; exact Nat.lt_irrefl q)
    · have hparent := h.parent_of_child p x hxp
      rcases eq_or_child_of_mem_subtree hxd with rfl | ⟨q, hq, hxq⟩
      · rw [h.parent_of_child id x hd] at hparent
        exact absurd (hbelow hc hp) (by rw [Option.some.inj hparent]; exact Nat.lt_irrefl p)
      · rw [h.parent_of_child q x hxq] at hparent
        rw [Option.some.inj hparent] at hq
        exact ih p (lt_of_mem_children hxp).1 hp hq

theorem IsLinked.nodup_subtree (h : t.IsLinked) (id : Nat) : (t.subtree id).Nodup := by
  induction id using t.inductionOnChildren with
  | step id ih =>
    rw [subtree_eq, List.nodup_cons]
    constructor
    · intro hmem
      obtain ⟨c, hc, hid⟩ := List.mem_flatMap.mp hmem
      have hlt := (lt_of_mem_children hc).1
      have hle := le_of_mem_subtree hid
      omega
    · refine List.nodup_flatMap.mpr ⟨ih, (h.nodup_children id).imp_of_mem ?_⟩
      intro c d hc hd hne x hxc hxd
      exact hne (h.eq_of_mem_subtree hc hd hxc hxd)

end SyntaxTree

/-! ## The walks -/

namespace TreeExtraction

variable {r : Rules} {t : SyntaxTree} {language : String}

/-- What is read below a node are nodes below it, in order. -/
theorem nodes_nestedBelow_sublist : ∀ (depth node : Nat) (parent : Ref) (level : Nat),
    ((nestedBelow r t language depth node parent level).map fun s => s.node).Sublist
      (((t.children node).flatMap t.subtree).map some)
  | 0, node, parent, level => List.nil_sublist _
  | depth + 1, node, parent, level => by
    rw [nestedBelow, List.map_flatMap, List.map_flatMap]
    refine List.Sublist.flatMap_right _ fun child _ => ?_
    rw [SyntaxTree.subtree_eq, List.map_cons]
    split
    · exact (nodes_nestedBelow_sublist depth child parent level).cons _
    · rename_i found hfound
      obtain ⟨kind, -, hstructure⟩ := Option.bind_eq_some_iff.mp hfound
      rw [List.map_cons, (node_of_structureOf? hstructure).1]
      exact (nodes_nestedBelow_sublist depth child found.ref (level + 1)).cons_cons _

/-- The nodes of the members of a structure. -/
def memberNodes (r : Rules) (t : SyntaxTree) (language : String) (maxDepth : Nat)
    (s : Structure) : List (Option Nat) :=
  if s.kind.isContainer then
    match s.node with
    | none => []
    | some node => (nestedBelow r t language maxDepth node s.ref 0).map fun s => s.node
  else []

theorem nodes_nested (maxDepth : Nat) (top : List Structure) :
    (nested r t language maxDepth top).map (fun s => s.node) =
      top.flatMap (memberNodes r t language maxDepth) := by
  induction top with
  | nil => rfl
  | cons s top ih =>
    rw [nested] at ih ⊢
    rw [List.flatMap_cons, ← ih, memberNodes]
    split
    · rename_i hcontainer
      rw [List.filter_cons, if_pos hcontainer, List.flatMap_cons, List.map_append]
      cases s.node <;> rfl
    · rename_i hcontainer
      rw [List.filter_cons, if_neg hcontainer, List.nil_append]

/-- If every declaration is followed by its members, the nodes of a subtree are read in order. -/
theorem nodes_declarations_sublist (maxDepth id : Nat) :
    ((declarations r t language id).flatMap fun s =>
      s.node :: memberNodes r t language maxDepth s).Sublist ((t.subtree id).map some) := by
  induction id using t.inductionOnChildren with
  | step id ih =>
    have hbelow : (((t.children id).flatMap (declarations r t language)).flatMap fun s =>
        s.node :: memberNodes r t language maxDepth s).Sublist
          (((t.children id).flatMap t.subtree).map some) := by
      rw [List.flatMap_assoc, List.map_flatMap]
      exact List.Sublist.flatMap_right _ ih
    rw [SyntaxTree.subtree_eq, List.map_cons]
    cases hlisted : listedKind? r t id with
    | none =>
      rw [declarations_of_not_listed hlisted]
      exact hbelow.cons _
    | some listed =>
      rw [declarations_of_listed hlisted]
      cases hfound : structureOf? r t language id (r.refine t id listed) with
      | none =>
        rw [Option.toList_none, List.nil_append]
        split
        · exact hbelow.cons _
        · exact List.nil_sublist _
      | some s =>
        obtain ⟨hnode, hkind⟩ := node_of_structureOf? hfound
        rw [Option.toList_some, List.singleton_append, List.flatMap_cons, List.cons_append, hnode]
        refine List.Sublist.cons_cons _ ?_
        split
        · -- an export has no members; what it exports is read as declarations
          rename_i hexport
          rw [memberNodes, hkind, hexport, if_neg (by decide), List.nil_append]
          exact hbelow
        · rw [List.flatMap_nil, List.append_nil, memberNodes, hnode]
          split
          · exact nodes_nestedBelow_sublist maxDepth id s.ref 0
          · exact List.nil_sublist _

/-- A whole file is one structure, and has no members. -/
theorem nested_of_wholeFile (h : r.wholeFile = true) (maxDepth : Nat) :
    nested r t language maxDepth (topLevel r t language) = [] := by
  rw [nested, topLevel_eq, if_pos h, wholeText?]
  split <;> rfl

theorem nodup_nodes (h : t.IsLinked) (maxDepth : Nat) :
    ((topLevel r t language).map (fun s => s.node) ++
      (nested r t language maxDepth (topLevel r t language)).map fun s => s.node).Nodup := by
  by_cases hwhole : r.wholeFile = true
  · rw [nested_of_wholeFile hwhole, topLevel_eq, if_pos hwhole, List.map_nil, List.append_nil]
    cases wholeText? t.source language t.root? with
    | none => exact List.nodup_nil
    | some s => exact List.nodup_singleton _
  · rw [nodes_nested, topLevel_eq, if_neg hwhole]
    cases t.root? with
    | none => exact List.nodup_nil
    | some root =>
      refine (List.map_append_flatMap_perm _ _ _).nodup_iff.mpr ?_
      refine List.Nodup.sublist (nodes_declarations_sublist maxDepth root) ?_
      exact (h.nodup_subtree root).map fun _ _ => Option.some.inj

end TreeExtraction

/-- The structures of a tree that is linked all have different nodes. -/
theorem nodup_named_of_isLinked {maxDepth : Nat} {content : Text} {language : String}
    {t : SyntaxTree} {found : Extraction} (h : t.IsLinked)
    (hfound : extractTree maxDepth content language t = .ok found) : found.named.Nodup := by
  obtain ⟨-, htiers⟩ := isFromTree_of_extractTree hfound
  refine List.Nodup.of_map (fun s : Ref => s.node) ?_
  rw [Extraction.named, List.map_append, List.map_map, List.map_map, htiers.nested_eq,
    htiers.topLevel_eq]
  exact TreeExtraction.nodup_nodes h maxDepth

end Outline

import Outline.Proofs.Tree.Forest

/-!
# Upwards

A search for an ancestor follows the parents that nodes name, and has no bound of its own.  In a
tree whose nodes are added under nodes that are there, a parent has a smaller number than its child
(`IsGrown.parent_lt`), so the search comes to an end in fewer steps than there are numbers below
that of the node (`searchUp_ancestorFrom?`); a tree with a circle of parents is the only place where
it would not.  In such a tree the way up is the way down turned round: a node is the parent of those
that are its children (`IsGrown.mem_children_iff`), so each step of the search comes to the ancestor
that lies one step further above the node.

* `SyntaxTree.IsGrown`: the trees whose nodes are added under nodes that are there.
* `SyntaxTree.SearchUp`: a search upwards without a bound.
* `SyntaxTree.IsNearestAncestor`: the nearest ancestor of some kinds.
* `SyntaxTree.searchUp_findsNearest`: what is found.
-/

namespace Outline.SyntaxTree

/-! ## Parents that are there -/

/-- The trees whose nodes are added without a parent or under a node that is there. -/
inductive IsGrown : SyntaxTree → Prop
  | ofSource (source : Text) : IsGrown (ofSource source)
  | add {t : SyntaxTree} (h : IsGrown t) (parent : Option Nat) (hparent : ∀ p ∈ parent, p < t.size)
      (kind : String) (field : Option String) (startByte stopByte : Nat) :
      IsGrown (t.add parent kind field startByte stopByte)

variable {t : SyntaxTree} {kinds : List String}

theorem lt_size_of_parent? {c p : Nat} (h : t.parent? c = some p) : c < t.size := by
  obtain ⟨n, hn, -⟩ := Option.bind_eq_some_iff.mp h
  exact (Array.getElem?_eq_some_iff.mp hn).1

namespace IsGrown

theorem isBuilt (h : t.IsGrown) : t.IsBuilt := by
  induction h with
  | ofSource source => exact .ofSource source
  | add h parent hparent kind field startByte stopByte ih =>
    exact ih.add parent kind field startByte stopByte

theorem parent_lt (h : t.IsGrown) {c p : Nat} (hp : t.parent? c = some p) : p < c := by
  induction h with
  | ofSource source => exact absurd (lt_size_of_parent? hp) (Nat.not_lt_zero c)
  | add h parent hparent kind field startByte stopByte ih =>
    rw [parent?_add] at hp
    split at hp
    · rename_i hlast
      exact hlast ▸ hparent p hp
    · exact ih hp

/-- The children of a node are the nodes that name it as their parent. -/
theorem mem_children_iff (h : t.IsGrown) {p c : Nat} : c ∈ t.children p ↔ t.parent? c = some p := by
  rw [h.isBuilt.isForest.mem_children_iff]
  exact ⟨fun hc => hc.2.1, fun hp => ⟨lt_size_of_parent? hp, hp, h.parent_lt hp⟩⟩

/-- What lies above a node lies above its parent, one step nearer. -/
theorem stepsBelow_succ_iff (h : t.IsGrown) {a steps c : Nat} :
    t.StepsBelow a (steps + 1) c ↔ ∃ p, t.parent? c = some p ∧ t.StepsBelow a steps p := by
  constructor
  · rintro (_ | @⟨_, p, _, hp, hc⟩)
    exact ⟨p, h.mem_children_iff.mp hc, hp⟩
  · rintro ⟨p, hp, hsteps⟩
    exact .child hsteps (h.mem_children_iff.mpr hp)

/-- So many steps above a node there is one node at most. -/
theorem eq_of_stepsBelow (h : t.IsGrown) {a b steps c : Nat} (ha : t.StepsBelow a steps c)
    (hb : t.StepsBelow b steps c) : a = b := by
  induction steps generalizing c with
  | zero =>
    cases ha
    cases hb
    rfl
  | succ steps ih =>
    obtain ⟨p, hp, ha⟩ := h.stepsBelow_succ_iff.mp ha
    obtain ⟨q, hq, hb⟩ := h.stepsBelow_succ_iff.mp hb
    obtain rfl := Option.some.inj (hp.symm.trans hq)
    exact ih ha hb

end IsGrown

/-! ## The search -/

/-- What a search upwards comes to, in however many steps: it looks at a node and goes on with its
parent, and ends behind the top. -/
inductive SearchUp (t : SyntaxTree) (kinds : List String) : Option Nat → Option Nat → Prop
  | top : SearchUp t kinds none none
  | found {id : Nat} (h : t.kind id ∈ kinds) : SearchUp t kinds (some id) (some id)
  | up {id : Nat} {found : Option Nat} (h : t.kind id ∉ kinds)
      (hup : SearchUp t kinds (t.parent? id) found) : SearchUp t kinds (some id) found

theorem SearchUp.eq {start a b : Option Nat} (ha : t.SearchUp kinds start a)
    (hb : t.SearchUp kinds start b) : a = b := by
  induction ha with
  | top =>
    cases hb
    rfl
  | found h =>
    cases hb with
    | found => rfl
    | up hnot => exact absurd h hnot
  | up hnot _ ih =>
    cases hb with
    | found h => exact absurd h hnot
    | up _ hb => exact ih hb

/-- A search with a bound above the number of its first node is a search without one. -/
theorem searchUp_ancestorFrom? (h : t.IsGrown) : ∀ (fuel : Nat) (start : Option Nat),
    (∀ id ∈ start, id < fuel) → t.SearchUp kinds start (t.ancestorFrom? kinds fuel start)
  | 0, none, _ => .top
  | 0, some id, hfuel => absurd (hfuel id rfl) (Nat.not_lt_zero id)
  | fuel + 1, none, _ => .top
  | fuel + 1, some id, hfuel => by
    rw [ancestorFrom?]
    split
    · rename_i hkind
      exact .found (List.contains_iff_mem.mp hkind)
    · rename_i hkind
      refine .up (fun hlisted => hkind (List.contains_iff_mem.mpr hlisted))
        (searchUp_ancestorFrom? h fuel _ fun p hp => ?_)
      exact Nat.lt_of_lt_of_le (h.parent_lt hp) (Nat.le_of_lt_succ (hfuel id rfl))

theorem searchUp_ancestor? (h : t.IsGrown) (id : Nat) :
    t.SearchUp kinds (t.parent? id) (t.ancestor? id kinds) := by
  refine searchUp_ancestorFrom? h _ _ fun p hp => ?_
  have hlt := h.parent_lt hp
  have hid := lt_size_of_parent? hp
  omega

/-! ## What is found -/

/-- A node above another one with one of the kinds, and no node of these kinds between the two. -/
def IsNearestAncestor (t : SyntaxTree) (kinds : List String) (a id : Nat) : Prop :=
  ∃ steps, t.StepsBelow a (steps + 1) id ∧ t.kind a ∈ kinds ∧
    ∀ nearer < steps, ∀ b, t.StepsBelow b (nearer + 1) id → t.kind b ∉ kinds

/-- A search finds the nearest ancestor, or there is none. -/
theorem SearchUp.isNearestAncestor (h : t.IsGrown) {start found : Option Nat}
    (hsearch : t.SearchUp kinds start found) : ∀ id, t.parent? id = start →
      (∀ a ∈ found, t.IsNearestAncestor kinds a id) ∧
      (found = none → ∀ a, t.IsAncestor a id → t.kind a ∉ kinds) := by
  induction hsearch with
  | top =>
    intro id hparent
    refine ⟨fun a ha => (Option.not_mem_none a ha).elim, fun _ a => ?_⟩
    rintro ⟨steps, hsteps⟩
    obtain ⟨p, hp, -⟩ := h.stepsBelow_succ_iff.mp hsteps
    exact absurd (hparent.symm.trans hp) (Option.some_ne_none p).symm
  | @found p hkind =>
    intro id hparent
    refine ⟨fun a ha => ?_, fun hnone => absurd hnone (Option.some_ne_none p)⟩
    obtain rfl := Option.some.inj ha
    exact ⟨0, h.stepsBelow_succ_iff.mpr ⟨p, hparent, .self⟩, hkind,
      fun nearer hlt => absurd hlt (Nat.not_lt_zero nearer)⟩
  | @up p found hkind _ ih =>
    intro id hparent
    obtain ⟨hsome, hnone⟩ := ih p rfl
    -- a step above the node is the parent itself, or a step above the parent
    have habove : ∀ {b steps}, t.StepsBelow b (steps + 1) id → t.StepsBelow b steps p := by
      intro b steps hsteps
      obtain ⟨q, hq, hsteps⟩ := h.stepsBelow_succ_iff.mp hsteps
      exact Option.some.inj (hparent.symm.trans hq) ▸ hsteps
    constructor
    · intro a ha
      obtain ⟨steps, hsteps, hlisted, hbetween⟩ := hsome a ha
      refine ⟨steps + 1, h.stepsBelow_succ_iff.mpr ⟨p, hparent, hsteps⟩, hlisted, ?_⟩
      intro nearer hlt b hb
      cases nearer with
      | zero =>
        cases habove hb
        exact hkind
      | succ nearer => exact hbetween nearer (Nat.lt_of_succ_lt_succ hlt) b (habove hb)
    · rintro hfound a ⟨steps, hsteps⟩
      cases steps with
      | zero =>
        cases habove hsteps
        exact hkind
      | succ steps => exact hnone hfound a ⟨steps, habove hsteps⟩

/-- There is one nearest ancestor at most. -/
theorem IsNearestAncestor.eq (h : t.IsGrown) {a b id : Nat} (ha : t.IsNearestAncestor kinds a id)
    (hb : t.IsNearestAncestor kinds b id) : a = b := by
  obtain ⟨m, ham, hlisted, hbelow⟩ := ha
  obtain ⟨n, hbn, hlisted', hbelow'⟩ := hb
  rcases Nat.lt_trichotomy m n with hlt | rfl | hgt
  · exact absurd hlisted (hbelow' m hlt a ham)
  · exact h.eq_of_stepsBelow ham hbn
  · exact absurd hlisted' (hbelow n hgt b hbn)

/-- If nodes are added under nodes that are there, a search upwards ends, whatever it looks for and
wherever it begins.  It finds the nearest ancestor of the kinds, and nothing exactly when no
ancestor is of these kinds. -/
theorem searchUp_findsNearest (h : t.IsGrown) (id : Nat) (kinds : List String) :
    (∀ found, t.SearchUp kinds (t.parent? id) found ↔ found = t.ancestor? id kinds) ∧
    (∀ a, t.ancestor? id kinds = some a ↔ t.IsNearestAncestor kinds a id) ∧
    (t.ancestor? id kinds = none ↔ ∀ a, t.IsAncestor a id → t.kind a ∉ kinds) := by
  have hsearch : t.SearchUp kinds (t.parent? id) (t.ancestor? id kinds) := searchUp_ancestor? h id
  obtain ⟨hsome, hnone⟩ := hsearch.isNearestAncestor h id rfl
  have hexists : ∀ a, t.IsNearestAncestor kinds a id → t.ancestor? id kinds ≠ none := by
    rintro a ⟨steps, hsteps, hlisted, -⟩ hfound
    exact hnone hfound a ⟨steps, hsteps⟩ hlisted
  refine ⟨fun found => ⟨fun hfound => hfound.eq hsearch, fun hfound => hfound ▸ hsearch⟩,
    fun a => ⟨hsome a, fun ha => ?_⟩, hnone, fun hkinds => ?_⟩
  · obtain ⟨b, hb⟩ := Option.ne_none_iff_exists'.mp (hexists a ha)
    rw [hb, (hsome b hb).eq h ha]
  · rw [Option.eq_none_iff_forall_not_mem]
    intro a ha
    obtain ⟨steps, hsteps, hlisted, -⟩ := hsome a ha
    exact hkinds a ⟨steps, hsteps⟩ hlisted

/-- A class in a class, with a method. -/
def innerClassTree : SyntaxTree :=
  ((((((ofSource "class A \x7b class B \x7b f() \x7b\x7d \x7d \x7d".toList).add
    none "program" none 0 30).add
    (some 0) "class_declaration" none 0 30).add
    (some 1) "class_body" (some "body") 8 30).add
    (some 2) "class_declaration" none 10 28).add
    (some 3) "class_body" (some "body") 18 28).add
    (some 4) "method_definition" none 20 26

theorem isGrown_innerClassTree : innerClassTree.IsGrown :=
  ((((((IsGrown.ofSource _).add none (by simp) _ _ _ _).add (some 0) (by decide) _ _ _ _).add
    (some 1) (by decide) _ _ _ _).add (some 2) (by decide) _ _ _ _).add
    (some 3) (by decide) _ _ _ _).add (some 4) (by decide) _ _ _ _

/-- The method lies in two classes and is found in the inner one; no module lies above it. -/
theorem searchUp_findsNearest_of_innerClass :
    innerClassTree.IsNearestAncestor ["class_declaration", "class"] 3 5 ∧
      innerClassTree.SearchUp ["module"] (some 4) none ∧
      ∀ a, innerClassTree.IsAncestor a 5 → innerClassTree.kind a ∉ ["module"] := by
  obtain ⟨-, hfound, -⟩ :=
    searchUp_findsNearest isGrown_innerClassTree 5 ["class_declaration", "class"]
  obtain ⟨hends, -, hnone⟩ := searchUp_findsNearest isGrown_innerClassTree 5 ["module"]
  have hmodule : innerClassTree.ancestor? 5 ["module"] = none := rfl
  have hparent : innerClassTree.parent? 5 = some 4 := rfl
  exact ⟨(hfound 3).mp (rfl), hparent ▸ (hends none).mpr hmodule.symm,
    hnone.mp hmodule⟩

end Outline.SyntaxTree

import Mathlib.Data.List.Flatten
import Outline.Proofs.Tree.Ancestors

/-!
# The nearest identifier

A path says which child to take at each step, by its place among the children.  The nodes so many
steps below a node make up a level; listed with their paths they are in the order of the paths,
because the levels below the children come one after the other (`pairwise_level`).  A level is also
what the level above leads to in one step (`nodesOf_succ_eq_flatMap_children`), and that is how the
search for an identifier comes from one to the next.  It looks at the levels in turn and takes the
first identifier of the first one that has any, so what it finds has the shortest path, and of those
that are as short the first one (`find?_eq_some_iff_of_pairwise`).  That it breaks off at an empty
level makes no difference, for then the levels below are empty too.

* `SyntaxTree.follow?`: the node at the end of a path.
* `SyntaxTree.level`: the nodes of a level with their paths.
* `SyntaxTree.IsFirstIdentifier`: the identifier with the first of the shortest paths.
* `SyntaxTree.nearestIdentifier_isFirst`: what is found.
-/

namespace Outline

/-- In a list in a strict order, a search finds the first of the members with a property. -/
theorem find?_eq_some_iff_of_pairwise {α : Type} {r : α → α → Prop} {l : List α}
    (h : l.Pairwise r) (hasymm : ∀ a b, r a b → ¬ r b a) {p : α → Bool} {a : α} :
    l.find? p = some a ↔ a ∈ l ∧ p a = true ∧ ∀ b ∈ l, r b a → p b = false := by
  constructor
  · intro hfind
    obtain ⟨hp, before, behind, rfl, hbefore⟩ := List.find?_eq_some_iff_append.mp hfind
    refine ⟨List.mem_append_right _ List.mem_cons_self, hp, fun b hb hba => ?_⟩
    rcases List.mem_append.mp hb with hb | hb
    · simpa using hbefore b hb
    · rcases List.mem_cons.mp hb with rfl | hb
      · exact absurd hba (hasymm b b hba)
      · have hab := (List.pairwise_cons.mp (List.pairwise_append.mp h).2.1).1 b hb
        exact absurd hba (hasymm a b hab)
  · rintro ⟨hmem, hp, hfirst⟩
    obtain ⟨before, behind, rfl⟩ := List.append_of_mem hmem
    refine List.find?_eq_some_iff_append.mpr ⟨hp, before, behind, rfl, fun b hb => ?_⟩
    rw [hfirst b (List.mem_append_left _ hb)
      ((List.pairwise_append.mp h).2.2 b hb a List.mem_cons_self)]
    rfl

namespace SyntaxTree

variable {t : SyntaxTree}

/-! ## Paths and levels -/

/-- The node to which a path leads: each entry of it is the place of a child. -/
def follow? (t : SyntaxTree) : Nat → List Nat → Option Nat
  | id, [] => some id
  | id, place :: path => (t.child? id place).bind fun c => t.follow? c path

/-- The nodes so many steps below a node with their paths, child by child. -/
def level (t : SyntaxTree) : Nat → Nat → List (List Nat × Nat)
  | 0, id => [([], id)]
  | depth + 1, id => (t.children id).zipIdx.flatMap fun child =>
      (t.level depth child.1).map fun below => (child.2 :: below.1, below.2)

theorem mem_level_iff {depth id x : Nat} {path : List Nat} :
    (path, x) ∈ t.level depth id ↔ path.length = depth ∧ t.follow? id path = some x := by
  induction depth generalizing id path with
  | zero =>
    cases path with
    | nil => simp [level, follow?, eq_comm]
    | cons place path => simp [level]
  | succ depth ih =>
    rw [level, List.mem_flatMap]
    constructor
    · rintro ⟨⟨c, place⟩, hc, hpath⟩
      obtain ⟨⟨below, y⟩, hbelow, heq⟩ := List.mem_map.mp hpath
      obtain ⟨rfl, rfl⟩ := Prod.mk.inj heq
      obtain ⟨hlength, hfollow⟩ := ih.mp hbelow
      exact ⟨congrArg (· + 1) hlength, Option.bind_eq_some_iff.mpr
        ⟨c, List.mem_zipIdx_iff_getElem?.mp hc, hfollow⟩⟩
    · rintro ⟨hlength, hfollow⟩
      cases path with
      | nil => exact absurd hlength (Nat.succ_ne_zero depth).symm
      | cons place path =>
        obtain ⟨c, hc, hfollow⟩ := Option.bind_eq_some_iff.mp hfollow
        exact ⟨(c, place), List.mem_zipIdx_iff_getElem?.mpr hc,
          List.mem_map.mpr ⟨(path, x), ih.mpr ⟨Nat.succ.inj hlength, hfollow⟩, rfl⟩⟩

theorem pairwise_zipIdx {α : Type} : ∀ (l : List α) (first : Nat),
    (l.zipIdx first).Pairwise fun a b => a.2 < b.2
  | [], _ => .nil
  | _ :: l, first =>
    .cons (fun _ hb => List.le_snd_of_mem_zipIdx hb) (pairwise_zipIdx l (first + 1))

/-- The nodes of a level stand in the order of their paths. -/
theorem pairwise_level (t : SyntaxTree) (depth id : Nat) :
    (t.level depth id).Pairwise fun a b => List.Lex (· < ·) a.1 b.1 := by
  induction depth generalizing id with
  | zero => exact List.pairwise_singleton _ _
  | succ depth ih =>
    rw [level, List.pairwise_flatMap]
    refine ⟨fun child _ => ?_, (pairwise_zipIdx _ 0).imp fun hlt a ha b hb => ?_⟩
    · rw [List.pairwise_map]
      exact (ih child.1).imp fun hlt => .cons hlt
    · obtain ⟨a, -, rfl⟩ := List.mem_map.mp ha
      obtain ⟨b, -, rfl⟩ := List.mem_map.mp hb
      exact .rel hlt

/-- The nodes of a level without their paths. -/
def nodesOf (t : SyntaxTree) (depth id : Nat) : List Nat := (t.level depth id).map Prod.snd

@[simp] theorem nodesOf_zero (t : SyntaxTree) (id : Nat) : t.nodesOf 0 id = [id] := rfl

theorem nodesOf_succ (t : SyntaxTree) (depth id : Nat) :
    t.nodesOf (depth + 1) id = (t.children id).flatMap (t.nodesOf depth) := by
  calc t.nodesOf (depth + 1) id
      = (t.children id).zipIdx.flatMap (fun child => t.nodesOf depth child.1) := by
        rw [nodesOf, level, List.map_flatMap]
        refine List.flatMap_congr fun child _ => ?_
        rw [List.map_map, nodesOf]
        rfl
    _ = ((t.children id).zipIdx.map Prod.fst).flatMap (t.nodesOf depth) := by
        rw [List.flatMap_map]
    _ = (t.children id).flatMap (t.nodesOf depth) := by
        rw [List.zipIdx_map_fst]

/-- A level is what the level above leads to in one step. -/
theorem nodesOf_succ_eq_flatMap_children (t : SyntaxTree) (depth id : Nat) :
    t.nodesOf (depth + 1) id = (t.nodesOf depth id).flatMap t.children := by
  induction depth generalizing id with
  | zero => rw [nodesOf_succ, nodesOf_zero, List.flatMap_singleton, funext t.nodesOf_zero,
      List.flatMap_singleton']
  | succ depth ih =>
    rw [nodesOf_succ, nodesOf_succ t depth, List.flatMap_assoc]
    exact List.flatMap_congr fun c _ => ih c

theorem mem_nodesOf_iff {depth id x : Nat} : x ∈ t.nodesOf depth id ↔ t.StepsBelow id depth x := by
  induction depth generalizing id with
  | zero =>
    rw [nodesOf_zero, List.mem_singleton]
    refine ⟨fun hx => hx ▸ .self, fun hx => ?_⟩
    cases hx
    rfl
  | succ depth ih =>
    rw [nodesOf_succ, List.mem_flatMap, stepsBelow_succ_iff]
    simp only [ih]

/-! ## Levels one after the other -/

/-- A path comes before another one: it is shorter, or as long and smaller at the first place where
they differ. -/
def Precedes (path other : List Nat) : Prop :=
  path.length < other.length ∨ path.length = other.length ∧ List.Lex (· < ·) path other

theorem Precedes.asymm {path other : List Nat} (h : Precedes path other) :
    ¬ Precedes other path := by
  rcases h with hlt | ⟨heq, hlt⟩
  · rintro (hgt | ⟨heq, -⟩) <;> omega
  · rintro (hgt | ⟨-, hgt⟩)
    · omega
    · exact List.lt_asymm hlt hgt

/-- The nodes of the levels down to a depth with their paths, level by level. -/
def levels (t : SyntaxTree) (depth id : Nat) : List (List Nat × Nat) :=
  (List.range (depth + 1)).flatMap fun steps => t.level steps id

theorem mem_levels_iff {depth id x : Nat} {path : List Nat} :
    (path, x) ∈ t.levels depth id ↔ path.length ≤ depth ∧ t.follow? id path = some x := by
  simp only [levels, List.mem_flatMap, List.mem_range, mem_level_iff, Nat.lt_succ_iff]
  exact ⟨fun ⟨_, hle, hlength, hfollow⟩ => ⟨hlength ▸ hle, hfollow⟩,
    fun ⟨hle, hfollow⟩ => ⟨_, hle, rfl, hfollow⟩⟩

theorem pairwise_levels (t : SyntaxTree) (depth id : Nat) :
    (t.levels depth id).Pairwise fun a b => Precedes a.1 b.1 := by
  have hlength : ∀ {steps a}, a ∈ t.level steps id → a.1.length = steps := fun h =>
    (mem_level_iff.mp h).1
  rw [levels, List.pairwise_flatMap]
  refine ⟨fun steps _ => ?_, List.pairwise_lt_range.imp fun hlt a ha b hb => Or.inl ?_⟩
  · refine (t.pairwise_level steps id).imp_of_mem fun ha hb hlt => Or.inr ⟨?_, hlt⟩
    rw [hlength ha, hlength hb]
  · rwa [hlength ha, hlength hb]

/-! ## The search -/

theorem searchLevel_of_some {x : Nat} : ∀ {level next : List Nat},
    level.find? t.isIdentifier = some x → t.searchLevel next level = .inl x
  | [], next, h => absurd h (Option.some_ne_none x).symm
  | id :: level, next, h => by
    rw [searchLevel]
    split
    · rename_i hid
      rw [List.find?_cons_of_pos hid] at h
      rw [Option.some.inj h]
    · rename_i hid
      rw [List.find?_cons_of_neg hid] at h
      exact searchLevel_of_some h

theorem searchLevel_of_none : ∀ {level : List Nat} (next : List Nat),
    level.find? t.isIdentifier = none →
      t.searchLevel next level = .inr (next ++ level.flatMap t.children)
  | [], next, _ => by rw [searchLevel, List.flatMap_nil, List.append_nil]
  | id :: level, next, h => by
    have hid : ¬ t.isIdentifier id = true := List.find?_eq_none.mp h id List.mem_cons_self
    rw [List.find?_cons_of_neg hid] at h
    rw [searchLevel, if_neg hid, searchLevel_of_none _ h, List.flatMap_cons, List.append_assoc]

theorem identifierInLevels?_of_some {depth : Nat} {first : List Nat} {x : Nat}
    (h : first.find? t.isIdentifier = some x) : t.identifierInLevels? depth first = some x := by
  unfold identifierInLevels?
  rw [searchLevel_of_some h]

theorem identifierInLevels?_zero_of_none {first : List Nat}
    (h : first.find? t.isIdentifier = none) : t.identifierInLevels? 0 first = none := by
  rw [identifierInLevels?, searchLevel_of_none [] h]

/-- What comes out of a search whose first level has no identifier: whether it breaks off or not, it
is what comes out of a search from the next level. -/
theorem identifierInLevels?_succ_of_none {depth : Nat} {first : List Nat}
    (h : first.find? t.isIdentifier = none) : t.identifierInLevels? (depth + 1) first =
      t.identifierInLevels? depth (first.flatMap t.children) := by
  have hempty : t.identifierInLevels? depth [] = none := by
    cases depth <;> rfl
  rw [identifierInLevels?, searchLevel_of_none [] h, List.nil_append]
  simp only
  split
  · rename_i hbreak
    rw [List.isEmpty_iff.mp hbreak, hempty]
  · rfl

/-- A search from a level on goes through this level and the ones below it. -/
theorem identifierInLevels?_eq_find? (t : SyntaxTree) (id depth start : Nat) :
    t.identifierInLevels? depth (t.nodesOf start id) =
      ((List.range' start (depth + 1)).flatMap fun steps => t.nodesOf steps id).find?
        t.isIdentifier := by
  induction depth generalizing start with
  | zero =>
    rw [List.range'_one, List.flatMap_singleton]
    cases hfirst : (t.nodesOf start id).find? t.isIdentifier with
    | some x => exact identifierInLevels?_of_some hfirst
    | none => exact identifierInLevels?_zero_of_none hfirst
  | succ depth ih =>
    rw [List.range'_succ, List.flatMap_cons, List.find?_append]
    cases hfirst : (t.nodesOf start id).find? t.isIdentifier with
    | some x => rw [identifierInLevels?_of_some hfirst, Option.some_or]
    | none =>
      rw [identifierInLevels?_succ_of_none hfirst, ← nodesOf_succ_eq_flatMap_children, ih,
        Option.none_or]

theorem identifierBelow?_eq_find? (t : SyntaxTree) (id depth : Nat) :
    t.identifierBelow? id depth =
      ((t.levels depth id).find? fun a => t.isIdentifier a.2).map Prod.snd := by
  have hnodes : (t.levels depth id).map Prod.snd =
      (List.range (depth + 1)).flatMap fun steps => t.nodesOf steps id := by
    rw [levels, List.map_flatMap]
    rfl
  rw [identifierBelow?, ← nodesOf_zero t id, identifierInLevels?_eq_find?, ← List.range_eq_range',
    ← hnodes, List.find?_map]
  rfl

/-- An identifier at the end of a path of no more steps than are allowed, while no path that comes
before this one leads to an identifier. -/
def IsFirstIdentifier (t : SyntaxTree) (depth id : Nat) (path : List Nat) (x : Nat) : Prop :=
  path.length ≤ depth ∧ t.follow? id path = some x ∧ t.kind x ∈ identifierKinds ∧
    ∀ other y, Precedes other path → t.follow? id other = some y → t.kind y ∉ identifierKinds

theorem isIdentifier_iff {x : Nat} : t.isIdentifier x = true ↔ t.kind x ∈ identifierKinds :=
  List.contains_iff_mem

theorem identifierBelow?_eq_some_iff {id depth x : Nat} : t.identifierBelow? id depth = some x ↔
    ∃ path, t.IsFirstIdentifier depth id path x := by
  rw [identifierBelow?_eq_find?, Option.map_eq_some_iff]
  constructor
  · rintro ⟨⟨path, y⟩, hfind, rfl⟩
    obtain ⟨hmem, hkind, hfirst⟩ := (find?_eq_some_iff_of_pairwise (t.pairwise_levels depth id)
      fun _ _ => Precedes.asymm).mp hfind
    obtain ⟨hle, hfollow⟩ := mem_levels_iff.mp hmem
    refine ⟨path, hle, hfollow, isIdentifier_iff.mp hkind, ?_⟩
    intro other y hprecedes hother hkind'
    have hle' : other.length ≤ depth := by
      rcases hprecedes with hlt | ⟨heq, -⟩ <;> omega
    have hnone := hfirst (other, y) (mem_levels_iff.mpr ⟨hle', hother⟩) hprecedes
    rw [isIdentifier_iff.mpr hkind'] at hnone
    exact Bool.noConfusion hnone
  · rintro ⟨path, hle, hfollow, hkind, hfirst⟩
    refine ⟨(path, x), (find?_eq_some_iff_of_pairwise (t.pairwise_levels depth id)
      fun _ _ => Precedes.asymm).mpr ⟨mem_levels_iff.mpr ⟨hle, hfollow⟩, isIdentifier_iff.mpr hkind,
      fun (other, y) hmem hprecedes => ?_⟩, rfl⟩
    rw [Bool.eq_false_iff]
    exact mt isIdentifier_iff.mp (hfirst other y hprecedes (mem_levels_iff.mp hmem).2)

/-- A search for an identifier finds one exactly when there is one at most so many steps below the
node, itself included.  What it finds is reached by the fewest steps, and among the identifiers that
are reached by as many it is the first one, child by child. -/
theorem nearestIdentifier_isFirst (t : SyntaxTree) (id depth : Nat) :
    ((t.identifierBelow? id depth).isSome = true ↔
      ∃ steps ≤ depth, ∃ x, t.StepsBelow id steps x ∧ t.kind x ∈ identifierKinds) ∧
    ∀ x, t.identifierBelow? id depth = some x ↔ ∃ path, t.IsFirstIdentifier depth id path x := by
  refine ⟨?_, fun x => identifierBelow?_eq_some_iff⟩
  rw [identifierBelow?, ← nodesOf_zero t id, identifierInLevels?_eq_find?, ← List.range_eq_range',
    List.find?_isSome]
  simp only [List.mem_flatMap, List.mem_range, Nat.lt_succ_iff, mem_nodesOf_iff, isIdentifier_iff]
  constructor
  · rintro ⟨x, ⟨steps, hle, hsteps⟩, hkind⟩
    exact ⟨steps, hle, x, hsteps, hkind⟩
  · rintro ⟨steps, hle, x, hsteps, hkind⟩
    exact ⟨x, ⟨steps, hle, hsteps⟩, hkind⟩

/-- A pointer to a function with a parameter, whose names are added from the right to the left. -/
def declaratorTree : SyntaxTree :=
  (((((ofSource "*f(int a)".toList).add
    none "function_declarator" none 0 9).add
    (some 0) "pointer_declarator" none 0 2).add
    (some 0) "parameter_list" none 2 9).add
    (some 2) "identifier" none 7 8).add
    (some 1) "identifier" none 1 2

example : declaratorTree.identifierBelow? 0 2 = some 4 ∧
    declaratorTree.identifierBelow? 0 1 = none := ⟨rfl, rfl⟩

end SyntaxTree

end Outline

import Mathlib.Data.List.Forall2
import Outline.Proofs.Relation.Containment
import Outline.Proofs.Sort

/-!
# Heritage edges and dependencies

A declaration with a base counts twice among the relations of a file: as something built upon, which
names the base, and, if the base is declared in the same file, as an edge between two structures.
Both are read off one list of links, so they come in the same order, and no link has an edge without
a dependency.  What has to be shown is that the two tell the same: which dependencies have an edge,
and which structures the edge joins.

Every link is of one shape (`isLink_of_mem_heritageLinks`), whether its names come from a tree, from
one of the forms of a header or from an implementation for a type: the base is looked for by its
name among all structures but the one that has the base.  The latter is the declaration itself,
except for an implementation, which speaks of a type by name (`bearerOf`).

* `heritageEdges`, `heritageDependencies`: what the links become.
* `Edge.Realises`: an edge and a dependency of the same link.
* `heritageEdges_realise`: the correspondence.
* `filter_isHeritage_edges_relate`, `filter_dependencies_relate`: these are the edges and
  dependencies of heritage among the relations of a file.
-/

namespace Outline

/-! ## Looking for types -/

/-- The first type with a name. -/
def firstType? (structures : List Ref) (name : String) : Option Ref :=
  structures.find? fun s => s.kind.isTypeLike && s.name == name

section FindType

variable {structures : List Ref} {name : String} {other p : Ref}

theorem of_findType?_eq_some (h : findType? structures name other = some p) :
    p ∈ structures ∧ p.kind.isTypeLike = true ∧ p.name = name ∧ p ≠ other := by
  have hp := List.find?_some h
  simp only [Bool.and_eq_true, beq_iff_eq, bne_iff_ne] at hp
  exact ⟨List.mem_of_find?_eq_some h, hp.1.1, hp.1.2, hp.2⟩

/-- Nothing is found if the structure that is left out is the only type with the name. -/
theorem findType?_eq_none_iff : findType? structures name other = none ↔
    ∀ p ∈ structures, p.kind.isTypeLike = true → p.name = name → p = other := by
  rw [findType?, List.find?_eq_none]
  refine forall₂_congr fun p _ => ?_
  simp only [Bool.and_eq_true, beq_iff_eq, bne_iff_ne, not_and, not_not]
  exact and_imp

/-- A structure that is no type is left out in any case. -/
theorem findType?_eq_firstType? (h : other.kind.isTypeLike = false) :
    findType? structures name other = firstType? structures name := by
  have hsame : (fun s : Ref => s.kind.isTypeLike && s.name == name && s != other) =
      fun s => s.kind.isTypeLike && s.name == name := by
    funext s
    by_cases hs : s = other
    · rw [hs, h, Bool.false_and, Bool.false_and]
    · rw [bne_iff_ne.mpr hs, Bool.and_true]
  rw [findType?, firstType?, hsame]

end FindType

/-! ## Links -/

/-- The name of the type in a header that implements something for a type. -/
def implementingType? (header : Text) : Option String := do
  let f ← implClause.first? header
  return String.ofList (baseName (← f.group? header 2))

/-- The structure that has the bases which a declaration names: the declaration itself, or the first
type with the name that an implementation is for, if there is one. -/
def bearerOf (r : Rules) (structures : List Ref) (lines : List Text) (s : Ref) : Ref :=
  if r.heritage = .implFor ∧ s.kind = .impl then
    ((implementingType? (headerText lines s.location)).bind (firstType? structures)).getD s
  else s

/-- The shape of every link. -/
structure HeritageLink.IsLink (r : Rules) (structures : List Ref) (lines : List Text)
    (l : HeritageLink) : Prop where
  source_mem : l.source ∈ structures
  child_eq : l.child = bearerOf r structures lines l.source
  parent_eq : l.parent = findType? structures l.target l.child

section Links

variable {r : Rules} {structures : List Ref} {lines : List Text} {l : HeritageLink} {s : Ref}

/-- The link of an implementation is that of the type it is for. -/
theorem isLink_of_implLink? (hs : s ∈ structures) (hheritage : r.heritage = .implFor)
    (hkind : s.kind = .impl) (h : implLink? structures (headerText lines s.location) s = some l) :
    l.IsLink r structures lines := by
  obtain ⟨f, hfirst, h⟩ := Option.bind_eq_some_iff.mp h
  obtain ⟨trait, -, h⟩ := Option.bind_eq_some_iff.mp h
  obtain ⟨type, htype, h⟩ := Option.bind_eq_some_iff.mp h
  obtain rfl := Option.some.inj h
  refine ⟨hs, ?_, rfl⟩
  have hname : implementingType? (headerText lines s.location) =
      some (String.ofList (baseName type)) := by
    rw [implementingType?, hfirst, Option.bind_eq_bind, Option.bind_some, htype]
    rfl
  have hother : s.kind.isTypeLike = false := by rw [hkind]; rfl
  rw [bearerOf, if_pos ⟨hheritage, hkind⟩, hname, Option.bind_some,
    ← findType?_eq_firstType? hother]

theorem isLink_of_mem_baseLinks {h : HeritageClause} (hs : s ∈ structures)
    (hs' : ¬ (r.heritage = .implFor ∧ s.kind = .impl)) (hl : l ∈ baseLinks structures s h) :
    l.IsLink r structures lines := by
  have hbearer : s = bearerOf r structures lines s := (if_neg hs').symm
  rw [baseLinks, List.mem_append, List.mem_map, List.mem_map] at hl
  rcases hl with ⟨name, -, rfl⟩ | ⟨name, -, rfl⟩
  · exact ⟨hs, hbearer, rfl⟩
  · exact ⟨hs, hbearer, rfl⟩

theorem isLink_of_mem_heritageLinks {content : Text} {tree : Option SyntaxTree}
    (h : l ∈ heritageLinks r structures content tree) : l.IsLink r structures content.lines := by
  rw [heritageLinks] at h
  split at h
  · exact absurd h List.not_mem_nil
  · obtain ⟨s, hs, hl⟩ := List.mem_flatMap.mp h
    have hs := (List.mem_filter.mp hs).1
    unfold linksOf at hl
    split at hl
    · rename_i himpl
      exact isLink_of_implLink? hs himpl.1 himpl.2 (Option.mem_toList.mp hl)
    · rename_i himpl
      exact isLink_of_mem_baseLinks hs himpl hl

end Links

/-! ## Edges and dependencies -/

/-- The edges of heritage, in the order in which they are found. -/
def heritageEdges (r : Rules) (structures : List Ref) (content : Text)
    (tree : Option SyntaxTree) : List Edge :=
  (heritageLinks r structures content tree).filterMap HeritageLink.edge?

/-- The dependencies of heritage, in the order in which they are found. -/
def heritageDependencies (r : Rules) (structures : List Ref) (content : Text)
    (tree : Option SyntaxTree) : List Dependency :=
  (heritageLinks r structures content tree).map HeritageLink.dependency

/-- Whether the base of a dependency was found in the file. -/
def Dependency.isResolved (d : Dependency) : Bool := d.confidence == .percent 90

/-- An edge says of structures what a dependency says by name: a type with the name of the base is
the parent of another structure, which has the base. -/
structure Edge.Realises (r : Rules) (structures : List Ref) (lines : List Text) (e : Edge)
    (d : Dependency) : Prop where
  kind_eq : e.kind = .extension ∧ d.kind = .inheritance ∨
    e.kind = .implementation ∧ d.kind = .implementation
  parent_mem : e.parent ∈ structures
  parent_isTypeLike : e.parent.kind.isTypeLike = true
  parent_name : e.parent.name = d.target
  parent_ne_child : e.parent ≠ e.child
  child_eq : ∃ s ∈ structures, d.source = some s ∧ e.child = bearerOf r structures lines s

namespace HeritageLink

variable {r : Rules} {structures : List Ref} {lines : List Text} {l : HeritageLink}

theorem isResolved_dependency (l : HeritageLink) :
    l.dependency.isResolved = l.parent.isSome := by
  have hne : (Single.percent 60 == Single.percent 90) = false := by decide +kernel
  rw [Dependency.isResolved, dependency]
  cases l.parent.isSome with
  | true => exact beq_self_eq_true _
  | false => exact hne

/-- The edge of a link says what its dependency says. -/
theorem IsLink.realises (h : l.IsLink r structures lines) {p : Ref} (hp : l.parent = some p)
    {e : Edge} (he : l.edge? = some e) : e.Realises r structures lines l.dependency := by
  obtain ⟨hmem, htype, hname, hne⟩ := of_findType?_eq_some (h.parent_eq ▸ hp)
  rw [edge?, hp, Option.map_some, Option.some_inj] at he
  subst he
  refine ⟨?_, hmem, htype, hname, hne, l.source, h.source_mem, rfl, h.child_eq⟩
  rw [dependency]
  cases l.implemented with
  | true => exact Or.inr ⟨rfl, rfl⟩
  | false => exact Or.inl ⟨rfl, rfl⟩

/-- Link by link, the edges are those of the dependencies whose base was found. -/
theorem forall₂_realises : ∀ {links : List HeritageLink},
    (∀ l ∈ links, l.IsLink r structures lines) →
      List.Forall₂ (Edge.Realises r structures lines) (links.filterMap edge?)
        ((links.map dependency).filter Dependency.isResolved)
  | [], _ => .nil
  | l :: links, h => by
    obtain ⟨hl, hlinks⟩ := List.forall_mem_cons.mp h
    have ih := forall₂_realises hlinks
    have hresolved := l.isResolved_dependency
    rw [List.map_cons]
    cases hp : l.parent with
    | none =>
      have hedge : l.edge? = none := by rw [edge?, hp, Option.map_none]
      rw [hp] at hresolved
      rw [List.filterMap_cons_none hedge, List.filter_cons_of_neg (by rw [hresolved]; decide)]
      exact ih
    | some p =>
      obtain ⟨e, hedge⟩ : ∃ e, l.edge? = some e := by rw [edge?, hp]; exact ⟨_, rfl⟩
      rw [hp] at hresolved
      rw [List.filterMap_cons_some hedge, List.filter_cons_of_pos hresolved]
      exact .cons (hl.realises hp hedge) ih

/-- The base of a link is found exactly if another structure is a type of its name. -/
theorem IsLink.confidence_cases (h : l.IsLink r structures lines) :
    (l.dependency.confidence = .percent 90 ∧ ∃ p ∈ structures, p.kind.isTypeLike = true ∧
        p.name = l.target ∧ p ≠ bearerOf r structures lines l.source) ∨
      l.dependency.confidence = .percent 60 ∧ ∀ p ∈ structures, p.kind.isTypeLike = true →
        p.name = l.target → p = bearerOf r structures lines l.source := by
  rw [dependency, ← h.child_eq]
  cases hp : l.parent with
  | none =>
    rw [h.parent_eq, findType?_eq_none_iff] at hp
    exact Or.inr ⟨rfl, hp⟩
  | some p =>
    obtain ⟨hmem, htype, hname, hne⟩ := of_findType?_eq_some (h.parent_eq ▸ hp)
    exact Or.inl ⟨rfl, p, hmem, htype, hname, hne⟩

end HeritageLink

/-- The edges of heritage correspond, one to one and in order, to the dependencies of heritage whose
base was found: each joins a type with the name of the base to another structure, which is the
declaration that names the base, or the type that it implements the base for.  A base is found
exactly if there is such a type, and all other dependencies have the lower confidence. -/
theorem heritageEdges_realise (r : Rules) (structures : List Ref) (content : Text)
    (tree : Option SyntaxTree) :
    List.Forall₂ (Edge.Realises r structures content.lines)
        (heritageEdges r structures content tree)
        ((heritageDependencies r structures content tree).filter Dependency.isResolved) ∧
      ∀ d ∈ heritageDependencies r structures content tree, ∃ s ∈ structures, d.source = some s ∧
        ((d.confidence = .percent 90 ∧ ∃ p ∈ structures, p.kind.isTypeLike = true ∧
            p.name = d.target ∧ p ≠ bearerOf r structures content.lines s) ∨
          d.confidence = .percent 60 ∧ ∀ p ∈ structures, p.kind.isTypeLike = true →
            p.name = d.target → p = bearerOf r structures content.lines s) := by
  refine ⟨HeritageLink.forall₂_realises fun l hl => isLink_of_mem_heritageLinks hl, ?_⟩
  intro d hd
  obtain ⟨l, hl, rfl⟩ := List.mem_map.mp hd
  have hlink := isLink_of_mem_heritageLinks hl
  exact ⟨l.source, hlink.source_mem, rfl, hlink.confidence_cases⟩

/-! ## Among the relations of a file -/

/-- Whether an edge comes from heritage. -/
def Edge.isHeritage (e : Edge) : Bool := e.kind == .extension || e.kind == .implementation

theorem HeritageLink.isHeritage_of_edge? {l : HeritageLink} {e : Edge} (h : l.edge? = some e) :
    e.isHeritage = true := by
  obtain ⟨p, -, rfl⟩ := Option.map_eq_some_iff.mp h
  rw [Edge.isHeritage]
  cases l.implemented with
  | true => rfl
  | false => rfl

theorem HeritageLink.kind_dependency_ne (l : HeritageLink) :
    (l.dependency.kind != .importing) = true := by
  rw [HeritageLink.dependency]
  cases l.implemented with
  | true => rfl
  | false => rfl

theorem filter_isHeritage_containment (strategy : StrengthStrategy) (structures : List Ref)
    (tree : Option SyntaxTree) :
    (containment strategy structures tree).filter Edge.isHeritage = [] := by
  refine List.filter_eq_nil_iff.mpr fun e he => ?_
  obtain ⟨i, j, -, -, -, hkind, -⟩ := mem_containment.mp he
  rw [Edge.isHeritage, hkind]
  decide

theorem filter_isHeritage_usageEdges (references : List Reference) :
    (usageEdges references).filter Edge.isHeritage = [] := by
  refine List.filter_eq_nil_iff.mpr fun e he => ?_
  rw [Edge.isHeritage, kind_of_mem_usageEdges he]
  decide

theorem filter_isHeritage_heritageEdges (r : Rules) (structures : List Ref) (content : Text)
    (tree : Option SyntaxTree) :
    (heritageEdges r structures content tree).filter Edge.isHeritage =
      heritageEdges r structures content tree := by
  refine List.filter_eq_self.mpr fun e he => ?_
  obtain ⟨l, -, hl⟩ := List.mem_filterMap.mp he
  exact HeritageLink.isHeritage_of_edge? hl

/-- The edges of a file are those of containment, of heritage and of usage, in this order, so the
ones of heritage come in the order in which they are found. -/
theorem filter_isHeritage_edges_relate (strategy : StrengthStrategy) (found : Extraction)
    (content : Text) : (relate strategy found content).edges.filter Edge.isHeritage =
      heritageEdges (rulesOf found.language) found.named content found.tree := by
  have hedges : (relate strategy found content).edges =
      containment strategy found.named found.tree ++
        heritageEdges (rulesOf found.language) found.named content found.tree ++
          usageEdges (findReferences (rulesOf found.language) found.named content found.tree) := rfl
  rw [hedges, List.filter_append, List.filter_append, filter_isHeritage_containment,
    filter_isHeritage_heritageEdges, filter_isHeritage_usageEdges, List.nil_append, List.append_nil]

/-- The dependencies of a file are its imports and those of heritage, sorted by line, and the
sorting can be done after the imports are left out. -/
theorem filter_dependencies_relate (strategy : StrengthStrategy) (found : Extraction)
    (content : Text) :
    ((relate strategy found content).dependencies.filter fun d => d.kind != .importing) =
      (heritageDependencies (rulesOf found.language) found.named content found.tree).mergeSort
        fun a b => a.line ≤ b.line := by
  have himports : (importDependencies found.named content).filter
      (fun d => d.kind != .importing) = [] := by
    refine List.filter_eq_nil_iff.mpr fun d hd => ?_
    obtain ⟨i, -, rfl⟩ := List.mem_map.mp hd
    exact Bool.false_ne_true
  have hlinks : (heritageDependencies (rulesOf found.language) found.named content
      found.tree).filter (fun d => d.kind != .importing) =
        heritageDependencies (rulesOf found.language) found.named content found.tree := by
    refine List.filter_eq_self.mpr fun d hd => ?_
    obtain ⟨l, -, rfl⟩ := List.mem_map.mp hd
    exact l.kind_dependency_ne
  have hline : ∀ a b : Dependency, decide (a.line ≤ b.line) = true ↔ a.line ≤ b.line :=
    fun a b => decide_eq_true_iff
  have hdependencies : (relate strategy found content).dependencies =
      (importDependencies found.named content ++ heritageDependencies (rulesOf found.language)
        found.named content found.tree).mergeSort fun a b => a.line ≤ b.line := rfl
  rw [hdependencies, ← mergeSort_filter hline, List.filter_append, himports, List.nil_append,
    hlinks]

end Outline

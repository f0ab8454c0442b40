import Outline.Language.Registry

/-!
# The rules of a language

Rules come from the entry of a language or, where there is none, from the union of all code
languages (`rulesOf_cases`); so what holds of all entries and of the union holds of all rules.

A looked-up kind may be corrected by the node itself.  The walk for declarations asks for the
corrected kind when it decides whether to go on below a node, while the table lists the kind before
correction.  For exports the two agree (`refine_eq_exportDecl_iff`): no correction ever gives an
export, and no language lists an export among the node types that it corrects.

The walk for statements looks for functions in the tables alone, while the functions it starts from
are told by their corrected kinds.  A correction may make a function of the declaration of a
variable, but no language lists such a declaration as a member; so among members the two agree as
well (`isFunctionLike_of_refine`).

A union asks its languages one after the other and keeps what is new, so a word is in it exactly
when one of the languages has it (`Rules.mem_union_iff`).
-/

namespace Outline

/-- The rules of a language are those of an entry, or those for languages without one. -/
theorem rulesOf_cases (language : String) :
    rulesOf language = genericRules ∨ ∃ e ∈ entries, rulesOf language = e.rules := by
  rw [rulesOf, lookupRules?]
  cases h : entries.find? fun e => e.language.names.contains (folded language) with
  | none => exact Or.inl rfl
  | some e => exact Or.inr ⟨e, List.mem_of_find?_eq_some h, rfl⟩

namespace Refinement

/-- The types of the nodes whose kind is corrected. -/
def nodeTypes : Refinement → List String
  | .asListed => []
  | .declarator => ["lexical_declaration", "variable_declaration"]
  | .typeBody => ["type_declaration"]
  | .capitals => ["assignment"]

theorem apply_of_notMem {r : Refinement} {t : SyntaxTree} {node : Nat}
    (h : t.kind node ∉ r.nodeTypes) (kind : Kind) : r.apply t node kind = kind := by
  cases r <;> simp_all [apply, nodeTypes]

/-- No correction makes an export of anything. -/
theorem apply_ne_exportDecl {r : Refinement} {t : SyntaxTree} {node : Nat} {kind : Kind}
    (h : kind ≠ .exportDecl) : r.apply t node kind ≠ .exportDecl := by
  cases r with
  | asListed => exact h
  | declarator =>
    simp only [apply, ofDeclarator]
    split
    · split
      · exact h
      · split
        · exact Kind.noConfusion
        · split
          · exact Kind.noConfusion
          · exact h
    · exact h
  | typeBody =>
    simp only [apply, ofTypeBody]
    split
    · split
      · exact Kind.noConfusion
      · split
        · exact Kind.noConfusion
        · exact Kind.noConfusion
    · exact h
  | capitals =>
    simp only [apply, ofCapitals]
    split
    · split
      · exact Kind.noConfusion
      · exact h
    · exact h

/-- A correction makes functions of functions, and of declarations of variables. -/
theorem isFunctionLike_of_apply {r : Refinement} {t : SyntaxTree} {node : Nat} {kind : Kind}
    (h : (r.apply t node kind).isFunctionLike = true) :
    kind.isFunctionLike = true ∨ r = .declarator ∧ t.kind node ∈ nodeTypes .declarator := by
  cases r with
  | asListed => exact Or.inl h
  | declarator =>
    by_cases hmem : t.kind node ∈ nodeTypes .declarator
    · exact Or.inr ⟨rfl, hmem⟩
    · rw [apply_of_notMem hmem] at h
      exact Or.inl h
  | typeBody =>
    simp only [apply, ofTypeBody] at h
    split at h
    · split at h
      · exact absurd h (by decide)
      · split at h
        · exact absurd h (by decide)
        · exact absurd h (by decide)
    · exact Or.inl h
  | capitals =>
    simp only [apply, ofCapitals] at h
    split at h
    · split at h
      · exact absurd h (by decide)
      · exact Or.inl h
    · exact Or.inl h

end Refinement

/-- No entry lists an export among the node types that it corrects. -/
theorem topLevelKind_ne_exportDecl_of_mem_entry : ∀ e ∈ entries,
    ∀ type ∈ e.rules.refinement.nodeTypes, e.rules.topLevelKind type ≠ some .exportDecl := by
  decide

/-- A listed node is an export after correction exactly when it is listed as one. -/
theorem refine_eq_exportDecl_iff {language : String} {t : SyntaxTree} {node : Nat} {listed : Kind}
    (h : (rulesOf language).topLevelKind (t.kind node) = some listed) :
    (rulesOf language).refine t node listed = .exportDecl ↔ listed = .exportDecl := by
  refine ⟨fun hrefined => Classical.byContradiction fun hne =>
    Refinement.apply_ne_exportDecl hne hrefined, ?_⟩
  rintro rfl
  refine Refinement.apply_of_notMem (fun hmem => ?_) _
  rcases rulesOf_cases language with hr | ⟨e, he, hr⟩
  · rw [hr] at hmem
    exact absurd hmem List.not_mem_nil
  · rw [hr] at hmem h
    exact topLevelKind_ne_exportDecl_of_mem_entry e he _ hmem h

/-- No entry lists declarations of variables as members and makes functions of them. -/
theorem nestedKind_eq_none_of_mem_entry : ∀ e ∈ entries, e.rules.refinement = .declarator →
    ∀ type ∈ Refinement.nodeTypes .declarator, e.rules.nestedKind type = none := by
  decide

/-- A member that is a function after correction is listed as one. -/
theorem isFunctionLike_of_refine {language : String} {t : SyntaxTree} {node : Nat} {listed : Kind}
    (h : (rulesOf language).nestedKind (t.kind node) = some listed)
    (hfunction : ((rulesOf language).refine t node listed).isFunctionLike = true) :
    listed.isFunctionLike = true := by
  refine (Refinement.isFunctionLike_of_apply hfunction).resolve_right ?_
  rintro ⟨hdeclarator, hmem⟩
  rcases rulesOf_cases language with hr | ⟨e, he, hr⟩
  · rw [hr] at hdeclarator
    exact absurd hdeclarator (by decide)
  · rw [hr] at hdeclarator h
    rw [nestedKind_eq_none_of_mem_entry e he hdeclarator _ hmem] at h
    exact absurd h (by simp)

/-! ## Unions -/

namespace Rules

theorem mem_addWords {w : String} : ∀ {new known : List String},
    w ∈ addWords known new ↔ w ∈ known ∨ w ∈ new
  | [], known => by simp [addWords]
  | n :: new, known => by
    have hstep : addWords known (n :: new) =
        addWords (if known.contains n then known else known ++ [n]) new := rfl
    rw [hstep, mem_addWords, List.mem_cons]
    split
    · rename_i hn
      have hknown : w = n → w ∈ known := fun h => h ▸ List.contains_iff_mem.mp hn
      rw [← or_assoc, or_iff_left_of_imp hknown]
    · rw [List.mem_append, List.mem_singleton, or_assoc]

/-- A union has the words of all its languages. -/
theorem mem_union_iff (field : Union → List String) (words : NodeTypes → List String)
    (hempty : field {} = []) (hadd : ∀ u n, field (u.add n) = addWords (field u) (words n))
    {ls : List Language} {w : String} :
    w ∈ field (Union.ofLanguages ls) ↔ ∃ l ∈ ls, w ∈ words l.nodes := by
  have hfold : ∀ (ls : List Language) (u : Union),
      w ∈ field (ls.foldl (fun u l => u.add l.nodes) u) ↔
        w ∈ field u ∨ ∃ l ∈ ls, w ∈ words l.nodes := by
    intro ls
    induction ls with
    | nil => simp
    | cons l ls ih =>
      intro u
      rw [List.foldl_cons, ih, hadd, mem_addWords, or_assoc]
      simp only [List.mem_cons, or_and_right, exists_or, exists_eq_left]
  rw [Union.ofLanguages, hfold, hempty]
  simp

theorem isControlFlow_union_iff {ls : List Language} {text : Language} {type : String} :
    (union ls text).isControlFlow type = true ↔ ∃ l ∈ ls, type ∈ l.nodes.controlFlow := by
  have hfield : (union ls text).isControlFlow type =
      (Union.ofLanguages ls).controlFlow.contains type := rfl
  rw [hfield, List.contains_iff_mem]
  exact mem_union_iff (·.controlFlow) (·.controlFlow) rfl fun _ _ => rfl

theorem isNesting_union_iff {ls : List Language} {text : Language} {type : String} :
    (union ls text).isNesting type = true ↔ ∃ l ∈ ls, type ∈ l.nodes.nesting := by
  have hfield : (union ls text).isNesting type =
      (Union.ofLanguages ls).nesting.contains type := rfl
  rw [hfield, List.contains_iff_mem]
  exact mem_union_iff (·.nesting) (·.nesting) rfl fun _ _ => rfl

end Rules

end Outline

import Outline.Proofs.Extraction.Fallback
import Outline.Proofs.Extraction.LineOnce
import Outline.Proofs.Extraction.Members
import Outline.Proofs.Extraction.NodeOnce
import Outline.Proofs.Extraction.Statements
import Outline.Proofs.Extraction.Text
import Outline.Proofs.Language.Rules
import Outline.Proofs.Relation.Attribution

/-!
# What a reference to a variable means

The uses of variables are collected variable by variable, over all structures of a file, and then
thinned out by a key in which the variable does not occur.  What is left is therefore the use of the
first variable that a name on a line may mean (`Ref.answersTo`).  The structure that a use belongs
to is part of the key but makes no difference: it was searched for with the variable left out, and a
variable that is used on a line does not lie around it (`innermostWhere?_ne`), so all uses of a name
on a line have the same one.

The structures of the top level come first in the list, and so a nested variable is meant only where
none of the top level can be.  Whether there are nested variables at all depends on the tables of
the language.  In most languages the fields of a type are some, but only in trees; the keys of JSON
and YAML are some in text.

* `target_of_mem_references`: the first variable that a name may mean.
* `VariablesAreTopLevel`: that it is always one of the top level, `variablesAreTopLevel_iff` when.
* `isBinding_of_mem_nested_of_text`, `isBinding_of_mem_nested_of_tree`: languages without nested
  variables.
* `target_variableReference`: all of this for what is extracted from a text.
* `not_variablesAreTopLevel_of_keys`: a reference to a key.
-/

namespace Outline

open Pattern

/-! ## A name on a line -/

/-- Whether a name on a line may be a use of a structure: it is a variable or constant of this name,
and the line is none of its own. -/
def Ref.answersTo (name : String) (line : Nat) (s : Ref) : Bool :=
  s.kind.isBinding && s.name == name && !s.location.containsLine line

section

variable {structures : List Ref} {content : Text} {scope u v : Ref} {line : Nat}

theorem Ref.answersTo_iff {name : String} {s : Ref} : s.answersTo name line = true ↔
    s.kind.isBinding = true ∧ s.name = name ∧ s.location.containsLine line = false := by
  rw [answersTo, Bool.and_eq_true, Bool.and_eq_true, beq_iff_eq, Bool.not_eq_true', and_assoc]

theorem IsUse.answersTo (h : IsUse structures content v line) :
    v.answersTo v.name line = true := by
  obtain ⟨-, htracked, hown, -⟩ := h
  rw [isTrackedVariable, Bool.and_eq_true, Bool.and_eq_true] at htracked
  exact Ref.answersTo_iff.mpr ⟨htracked.1.1, rfl, hown⟩

/-- Whether the uses of a variable or constant are looked for depends on its name only. -/
theorem isTrackedVariable_of_answersTo (h : isTrackedVariable v = true)
    (hu : u.answersTo v.name line = true) : isTrackedVariable u = true := by
  obtain ⟨hbinding, hname, -⟩ := Ref.answersTo_iff.mp hu
  rw [isTrackedVariable, Bool.and_eq_true, Bool.and_eq_true] at h ⊢
  rw [hname]
  exact ⟨⟨hbinding, h.1.2⟩, h.2⟩

/-- A name that is used on a line is used as any structure that it may mean there. -/
theorem IsUse.of_answersTo (h : IsUse structures content v line) (hu : u ∈ structures)
    (hanswers : u.answersTo v.name line = true) : IsUse structures content u line := by
  obtain ⟨-, htracked, -, htext⟩ := h
  obtain ⟨-, hname, hown⟩ := Ref.answersTo_iff.mp hanswers
  refine ⟨hu, isTrackedVariable_of_answersTo htracked hanswers, hown, ?_⟩
  rwa [hname]

/-- A variable does not lie around a line that is none of its own, so it need not be left out in the
search for what does. -/
theorem innermostWhere?_ne (h : v.location.containsLine line = false) :
    innermostWhere? (· != v) structures line = innermost? structures line := by
  rw [innermost?, innermostWhere?, innermostWhere?]
  refine congrArg _ (List.filter_congr fun s _ => ?_)
  by_cases hs : s = v
  · rw [hs, h, Bool.and_false, Bool.and_false]
  · rw [bne_iff_ne.mpr hs]

/-- The key of a use has the name and the line in it, and nothing else of the variable. -/
theorem key_binding (h : IsUse structures content v line) :
    ((Mention.binding v).reference structures scope line).key =
      (ownerOf structures scope line, .variableName, v.name, line) := by
  have hsource : ((Mention.binding v).reference structures scope line).source =
      ownerOf structures scope line :=
    congrArg (Option.getD · scope) (innermostWhere?_ne h.2.2.1)
  rw [Reference.key, hsource]
  rfl

/-- What has no use with the key of another one is not meant by its name. -/
theorem answersTo_eq_false_of_find?_usesOf (h : IsUse structures content v line)
    (hu : u ∈ structures) (htracked : isTrackedVariable u = true)
    (hnone : (usesOf structures content scope u).find? (fun q =>
      q.key == ((Mention.binding v).reference structures scope line).key) = none) :
    u.answersTo v.name line = false := by
  refine Bool.eq_false_iff.mpr fun hanswers => ?_
  have huse := h.of_answersTo hu hanswers
  have hmem : (Mention.binding u).reference structures scope line ∈
      usesOf structures content scope u := (mem_usesOf_iff hu htracked).mpr ⟨line, huse, rfl⟩
  have hkey := List.find?_eq_none.mp hnone _ hmem
  rw [key_binding huse, key_binding h, (Ref.answersTo_iff.mp hanswers).2.1,
    beq_self_eq_true] at hkey
  exact hkey rfl

/-- Of the uses with a key the first one is that of the first structure that its name may mean. -/
theorem target_of_find?_variableReferences {r : Reference}
    (h : (variableReferences structures content scope).find? (fun q => q.key == r.key) = some r) :
    ∃ v, r.target = some v ∧ structures.find? (Ref.answersTo r.name r.line) = some v := by
  rw [variableReferences, List.find?_flatMap, List.findSome?_eq_some_iff] at h
  obtain ⟨before, v, after, hsplit, hr, hbefore⟩ := h
  have htracked : ∀ {w}, w ∈ before ++ v :: after →
      w ∈ structures ∧ isTrackedVariable w = true := by
    intro w hw
    rw [← hsplit] at hw
    exact List.mem_filter.mp hw
  obtain ⟨hv, hvtracked⟩ := htracked (List.mem_append_right before List.mem_cons_self)
  obtain ⟨line, huse, rfl⟩ := (mem_usesOf_iff hv hvtracked).mp (List.mem_of_find?_eq_some hr)
  have hfirst :
      (structures.filter isTrackedVariable).find? (Ref.answersTo v.name line) = some v := by
    rw [hsplit, List.find?_eq_some_iff_append]
    refine ⟨huse.answersTo, before, after, rfl, fun w hw => ?_⟩
    -- the uses of what stands before were asked for this key in vain
    obtain ⟨hmem, hwtracked⟩ := htracked (List.mem_append_left (v :: after) hw)
    rw [answersTo_eq_false_of_find?_usesOf huse hmem hwtracked (hbefore w hw)]
    rfl
  have htest : (fun w => decide (isTrackedVariable w = true ∧ w.answersTo v.name line = true)) =
      Ref.answersTo v.name line := by
    funext w
    rw [Bool.eq_iff_iff, decide_eq_true_iff]
    exact and_iff_right_of_imp (isTrackedVariable_of_answersTo hvtracked)
  rw [List.find?_filter, htest] at hfirst
  exact ⟨v, rfl, hfirst⟩

end

/-! ## The references to variables -/

/-- A reference to a variable or constant of the top level, on a line that is none of its own. -/
def Reference.IsToTopLevel (x : Extraction) (r : Reference) : Prop :=
  ∃ s ∈ x.topLevel, r.target = some s.ref ∧ s.kind.isBinding = true ∧
    s.location.containsLine r.line = false

/-- References to variables are references to the top level. -/
def VariablesAreTopLevel (x : Extraction) (references : List Reference) : Prop :=
  ∀ r ∈ references, r.kind = .variableName → r.IsToTopLevel x

section

variable {strategy : StrengthStrategy} {x : Extraction} {content : Text}

theorem kind_ne_variableName_of_mem_calls {r : Rules} {structures : List Ref}
    {tree : Option SyntaxTree} {ref : Reference}
    (h : ref ∈ calls r structures content tree ++
      typeReferences structures content (fileScope content)) : ref.kind ≠ .variableName := by
  rcases List.mem_append.mp h with h | h
  · cases tree with
    | none =>
      obtain ⟨name, line, -, rfl⟩ := mem_textCalls_iff.mp h
      exact ReferenceKind.noConfusion
    | some t =>
      obtain ⟨name, line, -, rfl⟩ := mem_treeCalls_iff.mp h
      exact ReferenceKind.noConfusion
  · obtain ⟨name, line, -, rfl⟩ := mem_typeReferences_iff.mp h
    exact ReferenceKind.noConfusion

/-- A name of a variable means the first structure that it may mean on its line. -/
theorem target_of_mem_references {r : Reference}
    (h : r ∈ (relate strategy x content).references) (hkind : r.kind = .variableName) :
    ∃ v, r.target = some v ∧ x.named.find? (Ref.answersTo r.name r.line) = some v := by
  have hfirst := mem_distinctBy_iff.mp (references_perm.mem_iff.mp h)
  -- the kind is part of the key, so the other passes do not come into it
  have hother : (calls (rulesOf x.language) x.named content x.tree ++
      typeReferences x.named content (fileScope content)).find?
        (fun q => q.key == r.key) = none := by
    refine List.find?_eq_none.mpr fun q hq hkey => ?_
    have hkeys : q.kind = r.kind := congrArg (fun k => k.2.1) (beq_iff_eq.mp hkey)
    exact kind_ne_variableName_of_mem_calls hq (hkeys.trans hkind)
  rw [allReferences, List.find?_append, hother, Option.none_or] at hfirst
  exact target_of_find?_variableReferences hfirst

/-- References to variables are references to the top level exactly if wherever a nested variable is
used, one of the top level can be meant. -/
theorem variablesAreTopLevel_iff :
    VariablesAreTopLevel x (relate strategy x content).references ↔
      ∀ s ∈ x.nested, ∀ line, IsUse x.named content s.ref line →
        ∃ v ∈ x.topLevel, v.ref.answersTo s.name line = true := by
  constructor
  · intro h s hs line huse
    obtain ⟨r, hr, hkind, hname, hline⟩ :=
      exists_mem_references_of_standsOn (m := .binding s.ref) huse
    obtain ⟨v, hv, htarget, hbinding, hown⟩ := h r hr hkind
    obtain ⟨w, hw, hfound⟩ := target_of_mem_references hr hkind
    obtain rfl : v.ref = w := Option.some.inj (htarget.symm.trans hw)
    have hanswers := List.find?_some hfound
    rw [hname, hline] at hanswers
    exact ⟨v, hv, hanswers⟩
  · intro h r hr hkind
    obtain ⟨v, htarget, hfound⟩ := target_of_mem_references hr hkind
    rw [Extraction.named, List.find?_append, Option.or_eq_some_iff] at hfound
    rcases hfound with hfound | ⟨hnone, hfound⟩
    · obtain ⟨s, hs, rfl⟩ := List.mem_map.mp (List.mem_of_find?_eq_some hfound)
      obtain ⟨hbinding, -, hown⟩ := Ref.answersTo_iff.mp (List.find?_some hfound)
      exact ⟨s, hs, htarget, hbinding, hown⟩
    · -- a nested variable is meant, so one of the top level would have been
      obtain ⟨s, hs, rfl⟩ := List.mem_map.mp (List.mem_of_find?_eq_some hfound)
      obtain ⟨line, m, hm, rfl⟩ := exists_mention_of_mem_references hr
      cases m with
      | call name => exact ReferenceKind.noConfusion hkind
      | type name => exact ReferenceKind.noConfusion hkind
      | binding w =>
        obtain rfl : w = s.ref := Option.some.inj htarget
        obtain ⟨v, hv, hanswers⟩ := h s hs line hm
        exact absurd hanswers (List.find?_eq_none.mp hnone v.ref (List.mem_map.mpr ⟨v, hv, rfl⟩))

end

/-! ## Members that are variables -/

theorem isBinding_memberKind (parent kind : Kind) :
    (memberKind parent kind).isBinding = kind.isBinding := by
  cases kind <;> cases h : parent.ownsMethods <;> simp [memberKind, h, Kind.isBinding]

theorem TextExtraction.isBinding_of_mem_nested {r : Rules} {content : Text} {language : String}
    {top : List Structure} (hr : ∀ rule ∈ r.patterns .nested, rule.kind.isBinding = false)
    {s : NestedStructure} (h : s ∈ nested r content language top) : s.kind.isBinding = false := by
  obtain ⟨parent, -, -, hit, hhit, hat⟩ := mem_nested h
  obtain ⟨rule, hrule, f, -, rfl⟩ := Hit.mem_ofRules.mp hhit
  rw [eq_of_nestedAt? hat, isBinding_memberKind]
  exact hr rule hrule

namespace TreeExtraction

variable {r : Rules} {t : SyntaxTree} {language : String}

/-- The kind of a member was looked for at some node. -/
theorem exists_memberKindOf?_of_mem_nestedBelow {s : NestedStructure} :
    ∀ {depth node level : Nat} {parent : Ref},
      s ∈ nestedBelow r t language depth node parent level →
        ∃ kind id, memberKindOf? r t kind id = some s.kind
  | 0, _, _, _, h => absurd h List.not_mem_nil
  | depth + 1, _, _, parent, h => by
    obtain ⟨c, -, ⟨-, h⟩ | ⟨found, hfound, rfl | h⟩⟩ := mem_nestedBelow_succ_iff.mp h
    · exact exists_memberKindOf?_of_mem_nestedBelow h
    · obtain ⟨kind, hkind, hstructure⟩ := Option.bind_eq_some_iff.mp hfound
      obtain rfl := (node_of_structureOf? hstructure).2
      exact ⟨parent.kind, c, hkind⟩
    · exact exists_memberKindOf?_of_mem_nestedBelow h

theorem isBinding_of_mem_nested (hr : ∀ type kind, r.nestedKind type = some kind →
      type ∉ r.refinement.nodeTypes ∧ kind.isBinding = false)
    {maxDepth : Nat} {top : List Structure} {s : NestedStructure}
    (h : s ∈ nested r t language maxDepth top) : s.kind.isBinding = false := by
  obtain ⟨c, -, -, node, -, h⟩ := exists_container_of_mem_nested h
  obtain ⟨kind, id, hkind⟩ := exists_memberKindOf?_of_mem_nestedBelow h
  obtain ⟨-, listed, hlisted, hmember⟩ := memberKindOf?_eq_some_iff.mp hkind
  obtain ⟨hkept, hbinding⟩ := hr _ listed hlisted
  rw [← hmember, isBinding_memberKind, Rules.refine, Refinement.apply_of_notMem hkept]
  exact hbinding

end TreeExtraction

/-! ## Languages -/

/-- A looked-up kind is that of a row. -/
theorem NodeTypes.exists_row_of_kindOf? {rows : List (Kind × List String)} {type : String}
    {kind : Kind} (h : kindOf? rows type = some kind) : ∃ row ∈ rows, row.1 = kind := by
  obtain ⟨row, hrow, hkind⟩ := Option.map_eq_some_iff.mp h
  exact ⟨row, List.mem_of_find?_eq_some hrow, hkind⟩

theorem nestedKind_of_mem_entry {e : Entry} (he : e ∈ entries) :
    e.rules.nestedKind = NodeTypes.kindOf? e.language.nodes.nested := by
  rcases List.mem_append.mp he with he | he
  · obtain ⟨l, -, rfl⟩ := List.mem_map.mp he
    rfl
  · obtain ⟨l, -, rfl⟩ := List.mem_map.mp he
    rfl

/-- Only the patterns of JSON and YAML find variables inside other structures. -/
theorem isBinding_of_mem_patterns : ∀ e ∈ entries, e.rules.name ≠ "json" → e.rules.name ≠ "yaml" →
    ∀ rule ∈ e.rules.patterns .nested, rule.kind.isBinding = false := by
  decide

/-- Members are no variables in Python and Ruby, and are not corrected. -/
theorem isBinding_of_mem_nodes : ∀ e ∈ entries, e.rules.name = "python" ∨ e.rules.name = "ruby" →
    (∀ row ∈ e.language.nodes.nested, row.1.isBinding = false) ∧
      ∀ type ∈ e.rules.refinement.nodeTypes, e.rules.nestedKind type = none := by
  decide

section

variable {parser : Option ParserService} {maxDepth : Nat} {content : Text} {language : String}

theorem isBinding_of_mem_nested_of_text
    (h : (extractAll parser maxDepth content language).strategy = .text)
    (hjson : (rulesOf language).name ≠ "json") (hyaml : (rulesOf language).name ≠ "yaml") :
    ∀ s ∈ (extractAll parser maxDepth content language).nested, s.kind.isBinding = false := by
  intro s hs
  rw [extractAll_eq_of_strategy h] at hs
  refine TextExtraction.isBinding_of_mem_nested (fun rule hrule => ?_) hs
  rcases rulesOf_cases language with hr | ⟨e, he, hr⟩
  · rw [hr] at hrule
    exact absurd hrule List.not_mem_nil
  · rw [hr] at hjson hyaml hrule
    exact isBinding_of_mem_patterns e he hjson hyaml rule hrule

/-- What the rules of Python and Ruby list as a member is no variable and stays what it is. -/
theorem isBinding_of_nestedKind
    (hname : (rulesOf language).name = "python" ∨ (rulesOf language).name = "ruby") {type : String}
    {kind : Kind} (h : (rulesOf language).nestedKind type = some kind) :
    type ∉ (rulesOf language).refinement.nodeTypes ∧ kind.isBinding = false := by
  rcases rulesOf_cases language with hr | ⟨e, he, hr⟩
  · rw [hr] at hname
    exact absurd hname (by decide)
  · rw [hr] at hname h ⊢
    obtain ⟨hrows, hrefined⟩ := isBinding_of_mem_nodes e he hname
    refine ⟨fun htype => ?_, ?_⟩
    · rw [hrefined type htype] at h
      exact absurd h (by simp)
    · rw [nestedKind_of_mem_entry he] at h
      obtain ⟨row, hrow, rfl⟩ := NodeTypes.exists_row_of_kindOf? h
      exact hrows row hrow

theorem isBinding_of_mem_nested_of_tree
    (h : (extractAll parser maxDepth content language).strategy = .tree)
    (hlanguage : (rulesOf language).wholeFile = true ∨ (rulesOf language).name = "python" ∨
      (rulesOf language).name = "ruby") :
    ∀ s ∈ (extractAll parser maxDepth content language).nested, s.kind.isBinding = false := by
  intro s hs
  obtain ⟨t, found, hyields⟩ := exists_treeYields_of_strategy h
  have htiers := (isFromTree_of_extractTree hyields.extracted).2
  have hnested : s ∈ TreeExtraction.nested (rulesOf language) t language maxDepth
      (TreeExtraction.topLevel (rulesOf language) t language) := by
    rw [← htiers.topLevel_eq, ← htiers.nested_eq]
    rwa [hyields.extractAll_eq] at hs
  rcases hlanguage with hwhole | hname
  · rw [TreeExtraction.nested_of_wholeFile hwhole] at hnested
    exact absurd hnested List.not_mem_nil
  · exact TreeExtraction.isBinding_of_mem_nested
      (fun type kind hlisted => isBinding_of_nestedKind hname hlisted) hnested

end

/-- Where no nested structure is a variable, references to variables are references to the top
level. -/
theorem variablesAreTopLevel_of_isBinding {strategy : StrengthStrategy} {x : Extraction}
    {content : Text} (h : ∀ s ∈ x.nested, s.kind.isBinding = false) :
    VariablesAreTopLevel x (relate strategy x content).references := by
  refine variablesAreTopLevel_iff.mpr fun s hs line huse => ?_
  have hbinding := (Ref.answersTo_iff.mp huse.answersTo).1
  exact absurd ((h s hs).symm.trans hbinding) Bool.false_ne_true

/-- A name that is used as a variable means the first structure of the file, the top level first,
that is a variable or constant of this name and has not the line among its own.  So references to
variables are references to the top level exactly if, wherever a nested variable is used, one of the
top level can be meant.  In text this is so in all languages but JSON and YAML, whose keys are
nested variables; and in trees in those languages where no members are variables: in Python, in
Ruby, and where the whole file is one structure. -/
theorem target_variableReference (parser : Option ParserService) (strategy : StrengthStrategy)
    (maxDepth : Nat) (content : Text) (language : String) :
    let x := extractAll parser maxDepth content language
    let references := (relate strategy x content).references
    (∀ r ∈ references, r.kind = .variableName → ∃ v ∈ x.named, r.target = some v ∧
      v.kind.isBinding = true ∧ v.location.containsLine r.line = false ∧
        x.named.find? (Ref.answersTo r.name r.line) = some v) ∧
    (VariablesAreTopLevel x references ↔ ∀ s ∈ x.nested, ∀ line,
      IsUse x.named content s.ref line → ∃ v ∈ x.topLevel, v.ref.answersTo s.name line = true) ∧
    (x.strategy = .text → (rulesOf language).name ≠ "json" → (rulesOf language).name ≠ "yaml" →
      VariablesAreTopLevel x references) ∧
    (x.strategy = .tree → (rulesOf language).wholeFile = true ∨ (rulesOf language).name = "python" ∨
      (rulesOf language).name = "ruby" → VariablesAreTopLevel x references) := by
  intro x references
  refine ⟨fun r hr hkind => ?_, variablesAreTopLevel_iff, fun h hjson hyaml => ?_,
    fun h hlanguage => ?_⟩
  · obtain ⟨v, htarget, hfound⟩ := target_of_mem_references hr hkind
    obtain ⟨hbinding, -, hown⟩ := Ref.answersTo_iff.mp (List.find?_some hfound)
    exact ⟨v, List.mem_of_find?_eq_some hfound, htarget, hbinding, hown, hfound⟩
  · exact variablesAreTopLevel_of_isBinding (isBinding_of_mem_nested_of_text h hjson hyaml)
  · exact variablesAreTopLevel_of_isBinding (isBinding_of_mem_nested_of_tree h hlanguage)

/-- A constant and a function that asks for it, in Python. -/
def limitText : Text := "LIMIT = 10\ndef check(n):\n  return n < LIMIT\n".toList

/-- The constant and the function, node by node. -/
def limitTree : SyntaxTree :=
  ((((SyntaxTree.ofSource limitText).add none "module" none 0 43).add
    (some 0) "assignment" none 0 10).add
    (some 1) "identifier" (some "left") 0 5).add
    (some 0) "function_definition" none 11 43

/-- The constant with its node, if there is a tree. -/
def limitRef (node : Option Nat) : Ref := ⟨.constantDecl, "LIMIT", .clamped 1 1, node⟩

/-- From text and from a tree, the constant is used in the function. -/
theorem target_variableReference_of_limit :
    let text := extractAll none 10 limitText "python"
    let tree := extractAll (some (.constant (.ok limitTree))) 10 limitText "python"
    ((∃ r ∈ (relate .sizeRatio text limitText).references,
        r.kind = .variableName ∧ r.name = "LIMIT" ∧ r.line = 3) ∧
      VariablesAreTopLevel text (relate .sizeRatio text limitText).references) ∧
    (∃ r ∈ (relate .sizeRatio tree limitText).references,
        r.kind = .variableName ∧ r.name = "LIMIT" ∧ r.line = 3) ∧
      VariablesAreTopLevel tree (relate .sizeRatio tree limitText).references := by
  intro text tree
  have huse : ∀ {structures : List Ref} {node : Option Nat}, limitRef node ∈ structures →
      IsUse structures limitText (limitRef node) 3 := by
    intro structures node hmem
    have htracked : isTrackedVariable (limitRef none) = true := by decide +kernel
    have hname : (chain [boundary, literal (limitRef none).name, boundary]).occursIn
        "  return n < LIMIT".toList = true := by decide +kernel
    exact ⟨hmem, htracked, rfl, _, by decide +kernel, hname⟩
  have hmem : limitRef none ∈ text.named := by
    obtain ⟨s, hs, href⟩ : ∃ s ∈ TextExtraction.announced (rulesOf "python") limitText "python",
        s.ref = limitRef none := by decide +kernel
    show _ ∈ (extractAll none 10 limitText "python").named
    rw [(TreeFails.absent rfl).extractAll_eq]
    exact List.mem_append_left _ (List.mem_map.mpr
      ⟨s, TextExtraction.declarations_perm_announced.mem_iff.mpr hs, href⟩)
  refine ⟨⟨?_, ?_⟩, ?_, ?_⟩
  · exact exists_mem_references_of_standsOn (m := .binding (limitRef none)) (huse hmem)
  · exact (target_variableReference none .sizeRatio 10 limitText "python").2.2.1 (by decide +kernel)
      (by decide +kernel) (by decide +kernel)
  · exact exists_mem_references_of_standsOn (m := .binding (limitRef (some 1)))
      (huse (by decide +kernel))
  · exact (target_variableReference _ .sizeRatio 10 limitText "python").2.2.2 (by decide +kernel)
      (Or.inr (Or.inl (by decide +kernel)))

/-- Two keys of an object, the first of which is the value of the second. -/
def keysText : Text := "\x7b\n  \"ab\": 1,\n  \"cd\": \"ab\"\n\x7d\n".toList

/-- The value is the name of the first key and refers to it, which is a variable inside the
document. -/
theorem not_variablesAreTopLevel_of_keys :
    ¬ VariablesAreTopLevel (extractAll none 10 keysText "json")
      (relate .sizeRatio (extractAll none 10 keysText "json") keysText).references := by
  intro h
  have hx : extractAll none 10 keysText "json" = extractText keysText "json" :=
    (TreeFails.absent rfl).extractAll_eq
  rw [hx] at h
  obtain ⟨key, hkey, href⟩ : ∃ s ∈ (extractText keysText "json").nested,
      s.ref = ⟨.variableDecl, "ab", .clamped 2 2, none⟩ := by
    simp only [extractText, TextExtraction.nested]
    rw [List.mergeSort_of_pairwise (by decide +kernel)]
    decide +kernel
  have huse : IsUse (extractText keysText "json").named keysText key.ref 3 := by
    refine ⟨List.mem_append_right _ (List.mem_map.mpr ⟨key, hkey, rfl⟩), ?_⟩
    rw [href]
    exact ⟨by decide +kernel, by decide +kernel, "  \"cd\": \"ab\"".toList, by decide +kernel,
      by decide +kernel⟩
  obtain ⟨s, hs, hanswers⟩ := variablesAreTopLevel_iff.mp h key hkey 3 huse
  have hnone : ∀ s ∈ (extractText keysText "json").topLevel, s.kind.isBinding = false := by
    decide +kernel
  have hbinding := (Ref.answersTo_iff.mp hanswers).1
  exact absurd ((hnone s hs).symm.trans hbinding) Bool.false_ne_true

end Outline

import Outline.Proofs.Extraction.Distinct
import Outline.Proofs.Smallest
import Outline.Proofs.Sort
import Outline.Relation.Analysis

/-!
# Whom a reference belongs to

Calls, names of types and names of variables are looked for in three passes, each with its own idea
of what counts.  What a pass makes of a place is the same for all three: it asks for the innermost
structure around the line and for what the name means, and neither of the two decides whether there
is a reference at all.  So the passes come down to one notion, that of a mention of a name on a line
(`Mention`, `mem_allReferences_iff`), and to one way of making a reference of it
(`Mention.reference`).  A mention whose name means nothing in the file is kept, without a target and
with less confidence.

The list is then thinned out by a key that contains the structure that the reference belongs to, and
sorted by line.  The first takes away no mention, since the key contains what is mentioned and
where; the second keeps the entries.

* `Mention.StandsOn`: what counts as a mention, pass by pass.
* `Reference.MayBelongTo`, `Reference.IsAttributed`: the structure that a reference belongs to.
* `Reference.IsResolved`: what it refers to, and how sure that is.
* `references_isAttributed`: all references of a file.
-/

namespace Outline

open Pattern

/-! ## Mentions -/

/-- What a place refers to by its name. -/
inductive Mention where
  | call (name : String)
  | type (name : String)
  /-- A variable or constant of the file. -/
  | binding (v : Ref)

/-- A node of a tree that calls a name which can be called. -/
def IsTreeCall (r : Rules) (t : SyntaxTree) (name : String) (line : Nat) : Prop :=
  isCallStopword name = false ∧ ∃ id n, t.get? id = some n ∧ n.named = true ∧
    r.isCall n.kind = true ∧ calleeName? t id = some name ∧ line = n.start.row + 1

/-- A name with a bracket after it, on a line of the text, that is not declared or constructed
there. -/
def IsTextCall (structures : List Ref) (content : Text) (name : String) (line : Nat) : Prop :=
  isCallStopword name = false ∧ (∀ s ∈ structures, s.location.start = line → s.name ≠ name) ∧
    ∃ text f start stop, (text, line) ∈ numberedLines content ∧ f ∈ callPattern.all text ∧
      f.span? 1 = some (start, stop) ∧ String.ofList (Found.cut text start stop) = name ∧
      declarationBefore.occursIn (text.take start) = false ∧
      constructionBefore.occursIn (text.take start) = false

/-- A capitalised name where a type is expected, on a line of the text that declares none. -/
def IsTypeName (structures : List Ref) (content : Text) (name : String) (line : Nat) : Prop :=
  2 ≤ name.length ∧ name ≠ "Self" ∧ declaresType structures line = false ∧
    ∃ text f t, (text, line) ∈ numberedLines content ∧ f ∈ typePattern.all text ∧
      f.group? text 1 = some t ∧ String.ofList t = name

/-- The name of a variable or constant, as a word, on a line outside of its own ones. -/
def IsUse (structures : List Ref) (content : Text) (v : Ref) (line : Nat) : Prop :=
  v ∈ structures ∧ isTrackedVariable v = true ∧ v.location.containsLine line = false ∧
    ∃ text, (text, line) ∈ numberedLines content ∧
      (chain [boundary, literal v.name, boundary]).occursIn text = true

namespace Mention

/-- The kind of reference that a mention is. -/
def kind : Mention → ReferenceKind
  | .call _ => .functionCall
  | .type _ => .typeName
  | .binding _ => .variableName

/-- The name that is mentioned. -/
def name : Mention → String
  | .call name => name
  | .type name => name
  | .binding v => v.name

/-- Whether something is mentioned on a line of a file.  Calls are those of the tree, if there is
one; all else is read from the text. -/
def StandsOn (r : Rules) (structures : List Ref) (content : Text) (tree : Option SyntaxTree)
    (line : Nat) : Mention → Prop
  | .call name => match tree with
    | some t => IsTreeCall r t name line
    | none => IsTextCall structures content name line
  | .type name => IsTypeName structures content name line
  | .binding v => IsUse structures content v line

/-- What a mention means. -/
def target? (structures : List Ref) : Mention → Option Ref
  | .call name => resolveCallee? structures name
  | .type name => structures.find? fun s => s.kind.isTypeLike && s.name == name
  | .binding v => some v

/-- How sure a reference with or without a target is. -/
def confidence (isResolved : Bool) : Mention → Single
  | .call _ => if isResolved then .percent 90 else .percent 50
  | .type _ => if isResolved then .percent 80 else .percent 40
  | .binding _ => .percent 70

/-- Whether a mention may belong to a structure: the use of a variable does not belong to it. -/
def allows : Mention → Ref → Bool
  | .call _, _ => true
  | .type _, _ => true
  | .binding v, s => s != v

/-- The reference that a mention on a line is. -/
def reference (structures : List Ref) (scope : Ref) (line : Nat) (m : Mention) : Reference where
  source := (innermostWhere? m.allows structures line).getD scope
  target := m.target? structures
  kind := m.kind
  name := m.name
  line := line
  confidence := m.confidence (m.target? structures).isSome

end Mention

section

variable {r : Rules} {structures : List Ref} {content : Text} {scope : Ref} {ref : Reference}

/-! ## The passes -/

theorem mem_treeCalls_iff {t : SyntaxTree} : ref ∈ treeCalls r structures t scope ↔
    ∃ name line, IsTreeCall r t name line ∧
      ref = (Mention.call name).reference structures scope line := by
  rw [treeCalls, List.mem_filterMap]
  constructor
  · rintro ⟨id, -, hid⟩
    obtain ⟨n, hn, hid⟩ := Option.bind_eq_some_iff.mp hid
    split at hid
    · exact absurd hid (by simp)
    · rename_i hcall
      rw [Bool.or_eq_true, not_or, Bool.not_eq_true', Bool.not_eq_true', Bool.not_eq_false,
        Bool.not_eq_false] at hcall
      obtain ⟨name, hname, hid⟩ := Option.bind_eq_some_iff.mp hid
      split at hid
      · exact absurd hid (by simp)
      · rename_i hstop
        exact ⟨name, _, ⟨Bool.eq_false_iff.mpr hstop, id, n, hn, hcall.1, hcall.2, hname, rfl⟩,
          (Option.some.inj hid).symm⟩
  · rintro ⟨name, line, ⟨hstop, id, n, hn, hnamed, hcall, hname, rfl⟩, rfl⟩
    have hlt : id < t.size := (Array.getElem?_eq_some_iff.mp hn).1
    refine ⟨id, List.mem_range.mpr hlt, ?_⟩
    simp only [callAt?, hn, hnamed, hcall, hname, hstop, Option.bind_eq_bind, Option.bind_some,
      Bool.not_true, Bool.or_self, Bool.false_eq_true, if_false]
    rfl

theorem mem_textCalls_iff : ref ∈ textCalls structures content scope ↔
    ∃ name line, IsTextCall structures content name line ∧
      ref = (Mention.call name).reference structures scope line := by
  have hdeclared : ∀ (name : String) (line : Nat),
      (structures.any fun s => s.location.start == line && s.name == name) = false ↔
        ∀ s ∈ structures, s.location.start = line → s.name ≠ name := by
    intro name line
    rw [List.any_eq_false]
    simp only [Bool.and_eq_true, beq_iff_eq, not_and, ne_eq]
  rw [textCalls, List.mem_flatMap]
  constructor
  · rintro ⟨⟨text, line⟩, hline, href⟩
    obtain ⟨f, hf, href⟩ := List.mem_filterMap.mp href
    obtain ⟨⟨start, stop⟩, hspan, href⟩ := Option.bind_eq_some_iff.mp href
    simp only at href
    split at href
    · exact absurd href (by simp)
    · rename_i hcounts
      rw [Bool.not_eq_true, Bool.or_eq_false_iff, Bool.or_eq_false_iff,
        Bool.or_eq_false_iff] at hcounts
      obtain ⟨⟨⟨hstop, hdecl⟩, hnew⟩, hown⟩ := hcounts
      exact ⟨_, line, ⟨hstop, (hdeclared _ _).mp hown, text, f, start, stop, hline, hf, hspan, rfl,
        hdecl, hnew⟩, (Option.some.inj href).symm⟩
  · rintro ⟨name, line, ⟨hstop, hown, text, f, start, stop, hline, hf, hspan, rfl, hdecl, hnew⟩,
      rfl⟩
    refine ⟨(text, line), hline, List.mem_filterMap.mpr ⟨f, hf, ?_⟩⟩
    simp only [callOfMatch?, hspan, hstop, (hdeclared _ _).mpr hown, hdecl, hnew,
      Option.bind_eq_bind, Option.bind_some, Bool.or_self, Bool.false_eq_true, if_false]
    rfl

theorem mem_typeReferences_iff : ref ∈ typeReferences structures content scope ↔
    ∃ name line, IsTypeName structures content name line ∧
      ref = (Mention.type name).reference structures scope line := by
  rw [typeReferences, List.mem_flatMap]
  constructor
  · rintro ⟨⟨text, line⟩, hline, href⟩
    obtain ⟨hline, hdeclares⟩ := List.mem_filter.mp hline
    obtain ⟨f, hf, href⟩ := List.mem_filterMap.mp href
    obtain ⟨t, ht, href⟩ := Option.bind_eq_some_iff.mp href
    simp only at href
    split at href
    · exact absurd href (by simp)
    · rename_i hcounts
      rw [Bool.not_eq_true, Bool.or_eq_false_iff, decide_eq_false_iff_not, Nat.not_lt,
        beq_eq_false_iff_ne] at hcounts
      exact ⟨_, line, ⟨hcounts.1, hcounts.2, by simpa using hdeclares, text, f, t, hline, hf, ht,
        rfl⟩, (Option.some.inj href).symm⟩
  · rintro ⟨name, line, ⟨hlength, hself, hdeclares, text, f, t, hline, hf, ht, rfl⟩, rfl⟩
    refine ⟨(text, line), List.mem_filter.mpr ⟨hline, by simp [hdeclares]⟩,
      List.mem_filterMap.mpr ⟨f, hf, ?_⟩⟩
    have hcounts :
        (decide ((String.ofList t).length < 2) || String.ofList t == "Self") = false := by
      rw [Bool.or_eq_false_iff, decide_eq_false_iff_not, Nat.not_lt, beq_eq_false_iff_ne]
      exact ⟨hlength, hself⟩
    simp only [typeOfMatch?, ht, hcounts, Option.bind_eq_bind, Option.bind_some,
      Bool.false_eq_true, if_false]
    rfl

/-- The uses of one variable. -/
theorem mem_usesOf_iff {v : Ref} (hv : v ∈ structures) (htracked : isTrackedVariable v = true) :
    ref ∈ usesOf structures content scope v ↔ ∃ line, IsUse structures content v line ∧
      ref = (Mention.binding v).reference structures scope line := by
  rw [usesOf, List.mem_map]
  constructor
  · rintro ⟨⟨text, line⟩, hline, rfl⟩
    obtain ⟨hline, huse⟩ := List.mem_filter.mp hline
    rw [Bool.and_eq_true, Bool.not_eq_true'] at huse
    exact ⟨line, ⟨hv, htracked, huse.1, text, hline, huse.2⟩, rfl⟩
  · rintro ⟨line, ⟨-, -, hown, text, hline, huse⟩, rfl⟩
    refine ⟨(text, line), List.mem_filter.mpr ⟨hline, ?_⟩, rfl⟩
    rw [Bool.and_eq_true, Bool.not_eq_true']
    exact ⟨hown, huse⟩

theorem mem_variableReferences_iff : ref ∈ variableReferences structures content scope ↔
    ∃ v line, IsUse structures content v line ∧
      ref = (Mention.binding v).reference structures scope line := by
  rw [variableReferences, List.mem_flatMap]
  constructor
  · rintro ⟨v, hv, href⟩
    obtain ⟨hv, htracked⟩ := List.mem_filter.mp hv
    exact ⟨v, (mem_usesOf_iff hv htracked).mp href⟩
  · rintro ⟨v, line, huse, rfl⟩
    exact ⟨v, List.mem_filter.mpr ⟨huse.1, huse.2.1⟩,
      (mem_usesOf_iff huse.1 huse.2.1).mpr ⟨line, huse, rfl⟩⟩

/-! ## All references -/

/-- What tells references apart. -/
def Reference.key (r : Reference) : Ref × ReferenceKind × String × Nat :=
  (r.source, r.kind, r.name, r.line)

/-- The calls of a file. -/
def calls (r : Rules) (structures : List Ref) (content : Text) :
    Option SyntaxTree → List Reference
  | some t => treeCalls r structures t (fileScope content)
  | none => textCalls structures content (fileScope content)

/-- The references of all passes, one after the other. -/
def allReferences (r : Rules) (structures : List Ref) (content : Text)
    (tree : Option SyntaxTree) : List Reference :=
  calls r structures content tree ++ typeReferences structures content (fileScope content) ++
    variableReferences structures content (fileScope content)

theorem findReferences_eq (r : Rules) (structures : List Ref) (content : Text)
    (tree : Option SyntaxTree) : findReferences r structures content tree =
      (distinctBy Reference.key (allReferences r structures content tree)).mergeSort
        fun a b => a.line ≤ b.line := by
  cases tree <;> rfl

/-- There is a reference for each mention. -/
theorem mem_allReferences_iff {tree : Option SyntaxTree} :
    ref ∈ allReferences r structures content tree ↔ ∃ line, ∃ m : Mention,
      m.StandsOn r structures content tree line ∧
        ref = m.reference structures (fileScope content) line := by
  have hcalls : ref ∈ calls r structures content tree ↔ ∃ name line,
      (Mention.call name).StandsOn r structures content tree line ∧
        ref = (Mention.call name).reference structures (fileScope content) line := by
    cases tree with
    | none => exact mem_textCalls_iff
    | some t => exact mem_treeCalls_iff
  rw [allReferences, List.mem_append, List.mem_append, hcalls, mem_typeReferences_iff,
    mem_variableReferences_iff]
  constructor
  · rintro ((⟨name, line, hm, rfl⟩ | ⟨name, line, hm, rfl⟩) | ⟨v, line, hm, rfl⟩)
    · exact ⟨line, .call name, hm, rfl⟩
    · exact ⟨line, .type name, hm, rfl⟩
    · exact ⟨line, .binding v, hm, rfl⟩
  · rintro ⟨line, m, hm, rfl⟩
    cases m with
    | call name => exact Or.inl (Or.inl ⟨name, line, hm, rfl⟩)
    | type name => exact Or.inl (Or.inr ⟨name, line, hm, rfl⟩)
    | binding v => exact Or.inr ⟨v, line, hm, rfl⟩

end

/-! ## Attribution -/

/-- A structure that what stands on a line may belong to: no import or export, and the line is one
of its own. -/
structure Ref.Covers (s : Ref) (line : Nat) : Prop where
  not_import : s.kind ≠ .importDecl
  not_export : s.kind ≠ .exportDecl
  start_le : s.location.start ≤ line
  le_stop : line ≤ s.location.stop

namespace Reference

/-- A structure that a reference may belong to; the use of a variable does not belong to the
variable. -/
def MayBelongTo (r : Reference) (s : Ref) : Prop :=
  s.Covers r.line ∧ (r.kind = .variableName → r.target ≠ some s)

/-- A reference belongs to the last of the smallest structures that it may belong to, and to the
whole file if there is none. -/
structure IsAttributed (structures : List Ref) (scope : Ref) (r : Reference) : Prop where
  innermost : (∃ s ∈ structures, r.MayBelongTo s) →
    IsLastSmallest (fun s : Ref => s.location.lineCount) r.MayBelongTo structures r.source
  outside : (∀ s ∈ structures, ¬ r.MayBelongTo s) → r.source = scope

/-- The target of a reference is a structure of its name.  A call has none if nothing but imports
and exports has the name, a type if no type has it; then the reference is less sure. -/
structure IsResolved (structures : List Ref) (r : Reference) : Prop where
  of_target : ∀ s, r.target = some s → s ∈ structures ∧ s.name = r.name
  call : r.kind = .functionCall →
    (r.target = none ↔ ∀ s ∈ structures, s.name = r.name → s.kind.isBorder = true) ∧
      r.confidence = if r.target = none then .percent 50 else .percent 90
  typeName : r.kind = .typeName →
    (r.target = none ↔ ∀ s ∈ structures, s.name = r.name → s.kind.isTypeLike = false) ∧
      r.confidence = if r.target = none then .percent 40 else .percent 80
  variableName : r.kind = .variableName →
    (∃ v, r.target = some v ∧ v.kind.isBinding = true) ∧ r.confidence = .percent 70

end Reference

theorem Ref.covers_iff {s : Ref} {line : Nat} :
    s.Covers line ↔ (!s.kind.isBorder && s.location.containsLine line) = true := by
  have hborder : s.kind.isBorder = false ↔ s.kind ≠ .importDecl ∧ s.kind ≠ .exportDecl := by
    cases s.kind <;> simp [Kind.isBorder]
  rw [Bool.and_eq_true, Bool.not_eq_true', hborder, Location.containsLine, Bool.and_eq_true,
    decide_eq_true_eq, decide_eq_true_eq]
  exact ⟨fun h => ⟨⟨h.not_import, h.not_export⟩, h.start_le, h.le_stop⟩,
    fun ⟨⟨himport, hexport⟩, hstart, hstop⟩ => ⟨himport, hexport, hstart, hstop⟩⟩

namespace Mention

variable {structures : List Ref} {scope : Ref} {line : Nat} {m : Mention}

theorem allows_iff (structures : List Ref) {s : Ref} : m.allows s = true ↔
    (m.kind = .variableName → m.target? structures ≠ some s) := by
  cases m with
  | call name => simp [allows, kind]
  | type name => simp [allows, kind]
  | binding v =>
    rw [allows, bne_iff_ne, ne_comm]
    simp [kind, target?]

/-- The test that the search applies. -/
theorem mayBelongTo_iff {s : Ref} : (m.reference structures scope line).MayBelongTo s ↔
    (!s.kind.isBorder && m.allows s && s.location.containsLine line) = true := by
  rw [Bool.and_right_comm, Bool.and_eq_true, allows_iff structures, ← Ref.covers_iff]
  rfl

theorem isAttributed_reference :
    (m.reference structures scope line).IsAttributed structures scope := by
  have hsource : (m.reference structures scope line).source =
      (innermostWhere? m.allows structures line).getD scope := rfl
  constructor
  · rintro ⟨s, hs, hmay⟩
    cases hfound : innermostWhere? m.allows structures line with
    | none =>
      have hnil := List.filter_eq_nil_iff.mp (lastSmallest?_eq_none_iff.mp hfound)
      exact absurd (mayBelongTo_iff.mp hmay) (hnil s hs)
    | some owner =>
      have htest : (m.reference structures scope line).MayBelongTo = fun s =>
          (!s.kind.isBorder && m.allows s && s.location.containsLine line) = true :=
        funext fun s => propext mayBelongTo_iff
      rw [hsource, hfound, Option.getD_some, htest]
      exact lastSmallest?_filter_eq_some_iff.mp hfound
  · intro hnone
    cases hfound : innermostWhere? m.allows structures line with
    | none => rw [hsource, hfound, Option.getD_none]
    | some owner =>
      have howner := lastSmallest?_filter_eq_some_iff.mp hfound
      exact absurd (mayBelongTo_iff.mpr howner.1) (hnone owner howner.mem)

end Mention

/-- A reference belongs to the whole file exactly when there is nothing else that it may belong to;
or else a structure of the list is itself the same as the whole file, by kind, name and lines. -/
theorem Reference.IsAttributed.source_eq_iff {structures : List Ref} {scope : Ref} {r : Reference}
    (h : r.IsAttributed structures scope) : r.source = scope ↔
      (∀ s ∈ structures, ¬ r.MayBelongTo s) ∨
        IsLastSmallest (fun s : Ref => s.location.lineCount) r.MayBelongTo structures scope := by
  constructor
  · intro hscope
    by_cases hexists : ∃ s ∈ structures, r.MayBelongTo s
    · exact Or.inr (hscope ▸ h.innermost hexists)
    · exact Or.inl fun s hs hmay => hexists ⟨s, hs, hmay⟩
  · rintro (hnone | hlast)
    · exact h.outside hnone
    · exact IsLastSmallest.unique (h.innermost ⟨scope, hlast.mem, hlast.1⟩) hlast

/-! ## Targets -/

section

variable {structures : List Ref} {name : String}

theorem mem_of_resolveCallee? {s : Ref} (h : resolveCallee? structures name = some s) :
    s ∈ structures ∧ s.name = name := by
  have hfound : ∀ p : Ref → Bool, (structures.filter fun s => s.name == name).find? p = some s →
      s ∈ structures ∧ s.name = name := by
    intro p hp
    obtain ⟨hs, hname⟩ := List.mem_filter.mp (List.mem_of_find?_eq_some hp)
    exact ⟨hs, beq_iff_eq.mp hname⟩
  rw [resolveCallee?, Option.or_eq_some_iff, Option.or_eq_some_iff] at h
  rcases h with (h | ⟨-, h⟩) | ⟨-, h⟩
  · exact hfound _ h
  · exact hfound _ h
  · exact hfound _ h

/-- A function or a type is no import or export, so what is asked for last decides. -/
theorem resolveCallee?_eq_none_iff : resolveCallee? structures name = none ↔
    ∀ s ∈ structures, s.name = name → s.kind.isBorder = true := by
  have hborder : ∀ k : Kind, k.isBorder = true →
      k.isFunctionLike = false ∧ k.isTypeLike = false := by
    intro k
    cases k <;> simp [Kind.isBorder, Kind.isFunctionLike, Kind.isTypeLike]
  rw [resolveCallee?, Option.or_eq_none_iff, Option.or_eq_none_iff, List.find?_eq_none,
    List.find?_eq_none, List.find?_eq_none]
  simp only [List.mem_filter, beq_iff_eq, and_imp, Bool.not_eq_true, Bool.not_eq_false,
    Bool.not_eq_eq_eq_not, Bool.not_true]
  constructor
  · rintro ⟨-, hany⟩ s hs hname
    exact hany s hs hname
  · intro h
    exact ⟨⟨fun s hs hname => (hborder _ (h s hs hname)).1,
      fun s hs hname => (hborder _ (h s hs hname)).2⟩, h⟩

end

/-- What a mention means is in the file and has the name, or nothing that it could mean is. -/
theorem Mention.isResolved_reference {r : Rules} {structures : List Ref} {content : Text}
    {tree : Option SyntaxTree} {scope : Ref} {line : Nat} {m : Mention}
    (h : m.StandsOn r structures content tree line) :
    (m.reference structures scope line).IsResolved structures := by
  have hsure : ∀ (t : Option Ref) (sure unsure : Single),
      (if t.isSome = true then sure else unsure) = if t = none then unsure else sure := by
    intro t sure unsure
    cases t with
    | none => rfl
    | some s => rfl
  cases m with
  | call name =>
    refine ⟨fun s hs => mem_of_resolveCallee? hs,
      fun _ => ⟨resolveCallee?_eq_none_iff, hsure _ _ _⟩, fun hkind => ?_, fun hkind => ?_⟩
    · exact ReferenceKind.noConfusion hkind
    · exact ReferenceKind.noConfusion hkind
  | type name =>
    refine ⟨fun s hs => ?_, fun hkind => ReferenceKind.noConfusion hkind,
      fun _ => ⟨?_, hsure _ _ _⟩, fun hkind => ReferenceKind.noConfusion hkind⟩
    · have htest := List.find?_some hs
      rw [Bool.and_eq_true, beq_iff_eq] at htest
      exact ⟨List.mem_of_find?_eq_some hs, htest.2⟩
    · show List.find? _ structures = none ↔ _
      rw [List.find?_eq_none]
      refine forall₂_congr fun s _ => ?_
      rw [Bool.and_eq_true, beq_iff_eq, not_and', Bool.not_eq_true]
      rfl
  | binding v =>
    obtain ⟨hv, htracked, -⟩ := h
    rw [isTrackedVariable, Bool.and_eq_true, Bool.and_eq_true] at htracked
    refine ⟨fun s hs => ?_, fun hkind => ReferenceKind.noConfusion hkind,
      fun hkind => ReferenceKind.noConfusion hkind, fun _ => ⟨⟨v, rfl, htracked.1.1⟩, rfl⟩⟩
    obtain rfl := Option.some.inj hs
    exact ⟨hv, rfl⟩

/-! ## The references of a file -/

section

variable {strategy : StrengthStrategy} {x : Extraction} {content : Text} {ref : Reference}

theorem references_perm : (relate strategy x content).references.Perm
    (distinctBy Reference.key (allReferences (rulesOf x.language) x.named content x.tree)) := by
  have hrefs := findReferences_eq (rulesOf x.language) x.named content x.tree
  exact (List.Perm.of_eq hrefs).trans (List.mergeSort_perm _ _)

theorem pairwise_line_references :
    (relate strategy x content).references.Pairwise fun a b => a.line ≤ b.line := by
  show (findReferences (rulesOf x.language) x.named content x.tree).Pairwise _
  rw [findReferences_eq]
  exact pairwise_key_mergeSort (fun _ _ => decide_eq_true_iff) _

/-- A reference is what some mention makes of it. -/
theorem exists_mention_of_mem_references (h : ref ∈ (relate strategy x content).references) :
    ∃ line, ∃ m : Mention, m.StandsOn (rulesOf x.language) x.named content x.tree line ∧
      ref = m.reference x.named (fileScope content) line :=
  mem_allReferences_iff.mp (mem_of_mem_distinctBy (references_perm.mem_iff.mp h))

/-- No mention is lost: what it is left out for is mentioned in the same way. -/
theorem exists_mem_references_of_standsOn {line : Nat} {m : Mention}
    (h : m.StandsOn (rulesOf x.language) x.named content x.tree line) :
    ∃ ref ∈ (relate strategy x content).references,
      ref.kind = m.kind ∧ ref.name = m.name ∧ ref.line = line := by
  have hall := mem_allReferences_iff.mpr ⟨line, m, h, rfl⟩
  have hkept : ∃ ref ∈ distinctBy Reference.key
      (allReferences (rulesOf x.language) x.named content x.tree),
        ref.key = (m.reference x.named (fileScope content) line).key :=
    exists_mem_distinctBy_iff.mpr ⟨_, hall, rfl⟩
  obtain ⟨ref, href, hkey⟩ := hkept
  obtain ⟨-, hkey⟩ := Prod.mk.inj hkey
  obtain ⟨hkind, hkey⟩ := Prod.mk.inj hkey
  obtain ⟨hname, hline⟩ := Prod.mk.inj hkey
  exact ⟨ref, references_perm.mem_iff.mpr href, hkind, hname, hline⟩

end

/-- The references of a file stand in the order of their lines, no two of them with the same source,
kind, name and line, and there is one for each name that is mentioned on a line, whether it means
anything or not.  Each belongs to the smallest structure around its line, the last one if there are
several, and to the whole file exactly when there is none, a structure that equals the whole file
apart; and it has the target that its name means, or none and then the lower confidence. -/
theorem references_isAttributed (strategy : StrengthStrategy) (x : Extraction) (content : Text) :
    ((relate strategy x content).references.Pairwise fun a b => a.line ≤ b.line) ∧
      ((relate strategy x content).references.map fun r =>
        (r.source, r.kind, r.name, r.line)).Nodup ∧
      (∀ kind name line, (∃ r ∈ (relate strategy x content).references,
          r.kind = kind ∧ r.name = name ∧ r.line = line) ↔
        ∃ m : Mention, m.kind = kind ∧ m.name = name ∧
          m.StandsOn (rulesOf x.language) x.named content x.tree line) ∧
      ∀ r ∈ (relate strategy x content).references,
        r.IsAttributed x.named (fileScope content) ∧
          (r.source = fileScope content ↔ (∀ s ∈ x.named, ¬ r.MayBelongTo s) ∨
            IsLastSmallest (fun s : Ref => s.location.lineCount) r.MayBelongTo x.named
              (fileScope content)) ∧
          r.IsResolved x.named := by
  refine ⟨pairwise_line_references, ?_, fun kind name line => ⟨?_, ?_⟩, fun ref href => ?_⟩
  · exact (references_perm.map Reference.key).nodup_iff.mpr (nodup_map_distinctBy _)
  · rintro ⟨ref, href, rfl, rfl, rfl⟩
    obtain ⟨line, m, hm, rfl⟩ := exists_mention_of_mem_references href
    exact ⟨m, rfl, rfl, hm⟩
  · rintro ⟨m, rfl, rfl, hm⟩
    exact exists_mem_references_of_standsOn hm
  · obtain ⟨line, m, hm, rfl⟩ := exists_mention_of_mem_references href
    have hattributed : (m.reference x.named (fileScope content) line).IsAttributed x.named
        (fileScope content) := Mention.isAttributed_reference
    exact ⟨hattributed, hattributed.source_eq_iff, Mention.isResolved_reference hm⟩

end Outline

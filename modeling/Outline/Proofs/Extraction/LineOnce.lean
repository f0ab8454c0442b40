import Mathlib.Data.List.Nodup
import Outline.Proofs.Extraction.LineSpan

/-!
# No line is read twice

In text, a structure is told by the line it begins on.  Within a tier this is built into the
extractor: on the top level the first match on a line decides, and of nested structures on one line
the one with the smallest parent.  Between the tiers nothing of the kind is done.  What keeps them
apart is a convention that the pattern tables follow: a declaration on the top level is flush with
the margin, a member stands behind blanks, so no line can begin with both.

The convention is a property of the tables, and it is kept by all of them but one: in C# a type may
stand behind blanks on the top level, since it usually stands in a namespace.  The document formats
do not follow it either, but there the top level is the whole document, which is of a kind of its
own.  Sections of a Markdown text are left out: a heading may end at a carriage return, which ends
no line, so two of them can stand on the same one.

* `Pattern.isFlush`, `Pattern.IsIndented`: the two sides of the convention.
* `Rules.IsFlush`, `isFlush_or_document`: the tables that follow it.
* `nodup_start_declarations`, `nodup_start_nested`: the two tiers.
* `nodup_named_extractText`: no identity comes up twice among the structures of a text.
-/

namespace Outline

/-! ## Flush and indented patterns -/

namespace Pattern

/-- Whether every match of a pattern begins where a line begins, with a character that is no blank
and ends no line. -/
def isFlush (p : Pattern) : Bool :=
  p.isAnchored && p.beginsInLine && p.avoids ' ' && p.avoids '\t'

/-- A pattern for what stands behind blanks. -/
def IsIndented (p : Pattern) : Prop := ∃ q, p = .seq lineStart (.seq gap q)

theorem lastPart_eq_nil_of_lineStart {a : Attempt} {pre : Text} (hbefore : a.before = pre.getLast?)
    (h : Anchor.lineStart.holds a = true) : Text.lastPart pre = [] := by
  refine Text.lastPart_eq_nil fun c hc => ?_
  rw [Anchor.holds, hbefore, hc] at h
  simpa using h

theorem exists_margin_of_isFlush {p : Pattern} {text : Text} {f : Found} (h : f ∈ p.all text)
    (hp : p.isFlush = true) :
    ∃ pre c post, text = pre ++ c :: post ∧ f.start = pre.length ∧ Text.lastPart pre = [] ∧
      ∀ bad ∈ ['\n', '\r', ' ', '\t'], c ≠ bad := by
  simp only [isFlush, beginsInLine, Bool.and_eq_true, Bool.not_eq_true'] at hp
  obtain ⟨⟨⟨hanchored, ⟨hnull, hn⟩, hr⟩, hblank⟩, htab⟩ := hp
  obtain ⟨a, b, ⟨pre, htext, hindex, hbefore⟩, -, hab, rfl⟩ := isMatch_of_mem_all h
  obtain ⟨w, hw, hopens⟩ := hab.exists_passes
  obtain ⟨c, cs, rfl⟩ := List.exists_cons_of_ne_nil (hopens.ne_nil hnull)
  have hne : ∀ bad, p.avoids bad = true → c ≠ bad := fun bad hbad hc =>
    hopens.head?_ne bad hbad (by rw [List.head?_cons, hc])
  refine ⟨pre, c, cs ++ b.rest, ?_, hindex, ?_, ?_⟩
  · rw [htext, hw.rest_eq, List.cons_append]
  · exact lastPart_eq_nil_of_lineStart hbefore (hab.lineStart_holds hanchored)
  · simp only [List.forall_mem_cons]
    exact ⟨hne _ hn, hne _ hr, hne _ hblank, hne _ htab, List.forall_mem_nil _⟩

theorem exists_margin_of_isIndented {p : Pattern} {text : Text} {f : Found} (h : f ∈ p.all text)
    (hp : p.IsIndented) :
    ∃ pre c post, text = pre ++ c :: post ∧ f.start = pre.length ∧ Text.lastPart pre = [] ∧
      c ∈ [' ', '\t'] := by
  obtain ⟨q, rfl⟩ := hp
  obtain ⟨a, b, ⟨pre, htext, hindex, hbefore⟩, -, hab, rfl⟩ := isMatch_of_mem_all h
  have hstart := hab.lineStart_holds rfl
  -- the anchor takes nothing, so the first blank is the next character
  cases hab with
  | seq hline hrest =>
    cases hline with
    | anchor _ =>
      cases hrest with
      | seq hgap _ =>
        cases hgap with
        | seq hfirst _ =>
          cases hfirst with
          | @char _ _ c cs hcs hc =>
            refine ⟨pre, c, cs, ?_, hindex, lastPart_eq_nil_of_lineStart hbefore hstart, ?_⟩
            · rw [htext, hcs]
            · exact List.contains_iff_mem.mp hc

end Pattern

/-! ## The tables -/

/-- Rules by which nothing can be both a declaration and a member. -/
structure Rules.IsFlush (r : Rules) : Prop where
  blockStyle_ne_document : r.blockStyle ≠ .document
  blockStyle_ne_markdown : r.blockStyle ≠ .markdown
  topLevel : ∀ rule ∈ r.patterns .topLevel, rule.pattern.isFlush = true
  nested : ∀ rule ∈ r.patterns .nested, rule.pattern.IsIndented

namespace Language

open Pattern PatternRule

/-- Every pattern for members begins with blanks. -/
theorem isIndented_of_mem_members : ∀ members ∈ [memberRules, goMembers, javascriptMembers,
    kotlinMembers, phpMembers, pythonMembers, rubyMembers, rustMembers], ∀ rule ∈ members,
      rule.pattern.IsIndented := by
  simp only [memberRules, goMembers, javascriptMembers, kotlinMembers, phpMembers, pythonMembers,
    rubyMembers, rustMembers, rule, chain, IsIndented, List.forall_mem_cons, Pattern.seq.injEq,
    true_and, exists_eq', List.not_mem_nil, false_implies, implies_true, and_self]

theorem isIndented_of_mem_nestedRules : ∀ l ∈ codeLanguages, ∀ rule ∈ l.nestedRules,
    rule.pattern.IsIndented := by
  have hmembers := isIndented_of_mem_members
  simp only [List.forall_mem_cons] at hmembers
  obtain ⟨hmember, hgo, hjavascript, hkotlin, hphp, hpython, hruby, hrust, -⟩ := hmembers
  simp only [codeLanguages, List.forall_mem_cons]
  exact ⟨hjavascript, hjavascript, hpython, hrust, hgo, hmember, List.forall_mem_nil _, hmember,
    hmember, hruby, hphp, hkotlin, List.forall_mem_nil _⟩

theorem isFlush_of_mem_topLevelRules : ∀ l ∈ codeLanguages, l.name ≠ "csharp" →
    ∀ rule ∈ l.topLevelRules, rule.pattern.isFlush = true := by
  decide

theorem blockStyle_of_mem_codeLanguages : ∀ l ∈ codeLanguages,
    l.blockStyle ≠ .document ∧ l.blockStyle ≠ .markdown := by
  decide

theorem isFlush_of_mem_genericDeclarations : ∀ rule ∈ genericDeclarations,
    rule.pattern.isFlush = true := by
  decide

theorem document_of_mem_documentLanguages : ∀ l ∈ documentLanguages, l.name ≠ "markdown" →
    l.blockStyle = .document ∧ ∀ rule ∈ l.nestedRules, rule.kind ≠ .document := by
  decide

end Language

/-- All rules but those of C# and Markdown keep to the convention, or are those of a document. -/
theorem isFlush_or_document {language : String} (hcsharp : (rulesOf language).name ≠ "csharp")
    (hmarkdown : (rulesOf language).name ≠ "markdown") :
    (rulesOf language).IsFlush ∨ ((rulesOf language).blockStyle = .document ∧
      ∀ rule ∈ (rulesOf language).patterns .nested, rule.kind ≠ .document) := by
  rcases rulesOf_cases language with hr | ⟨e, he, hr⟩
  · refine Or.inl ?_
    rw [hr]
    refine ⟨by decide, by decide, Language.isFlush_of_mem_genericDeclarations, ?_⟩
    exact List.forall_mem_nil _
  · rw [hr] at hcsharp hmarkdown ⊢
    rw [entries, List.mem_append, List.mem_map, List.mem_map] at he
    rcases he with ⟨l, hl, rfl⟩ | ⟨l, hl, rfl⟩
    · obtain ⟨hdocument, hstyle⟩ := Language.blockStyle_of_mem_codeLanguages l hl
      exact Or.inl ⟨hdocument, hstyle, Language.isFlush_of_mem_topLevelRules l hl hcsharp,
        Language.isIndented_of_mem_nestedRules l hl⟩
    · exact Or.inr (Language.document_of_mem_documentLanguages l hl hmarkdown)

namespace TextExtraction

variable {r : Rules} {content : Text} {language : String}

/-! ## Within a tier -/

theorem Hit.one_le_line {text : Text} {rules : List PatternRule} {h : Hit}
    (hh : h ∈ ofRules text rules) : 1 ≤ h.line := by
  obtain ⟨rule, -, f, -, rfl⟩ := mem_ofRules.mp hh
  exact Nat.le_add_left 1 _

theorem start_structureAt {lines : List Text} {style : BlockStyle} {text : Text}
    {rules : List PatternRule} {h : Hit} (hh : h ∈ Hit.ofRules text rules) :
    (structureAt lines style language h).location.start = h.line := by
  have hline := Hit.one_le_line hh
  rw [structureAt, Location.start_clamped]
  omega

/-- The declarations in the order of the rules that find them. -/
def announced (r : Rules) (content : Text) (language : String) : List Structure :=
  (distinctBy Hit.line ((Hit.ofRules content (r.patterns .topLevel)).filter
    fun h => !h.isReserved)).map (structureAt content.lines r.blockStyle language)

theorem declarations_perm_announced :
    (declarations r content language).Perm (announced r content language) :=
  List.mergeSort_perm _ _

/-- What is found in order needs no sorting. -/
theorem declarations_of_pairwise
    (h : (announced r content language).Pairwise fun a b => locationLe a.location b.location) :
    declarations r content language = announced r content language :=
  List.mergeSort_of_pairwise h

/-- On the top level there is one structure a line. -/
theorem nodup_start_declarations :
    ((declarations r content language).map fun s => s.location.start).Nodup := by
  refine (declarations_perm_announced.map _).nodup_iff.mpr ?_
  have hlines : (announced r content language).map (fun s => s.location.start) =
      (distinctBy Hit.line ((Hit.ofRules content (r.patterns .topLevel)).filter
        fun h => !h.isReserved)).map Hit.line := by
    rw [announced, List.map_map]
    refine List.map_congr_left fun h hh => ?_
    exact start_structureAt (List.mem_filter.mp (mem_of_mem_distinctBy hh)).1
  rw [hlines]
  exact nodup_map_distinctBy _

theorem nodup_start_hold {new : NestedStructure} : ∀ {held : List NestedStructure},
    (held.map fun s => s.location.start).Nodup →
      ((hold held new).map fun s => s.location.start).Nodup
  | [], _ => List.nodup_singleton _
  | old :: rest, h => by
    rw [List.map_cons, List.nodup_cons] at h
    rw [hold]
    split
    · rename_i hsame
      split
      · rw [List.map_cons, List.nodup_cons]
        exact h
      · rw [List.map_cons, List.nodup_cons, ← hsame]
        exact h
    · rename_i hother
      rw [List.map_cons, List.nodup_cons]
      refine ⟨fun hmem => ?_, nodup_start_hold h.2⟩
      obtain ⟨s, hs, hstart⟩ := List.mem_map.mp hmem
      rcases mem_hold hs with hs | rfl
      · exact h.1 (List.mem_map.mpr ⟨s, hs, hstart⟩)
      · exact hother hstart.symm

theorem nodup_start_foldl_hold : ∀ (found : List NestedStructure) {held : List NestedStructure},
    (held.map fun s => s.location.start).Nodup →
      ((found.foldl hold held).map fun s => s.location.start).Nodup
  | [], _, h => h
  | _ :: found, _, h => nodup_start_foldl_hold found (nodup_start_hold h)

/-- Among the nested structures there is one a line. -/
theorem nodup_start_nested (top : List Structure) :
    ((nested r content language top).map fun s => s.location.start).Nodup := by
  rw [nested]
  refine ((List.mergeSort_perm _ _).map _).nodup_iff.mpr ?_
  exact nodup_start_foldl_hold _ List.nodup_nil

/-! ## Between the tiers -/

/-- A flush match begins a line with a character that is no blank. -/
theorem Hit.margin_of_isFlush {rules : List PatternRule} {h : Hit}
    (hrules : ∀ rule ∈ rules, rule.pattern.isFlush = true) (hh : h ∈ ofRules content rules) :
    ∃ c v, content.lines[h.line - 1]? = some (c :: v) ∧ c ∉ [' ', '\t'] := by
  obtain ⟨rule, hrule, f, hf, rfl⟩ := mem_ofRules.mp hh
  obtain ⟨pre, c, post, htext, hstart, hmargin, hc⟩ :=
    Pattern.exists_margin_of_isFlush hf (hrules rule hrule)
  simp only [List.forall_mem_cons] at hc
  obtain ⟨hn, hr, hblank, htab, -⟩ := hc
  obtain ⟨v, hv⟩ := Text.exists_split_line hn hr post pre
  rw [hmargin, List.nil_append] at hv
  refine ⟨c, v, ?_, ?_⟩
  · rw [Text.lineAt, hstart, htext, List.take_left, Nat.add_sub_cancel]
    exact hv
  · simp [hblank, htab]

/-- An indented match in the lines of a location begins a line with a blank. -/
theorem Hit.margin_of_isIndented {rules : List PatternRule} {h : Hit} {l : Location}
    (hrules : ∀ rule ∈ rules, rule.pattern.IsIndented)
    (hh : h ∈ ofRules (Text.joinLines (l.linesOf content.lines)) rules) :
    ∃ c v, content.lines[l.start + h.line - 1 - 1]? = some (c :: v) ∧ c ∈ [' ', '\t'] := by
  obtain ⟨rule, hrule, f, hf, rfl⟩ := mem_ofRules.mp hh
  obtain ⟨pre, c, post, htext, hstart, hmargin, hc⟩ :=
    Pattern.exists_margin_of_isIndented hf (hrules rule hrule)
  have hn : c ≠ '\n' := by
    rintro rfl
    exact absurd hc (by decide)
  obtain ⟨v, hv⟩ := Text.exists_split_line_of_joinLines hn
    (fun m hm => Text.newline_notMem_of_mem_lines (Location.mem_of_mem_linesOf hm)) htext
  rw [hmargin, List.nil_append] at hv
  obtain ⟨-, hget⟩ := Location.getElem?_linesOf hv
  have hline : Text.lineAt (Text.joinLines (l.linesOf content.lines)) f.start =
      Text.newlines pre + 1 := by
    rw [Text.lineAt, hstart, htext, List.take_left]
  have hindex : l.start + (Text.newlines pre + 1) - 1 - 1 = l.start - 1 + Text.newlines pre := by
    have := l.one_le_start
    omega
  refine ⟨c, v, ?_, hc⟩
  simp only [hline, hindex]
  exact hget

theorem topLevel_of_isFlush (hr : r.IsFlush) (content : Text) (language : String) :
    topLevel r content language = declarations r content language := by
  rw [topLevel]
  split
  · rename_i hstyle
    exact absurd hstyle hr.blockStyle_ne_markdown
  · rename_i hstyle
    exact absurd hstyle hr.blockStyle_ne_document
  · rfl

theorem start_of_nestedAt? {lines : List Text} {style : BlockStyle} {parent : Structure}
    {hit : Hit} {n : NestedStructure} (h : nestedAt? lines style language parent hit = some n)
    (hline : 1 ≤ hit.line) : n.location.start = parent.location.start + hit.line - 1 := by
  have hstart := parent.location.one_le_start
  rw [eq_of_nestedAt? h, Location.start_clamped]
  omega

theorem isCut_of_mem_declarations {s : Structure}
    (h : s ∈ declarations (rulesOf language) content language) :
    IsCut content.lines s.content s.location := by
  obtain ⟨hit, hhit, -, rfl⟩ := mem_declarations h
  exact isCut_structureAt (Hit.isFilled_line hhit) _

theorem margin_of_mem_declarations (hr : r.IsFlush) {s : Structure}
    (h : s ∈ declarations r content language) :
    ∃ c v, content.lines[s.location.start - 1]? = some (c :: v) ∧ c ∉ [' ', '\t'] := by
  obtain ⟨hit, hhit, -, rfl⟩ := mem_declarations h
  rw [start_structureAt hhit]
  exact Hit.margin_of_isFlush hr.topLevel hhit

theorem margin_of_mem_nested (hr : (rulesOf language).IsFlush) {n : NestedStructure}
    (h : n ∈ nested (rulesOf language) content language
      (declarations (rulesOf language) content language)) :
    ∃ c v, content.lines[n.location.start - 1]? = some (c :: v) ∧ c ∈ [' ', '\t'] := by
  obtain ⟨parent, hparent, -, hit, hhit, hat⟩ := mem_nested h
  rw [start_of_nestedAt? hat (Hit.one_le_line hhit)]
  rw [(isCut_of_mem_declarations hparent).text_eq, String.toList_ofList] at hhit
  exact Hit.margin_of_isIndented hr.nested hhit

/-- A line that begins a declaration begins no member. -/
theorem start_ne_of_isFlush (hr : (rulesOf language).IsFlush) {s : Structure} {n : NestedStructure}
    (hs : s ∈ declarations (rulesOf language) content language)
    (hn : n ∈ nested (rulesOf language) content language
      (declarations (rulesOf language) content language)) :
    s.location.start ≠ n.location.start := by
  obtain ⟨c, v, hc, hink⟩ := margin_of_mem_declarations hr hs
  obtain ⟨d, w, hd, hblank⟩ := margin_of_mem_nested hr hn
  intro hsame
  rw [hsame, hd] at hc
  obtain ⟨rfl, -⟩ := List.cons.inj (Option.some.inj hc)
  exact hink hblank

/-! ## Documents -/

theorem memberKind_ne_document {parent kind : Kind} (h : kind ≠ .document) :
    memberKind parent kind ≠ .document := by
  unfold memberKind
  split
  · split <;> decide
  · split <;> decide
  · exact h

theorem kind_ne_document_of_mem_nested {top : List Structure}
    (hr : ∀ rule ∈ r.patterns .nested, rule.kind ≠ .document) {n : NestedStructure}
    (h : n ∈ nested r content language top) : n.kind ≠ .document := by
  obtain ⟨parent, -, -, hit, hhit, hat⟩ := mem_nested h
  obtain ⟨rule, hrule, f, -, rfl⟩ := Hit.mem_ofRules.mp hhit
  rw [eq_of_nestedAt? hat]
  exact memberKind_ne_document (hr rule hrule)

end TextExtraction

/-! ## Both tiers -/

open TextExtraction

/-- Structures on different lines are different, and so are a structure of one tier and one of the
other if they are. -/
theorem nodup_refs {top : List Structure} {members : List NestedStructure}
    (htop : (top.map fun s => s.location.start).Nodup)
    (hmembers : (members.map fun s => s.location.start).Nodup)
    (hdisjoint : ∀ s ∈ top, ∀ n ∈ members, s.ref ≠ n.ref) :
    (top.map Structure.ref ++ members.map NestedStructure.ref).Nodup := by
  refine List.nodup_append.mpr ⟨?_, ?_, ?_⟩
  · refine List.Nodup.of_map (fun p : Ref => p.location.start) ?_
    rw [List.map_map]
    exact htop
  · refine List.Nodup.of_map (fun p : Ref => p.location.start) ?_
    rw [List.map_map]
    exact hmembers
  · intro p hp q hq
    obtain ⟨s, hs, rfl⟩ := List.mem_map.mp hp
    obtain ⟨n, hn, rfl⟩ := List.mem_map.mp hq
    exact hdisjoint s hs n hn

/-- The structures of a text are all different, except perhaps in C# and in Markdown. -/
theorem nodup_named_extractText {language : String}
    (hcsharp : (rulesOf language).name ≠ "csharp")
    (hmarkdown : (rulesOf language).name ≠ "markdown") (content : Text) :
    (extractText content language).named.Nodup := by
  rw [Extraction.named, extractText]
  rcases isFlush_or_document hcsharp hmarkdown with hr | ⟨hstyle, hkinds⟩
  · simp only [topLevel_of_isFlush hr]
    refine nodup_refs nodup_start_declarations (nodup_start_nested _) fun s hs n hn href => ?_
    exact start_ne_of_isFlush hr hs hn (congrArg (fun p : Ref => p.location.start) href)
  · refine nodup_refs ?_ (nodup_start_nested _) fun s hs n hn href => ?_
    · rw [topLevel, hstyle]
      cases wholeText? content language none with
      | none => exact List.nodup_nil
      | some s => exact List.nodup_singleton _
    · rw [topLevel, hstyle] at hs
      have hkind : s.kind = .document := (isWhole_of_wholeText? (Option.mem_toList.mp hs)).kind_eq
      have hsame : s.kind = n.kind := congrArg Ref.kind href
      exact kind_ne_document_of_mem_nested hkinds hn (hsame ▸ hkind)

end Outline

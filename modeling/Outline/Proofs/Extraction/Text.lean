import Outline.Proofs.Extraction.Distinct
import Outline.Proofs.Smallest

/-!
# Where the structures of a text come from

The extractor filters, sorts and thins out what it finds, so an entry of a tier has to be traced
back through these steps before anything can be said about it.  Which lines of a text are headings
is left to a reader, and nothing here depends on what it finds.  This is done once for each tier:
an entry of the top level is a section, the whole text or what a match announces
(`mem_topLevel`); a nested structure is what a match inside one of the structures above it
announces (`mem_nested`); a statement is what a match in the body of a function announces, on a
line of that body (`mem_internal`).
-/

namespace Outline.TextExtraction

variable {r : Rules} {content : Text} {language : String}
  {reader : Text → List Markdown.Heading}

/-! ## Hits -/

namespace Hit

theorem mem_ofRules {text : Text} {rules : List PatternRule} {h : Hit} :
    h ∈ ofRules text rules ↔ ∃ rule ∈ rules, ∃ f ∈ rule.pattern.all text,
      h = ⟨rule, text.lineAt f.start, capturedName? rule.pattern text f⟩ := by
  rw [ofRules, List.mem_flatMap]
  simp only [ofRule, List.mem_map, eq_comm]

end Hit

/-! ## Top level -/

theorem mem_declarations {s : Structure} (h : s ∈ declarations r content language) :
    ∃ hit ∈ Hit.ofRules content (r.patterns .topLevel), hit.isReserved = false ∧
      s = structureAt content.lines r.blockStyle language hit := by
  rw [declarations, List.mem_mergeSort, List.mem_map] at h
  obtain ⟨hit, hhit, rfl⟩ := h
  have hmem := mem_of_mem_distinctBy hhit
  rw [List.mem_filter, Bool.not_eq_true'] at hmem
  exact ⟨hit, hmem.1, hmem.2, rfl⟩

theorem mem_sections {s : Structure} (h : s ∈ sections content language reader) :
    wholeText? content language none = some s ∨
      ∃ found ∈ Markdown.sections content reader, s = ofSection content.lines language found := by
  rw [sections] at h
  split at h
  · exact Or.inl (Option.mem_toList.mp h)
  · obtain ⟨found, hfound, rfl⟩ := List.mem_map.mp h
    exact Or.inr ⟨found, hfound, rfl⟩

/-- An entry of the top level is the whole text, a section or what a match announces. -/
theorem mem_topLevel {s : Structure} (h : s ∈ topLevel r content language reader) :
    wholeText? content language none = some s ∨
      (∃ found ∈ Markdown.sections content reader, s = ofSection content.lines language found) ∨
      ∃ hit ∈ Hit.ofRules content (r.patterns .topLevel), hit.isReserved = false ∧
        s = structureAt content.lines r.blockStyle language hit := by
  rw [topLevel] at h
  split at h
  · exact (mem_sections h).imp_right Or.inl
  · exact Or.inl (Option.mem_toList.mp h)
  · exact Or.inr (Or.inr (mem_declarations h))

/-! ## Nested -/

/-- Holding an entry brings nothing in but that entry. -/
theorem mem_hold {new s : NestedStructure} : ∀ {held : List NestedStructure},
    s ∈ hold held new → s ∈ held ∨ s = new
  | [], h => Or.inr (List.mem_singleton.mp h)
  | old :: rest, h => by
    rw [hold] at h
    split at h
    · split at h
      · exact Or.inl h
      · rcases List.mem_cons.mp h with rfl | h
        · exact Or.inr rfl
        · exact Or.inl (List.mem_cons_of_mem old h)
    · rcases List.mem_cons.mp h with rfl | h
      · exact Or.inl List.mem_cons_self
      · exact (mem_hold h).imp_left (List.mem_cons_of_mem old)

theorem mem_foldl_hold {s : NestedStructure} : ∀ {found held : List NestedStructure},
    s ∈ found.foldl hold held → s ∈ held ∨ s ∈ found
  | [], held, h => Or.inl h
  | new :: found, held, h => by
    rw [List.foldl_cons] at h
    rcases mem_foldl_hold h with h | h
    · rcases mem_hold h with h | rfl
      · exact Or.inl h
      · exact Or.inr List.mem_cons_self
    · exact Or.inr (List.mem_cons_of_mem new h)

/-- The structure that a match inside a parent announces, if it announces any. -/
theorem eq_of_nestedAt? {lines : List Text} {style : BlockStyle} {parent : Structure} {hit : Hit}
    {s : NestedStructure} (h : nestedAt? lines style language parent hit = some s) :
    s =
      { kind := memberKind parent.kind hit.rule.kind
        name := hit.name.getD (defaultName (memberKind parent.kind hit.rule.kind)
          (parent.location.start + hit.line - 1))
        content := slice lines (parent.location.start + hit.line - 1)
          (min (endLine lines style (parent.location.start + hit.line - 1)) parent.location.stop)
        location := .clamped (parent.location.start + hit.line - 1)
          (min (endLine lines style (parent.location.start + hit.line - 1)) parent.location.stop)
        node := none
        language
        confidence := hit.rule.confidence
        parent := parent.ref
        level := 0 } := by
  rw [nestedAt?] at h
  simp only at h
  split at h
  · exact absurd h (by simp)
  · exact (Option.some.inj h).symm

/-- A nested structure is what a match inside a searched structure announces. -/
theorem mem_nested {top : List Structure} {s : NestedStructure}
    (h : s ∈ nested r content language top) :
    ∃ parent ∈ top, isSearched parent = true ∧
      ∃ hit ∈ Hit.ofRules parent.content.toList (r.patterns .nested),
        nestedAt? content.lines r.blockStyle language parent hit = some s := by
  rw [nested, List.mem_mergeSort] at h
  rcases mem_foldl_hold h with h | h
  · exact absurd h List.not_mem_nil
  · obtain ⟨parent, hparent, hs⟩ := List.mem_flatMap.mp h
    obtain ⟨hmem, hsearched⟩ := List.mem_filter.mp hparent
    rw [nestedIn, List.mem_filterMap] at hs
    exact ⟨parent, hmem, hsearched, hs⟩

/-! ## Internal -/

/-- The line of a statement lies in the body of the function it belongs to. -/
theorem inBody_of_innermost? {parents : List Ref} {line index : Nat} {p : Ref}
    (h : innermost? parents line = some index) (hp : parents[index]? = some p) :
    inBody p line = true := by
  rw [innermost?, Option.map_eq_some_iff] at h
  obtain ⟨⟨q, i⟩, hq, rfl⟩ := h
  obtain ⟨hmem, hbody⟩ := List.mem_filter.mp (mem_of_smallest? hq)
  rw [List.mem_zipIdx_iff_getElem?] at hmem
  rw [hmem] at hp
  exact Option.some.inj hp ▸ hbody

/-- A statement is what a match in the body of a function announces. -/
theorem mem_internal {top : List Structure} {nested : List NestedStructure}
    {s : InternalStructure} (h : s ∈ internal r content top nested) :
    ∃ parent ∈ top.map Structure.ref ++ nested.map NestedStructure.ref,
      parent.kind.isFunctionLike = true ∧ ∃ hit ∈ bodyHits r content.lines parent,
        inBody parent hit.line = true ∧
          s = statementAt content.lines r.blockStyle parent hit := by
  rw [internal, List.mem_mergeSort, List.mem_map] at h
  obtain ⟨⟨parent, hit⟩, hmem, rfl⟩ := h
  obtain ⟨⟨p, index⟩, hp, hhit⟩ := List.mem_flatMap.mp (mem_of_mem_distinctBy hmem)
  obtain ⟨hit', hhit', heq⟩ := List.mem_map.mp hhit
  obtain ⟨rfl, rfl⟩ := Prod.mk.inj heq
  obtain ⟨hbody, hinner⟩ := List.mem_filter.mp hhit'
  have hget := List.mem_zipIdx_iff_getElem?.mp hp
  obtain ⟨hnamed, hkind⟩ := List.mem_filter.mp (List.mem_of_getElem? hget)
  exact ⟨p, hnamed, hkind, hit', hbody, inBody_of_innermost? (beq_iff_eq.mp hinner) hget, rfl⟩

end Outline.TextExtraction

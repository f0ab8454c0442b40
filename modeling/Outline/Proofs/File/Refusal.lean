import Outline.File.Analysis
import Outline.Proofs.Chunk.Conversion
import Outline.Proofs.Extraction.Unlisted

/-!
# When an analysis is refused

A draft of a chunk can be wrong in five ways, and whether an analysis fails seems to depend on what
the extractors hand over.  In fact four of the five never come up: blank text and unknown kinds are
sifted out before, and lines in the wrong order cannot be written down as a location.  What is left
is a language without a name, which all drafts of an extraction have in common, so an analysis is
refused exactly when such a language meets a draft that is not sifted out.

That some draft is not sifted out can be told from the top level alone.  Without a top level there
are no drafts (`draftsOf_eq_nil`), and what is found on the top level under a blank name is filled
(`isFilled_of_mem_topLevel`).

* `IsRefused`: the condition.
* `analyseContent_eq_error`, `exists_analyseContent_eq_ok`: its two sides.
* `analyseContent_error_iff`: the two together.
-/

namespace Outline

variable {parser : Option ParserService} {s : Settings} {content : Text}
  {language filePath : String}

/-! ## The extraction -/

theorem language_extractAll (parser : Option ParserService) (maxDepth : Nat) (content : Text)
    (language : String) : (extractAll parser maxDepth content language).language = language := by
  rcases treeYields_or_treeFails parser maxDepth content language with ⟨t, found, hyields⟩ | hfails
  · rw [hyields.extractAll_eq]
    exact (isFromTree_of_extractTree hyields.extracted).2.language_eq
  · rw [hfails.extractAll_eq]
    rfl

theorem TextExtraction.nested_nil (r : Rules) (content : Text) (language : String) :
    nested r content language [] = [] := by
  simp [nested]

theorem TextExtraction.internal_nil (r : Rules) (content : Text) :
    internal r content [] [] = [] := by
  simp [internal, distinctBy, distinctFrom]

/-- Without a top level nothing is found. -/
theorem nil_of_topLevel_extractAll {maxDepth : Nat}
    (h : (extractAll parser maxDepth content language).topLevel = []) :
    (extractAll parser maxDepth content language).nested = [] ∧
      (extractAll parser maxDepth content language).internal = [] := by
  rcases treeYields_or_treeFails parser maxDepth content language with ⟨t, found, hyields⟩ | hfails
  · rw [hyields.extractAll_eq] at h ⊢
    have htop : found.topLevel = [] := h
    obtain ⟨hnested, hinternal⟩ := nil_of_topLevel_eq_nil hyields.extracted htop
    exact ⟨hnested, hinternal⟩
  · rw [hfails.extractAll_eq] at h ⊢
    rw [extractText] at h ⊢
    simp only at h ⊢
    rw [h, TextExtraction.nested_nil, TextExtraction.internal_nil]
    exact ⟨rfl, rfl⟩

/-- Without a top level there are no drafts. -/
theorem draftsOf_eq_nil {maxDepth : Nat} {includeInternal : Bool}
    (h : (extractAll parser maxDepth content language).topLevel = []) :
    draftsOf includeInternal (extractAll parser maxDepth content language) = [] := by
  obtain ⟨hnested, hinternal⟩ := nil_of_topLevel_extractAll h
  rw [draftsOf, h, hnested, hinternal, nameStatements]
  cases includeInternal <;> rfl

/-! ## The analysis -/

/-- Required fields are asked for, the language has no name, and there is a top level. -/
def IsRefused (parser : Option ParserService) (s : Settings) (content : Text)
    (language : String) : Prop :=
  s.validateRequired = true ∧ isBlank language = true ∧
    (extractAll parser s.usableDepth content language).topLevel ≠ []

theorem analyseContent_eq_error (h : IsRefused parser s content language) (filePath : String) :
    analyseContent parser s content language filePath = .error .emptyLanguage := by
  obtain ⟨hstrict, hblank, htop⟩ := h
  obtain ⟨top, htop⟩ := List.exists_mem_of_ne_nil _ htop
  obtain ⟨hcontent, hkind⟩ := isFilled_of_mem_topLevel hblank htop
  have hmem : top.draft (extractAll parser s.usableDepth content language).language
      (extractAll parser s.usableDepth content language).tree ∈
        draftsOf s.includeInternal (extractAll parser s.usableDepth content language) := by
    rw [draftsOf]
    exact List.mem_append_left _ (List.mem_append_left _ (List.mem_map_of_mem htop))
  have hfilled : (top.draft (extractAll parser s.usableDepth content language).language
      (extractAll parser s.usableDepth content language).tree).isFilled = true := by
    rw [ChunkDraft.isFilled, Bool.and_eq_true, Bool.not_eq_true', bne_iff_ne]
    exact ⟨hcontent, hkind⟩
  rw [← language_extractAll parser s.usableDepth content language] at hblank
  have hchunks := chunksOf_eq_error hblank hmem hfilled filePath
  rw [analyseContent]
  simp only [hstrict, hchunks]
  rfl

theorem exists_analyseContent_eq_ok (h : ¬ IsRefused parser s content language)
    (filePath : String) : ∃ a, analyseContent parser s content language filePath = .ok a := by
  have hlanguage : s.validateRequired = true →
      ∀ d ∈ draftsOf s.includeInternal (extractAll parser s.usableDepth content language),
        isBlank d.language = false := by
    intro hstrict d hd
    rw [language_of_mem_draftsOf hd, language_extractAll]
    refine Bool.eq_false_iff.mpr fun hblank => h ⟨hstrict, hblank, fun htop => ?_⟩
    rw [draftsOf_eq_nil htop] at hd
    exact absurd hd List.not_mem_nil
  obtain ⟨chunks, hchunks⟩ := exists_chunksOf_eq_ok hlanguage filePath
  exact ⟨_, bind_eq_ok_iff.mpr ⟨chunks, hchunks, rfl⟩⟩

/-- An analysis fails exactly when required fields are asked for, the language is blank and
something is found on the top level; then the language is what it complains about.  In all other
cases it gives a result. -/
theorem analyseContent_error_iff (parser : Option ParserService) (s : Settings) (content : Text)
    (language filePath : String) :
    ((∃ e, analyseContent parser s content language filePath = .error e) ↔
      s.validateRequired = true ∧ trimmed language = "" ∧
        (extractAll parser s.usableDepth content language).topLevel ≠ []) ∧
    ((∃ a, analyseContent parser s content language filePath = .ok a) ↔
      ¬ (s.validateRequired = true ∧ trimmed language = "" ∧
        (extractAll parser s.usableDepth content language).topLevel ≠ [])) ∧
    ∀ e, analyseContent parser s content language filePath = .error e → e = .emptyLanguage := by
  rw [trimmed_eq_empty_iff]
  by_cases h : IsRefused parser s content language
  · have herror := analyseContent_eq_error h filePath
    rw [herror]
    refine ⟨iff_of_true ⟨_, rfl⟩ h, iff_of_false ?_ (not_not_intro h), ?_⟩
    · rintro ⟨a, ha⟩
      cases ha
    · intro e he
      exact (Except.error.inj he).symm
  · obtain ⟨a, ha⟩ := exists_analyseContent_eq_ok h filePath
    rw [ha]
    refine ⟨iff_of_false ?_ h, iff_of_true ⟨a, rfl⟩ h, ?_⟩
    · rintro ⟨e, he⟩
      cases he
    · intro e he
      cases he

end Outline

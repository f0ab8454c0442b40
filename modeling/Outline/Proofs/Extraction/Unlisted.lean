import Mathlib.Data.List.TakeWhile
import Outline.Proofs.Extraction.Fallback
import Outline.Proofs.Extraction.LineSpan
import Outline.Proofs.Text.Space

/-!
# Languages without an entry

A language that nobody has named is blank, and no entry has a blank name, so its rules are those of
the union.  Those rules are more careful than the tables of the languages they were put together
from: every pattern begins with a letter, where a language of its own may let a declaration stand
behind blanks, and no node type stands for an unknown kind.  So what they find on the top level,
in a tree or in text, can always be made into a chunk (`isFilled_of_mem_topLevel`).

* `rulesOf_of_isBlank`: the rules of a language with a blank name.
* `TextExtraction.isFilled_of_mem_generic`, `TreeExtraction.isFilled_of_mem_generic`: the two
  extractors under these rules.
-/

namespace Outline

/-! ## White space -/

/-- Nothing is left after trimming exactly when there is nothing but white space. -/
theorem trimmed_eq_empty_iff {s : String} : trimmed s = "" ↔ isBlank s = true := by
  rw [trimmed, String.ofList_eq_empty_iff, Text.trim, Text.trimEnd, List.reverse_eq_nil_iff,
    List.dropWhile_eq_nil_iff, isBlank, Text.isBlank, List.all_eq_true]
  constructor
  · intro h c hc
    rw [← List.takeWhile_append_dropWhile (p := isSpace) (l := s.toList), List.mem_append] at hc
    rcases hc with hc | hc
    · exact List.all_eq_true.mp List.all_takeWhile c hc
    · exact h c (List.mem_reverse.mpr hc)
  · intro h c hc
    exact h c ((List.dropWhile_sublist isSpace).subset (List.mem_reverse.mp hc))

/-! ## Blank names -/

theorem isBlank_folded {name : String} (h : isBlank name = true) :
    isBlank (folded name) = true := by
  have hfold : ∀ n ∈ spaceCodes, isSpace (foldCase (Char.ofNat n)) = true := by decide
  rw [isBlank, Text.isBlank, List.all_eq_true] at h
  rw [isBlank, folded, String.toList_ofList, Text.isBlank, List.all_map, List.all_eq_true]
  intro c hc
  exact forall_of_spaceCodes (p := fun d => isSpace (foldCase d) = true) hfold (h c hc)

theorem isBlank_name_of_mem_entries :
    ∀ e ∈ entries, ∀ name ∈ e.language.names, isBlank name = false := by
  decide

/-- A language with a blank name has no entry. -/
theorem rulesOf_of_isBlank {language : String} (h : isBlank language = true) :
    rulesOf language = genericRules := by
  have hnone : (entries.find? fun e => e.language.names.contains (folded language)) = none := by
    rw [List.find?_eq_none]
    intro e he hname
    have hfilled := isBlank_name_of_mem_entries e he _ (List.contains_iff_mem.mp hname)
    rw [isBlank_folded h] at hfilled
    exact absurd hfilled (by decide)
  rw [rulesOf, lookupRules?, hnone]
  rfl

/-! ## In text -/

namespace TextExtraction

variable {content : Text} {language : String}

theorem avoids_of_mem_generic : ∀ rule ∈ genericRules.patterns .topLevel,
    ∀ n ∈ spaceCodes, rule.pattern.avoids (Char.ofNat n) = true := by
  decide

theorem kind_ne_unknown_of_mem_generic : ∀ rule ∈ genericRules.patterns .topLevel,
    rule.kind ≠ .unknown := by
  decide

/-- A match begins on a line with a character that is not blank. -/
theorem Hit.exists_ink_of_generic {h : Hit}
    (hh : h ∈ ofRules content (genericRules.patterns .topLevel)) :
    ∃ line, content.lines[h.line - 1]? = some line ∧ ∃ c ∈ line, isSpace c = false := by
  obtain ⟨rule, hrule, f, hf, rfl⟩ := mem_ofRules.mp hh
  have hbegins := beginsInLine_of_mem_generic .topLevel List.mem_cons_self rule hrule
  rw [Pattern.beginsInLine, Bool.and_eq_true, Bool.and_eq_true, Bool.not_eq_true'] at hbegins
  obtain ⟨pre, c, post, htext, hstart, havoids⟩ := Pattern.exists_char_of_mem_all hf hbegins.1.1
  have hink : isSpace c = false := by
    refine Bool.eq_false_iff.mpr fun hspace => ?_
    have hpattern := forall_of_spaceCodes (p := fun d => rule.pattern.avoids d = true)
      (avoids_of_mem_generic rule hrule) hspace
    exact havoids c hpattern rfl
  obtain ⟨line, hline, hc⟩ := Text.exists_line_of_eq_append (havoids _ hbegins.1.2)
    (havoids _ hbegins.2) post pre
  refine ⟨line, ?_, c, hc, hink⟩
  rw [Text.lineAt, hstart, htext, List.take_left, Nat.add_sub_cancel]
  exact hline

/-- The lines from one with ink on are not blank. -/
theorem isBlank_slice {lines : List Text} {start : Nat} {line : Text} {c : Char}
    (hline : lines[start - 1]? = some line) (hc : c ∈ line) (hink : isSpace c = false)
    (stop : Nat) : isBlank (slice lines start stop) = false := by
  have hfirst : line ∈ (lines.drop (start - 1)).take
      (max (stop - 1) (start - 1) + 1 - (start - 1)) := by
    refine List.mem_of_getElem? (i := 0) ?_
    rw [List.getElem?_take_of_lt (by omega), List.getElem?_drop, Nat.add_zero]
    exact hline
  rw [isBlank, slice, String.toList_ofList, sliceLines]
  exact isBlank_eq_false_of_mem (Text.mem_joinLines_of_mem hc hfirst) hink

theorem isFilled_of_mem_generic {s : Structure} (h : s ∈ topLevel genericRules content language) :
    isBlank s.content = false ∧ s.kind ≠ .unknown := by
  have hdeclared : s ∈ declarations genericRules content language := h
  obtain ⟨hit, hhit, -, rfl⟩ := mem_declarations hdeclared
  obtain ⟨line, hline, c, hc, hink⟩ := Hit.exists_ink_of_generic hhit
  refine ⟨isBlank_slice hline hc hink _, ?_⟩
  obtain ⟨rule, hrule, f, -, rfl⟩ := Hit.mem_ofRules.mp hhit
  exact kind_ne_unknown_of_mem_generic rule hrule

end TextExtraction

/-! ## In a tree -/

namespace TreeExtraction

theorem kind_ne_unknown_of_mem_union :
    ∀ row ∈ (Rules.Union.ofLanguages codeLanguages).topLevel, row.2 ≠ Kind.unknown := by
  decide +kernel

theorem topLevelKind_union (ls : List Language) (text : Language) (type : String) :
    (Rules.union ls text).topLevelKind type = (Rules.Union.ofLanguages ls).topLevel.lookup type :=
  rfl

theorem isFilled_of_mem_generic {t : SyntaxTree} {language : String} {s : Structure}
    (h : s ∈ topLevel genericRules t language) :
    isBlank s.content = false ∧ s.kind ≠ .unknown := by
  rw [topLevel_eq, if_neg (by decide)] at h
  cases hroot : t.root? with
  | none =>
    rw [hroot] at h
    exact absurd h List.not_mem_nil
  | some root =>
    rw [hroot] at h
    obtain ⟨n, listed, hlisted, hs⟩ := exists_structureOf?_of_mem_declarations h
    refine ⟨isBlank_content_of_structureOf? hs, ?_⟩
    rw [listedKind?] at hlisted
    split at hlisted
    · rw [genericRules, topLevelKind_union, List.lookup_eq_some_iff] at hlisted
      obtain ⟨before, after, htable, -⟩ := hlisted
      have hmem : (t.kind n, listed) ∈ (Rules.Union.ofLanguages codeLanguages).topLevel := by
        rw [htable]
        exact List.mem_append_right before List.mem_cons_self
      rw [(node_of_structureOf? hs).2]
      exact kind_ne_unknown_of_mem_union _ hmem
    · exact absurd hlisted (by simp)

end TreeExtraction

/-! ## In either -/

theorem isFilled_of_mem_topLevel {parser : Option ParserService} {maxDepth : Nat} {content : Text}
    {language : String} (hblank : isBlank language = true) {s : Structure}
    (h : s ∈ (extractAll parser maxDepth content language).topLevel) :
    isBlank s.content = false ∧ s.kind ≠ .unknown := by
  have hrules := rulesOf_of_isBlank hblank
  rcases treeYields_or_treeFails parser maxDepth content language with ⟨t, found, hyields⟩ | hfails
  · obtain ⟨-, htiers⟩ := isFromTree_of_extractTree hyields.extracted
    rw [hyields.extractAll_eq] at h
    have hfound : s ∈ found.topLevel := h
    rw [htiers.topLevel_eq, hrules] at hfound
    exact TreeExtraction.isFilled_of_mem_generic hfound
  · rw [hfails.extractAll_eq] at h
    have hfound : s ∈ TextExtraction.topLevel (rulesOf language) content language := h
    rw [hrules] at hfound
    exact TextExtraction.isFilled_of_mem_generic hfound

end Outline

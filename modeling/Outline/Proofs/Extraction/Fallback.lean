import Outline.Extraction.Basic
import Outline.Proofs.Extraction.Tree

/-!
# When the tree decides and when the text does

A parser may be absent, refuse the language, report an error, break off, or hand back a tree that
is empty, or made from another text, or in which nothing is found.  None of this shows in the
result: either the tree yields something, and then the result is what it yields, or the result is
the same as if there were no parser.

The test that decides looks at the top level only.  That loses nothing, because the other two
walks start from what the first one found: without a top level there are no containers to look
into, and without these and without a top level there are no functions
(`isEmpty_eq_isEmpty_topLevel`).

* `TreeYields`: a parser gives a tree in which something is found, in whichever tier.
* `TreeFails`: all the ways in which it does not, and `treeYields_or_treeFails` that there are no
  others.
* `extractAll_eq_tree_or_text`: what an extraction is in either case.
-/

namespace Outline

variable {parser : Option ParserService} {maxDepth : Nat} {content : Text} {language : String}

/-- A parser reads the language and gives a tree that can be used, and something is found in
it. -/
structure TreeYields (parser : Option ParserService) (maxDepth : Nat) (content : Text)
    (language : String) (t : SyntaxTree) (found : Extraction) : Prop where
  parsed : ∃ p, parser = some p ∧ p.supports language = true ∧ p.parse content language = .ok t
  extracted : extractTree maxDepth content language t = .ok found
  found_some : found.isEmpty = false

/-- The ways in which there is nothing to be had from a tree. -/
inductive TreeFails (parser : Option ParserService) (maxDepth : Nat) (content : Text)
    (language : String) : Prop where
  | absent (h : parser = none)
  | unsupported (p : ParserService) (h : parser = some p) (hsupports : p.supports language = false)
  /-- The parser reports an error or breaks off. -/
  | refused (p : ParserService) (e : ParseError) (h : parser = some p)
    (hparse : p.parse content language = .error e)
  | emptyTree (p : ParserService) (t : SyntaxTree) (h : parser = some p)
    (hparse : p.parse content language = .ok t) (hempty : t.root? = none)
  | otherSource (p : ParserService) (t : SyntaxTree) (h : parser = some p)
    (hparse : p.parse content language = .ok t) (hsource : t.source ≠ content)
  | nothingFound (p : ParserService) (t : SyntaxTree) (found : Extraction) (h : parser = some p)
    (hparse : p.parse content language = .ok t)
    (hfound : extractTree maxDepth content language t = .ok found) (hempty : found.isEmpty = true)

theorem treeOf?_eq_some_iff {t : SyntaxTree} : treeOf? parser content language = some t ↔
    ∃ p, parser = some p ∧ p.supports language = true ∧ p.parse content language = .ok t := by
  cases parser with
  | none => simp [treeOf?]
  | some p =>
    by_cases hsupports : p.supports language = true
    · simp [treeOf?, hsupports, toOption_eq_some_iff]
    · simp [treeOf?, hsupports]

/-! ## Nothing on the top level -/

theorem nil_of_topLevel_eq_nil {t : SyntaxTree} {found : Extraction}
    (h : extractTree maxDepth content language t = .ok found) (htop : found.topLevel = []) :
    found.nested = [] ∧ found.internal = [] := by
  obtain ⟨-, htiers⟩ := isFromTree_of_extractTree h
  have hnested : found.nested = [] := by
    rw [htiers.nested_eq, htop]
    rfl
  refine ⟨hnested, ?_⟩
  rw [htiers.internal_eq, htop, hnested]
  rfl

/-- In a tree, nothing is found exactly when nothing is found on the top level. -/
theorem isEmpty_eq_isEmpty_topLevel {t : SyntaxTree} {found : Extraction}
    (h : extractTree maxDepth content language t = .ok found) :
    found.isEmpty = found.topLevel.isEmpty := by
  rw [Extraction.isEmpty]
  cases htop : found.topLevel with
  | nil =>
    obtain ⟨hnested, hinternal⟩ := nil_of_topLevel_eq_nil h htop
    rw [hnested, hinternal]
    rfl
  | cons s rest => rfl

/-! ## The choice -/

theorem extractByTree?_eq_some_iff {x : Extraction} :
    extractByTree? parser maxDepth content language = some x ↔
      ∃ t found, TreeYields parser maxDepth content language t found ∧
        x = { found with tree := some t } := by
  constructor
  · intro h
    obtain ⟨t, ht, h⟩ := Option.bind_eq_some_iff.mp h
    obtain ⟨found, hfound, h⟩ := Option.bind_eq_some_iff.mp h
    have hextracted := toOption_eq_some_iff.mp hfound
    split at h
    · exact absurd h (by simp)
    · rename_i htop
      have hsome : found.isEmpty = false := by
        rw [isEmpty_eq_isEmpty_topLevel hextracted]
        exact Bool.eq_false_iff.mpr htop
      exact ⟨t, found, ⟨treeOf?_eq_some_iff.mp ht, hextracted, hsome⟩, (Option.some.inj h).symm⟩
  · rintro ⟨t, found, ⟨hparsed, hextracted, hsome⟩, rfl⟩
    rw [isEmpty_eq_isEmpty_topLevel hextracted] at hsome
    refine Option.bind_eq_some_iff.mpr ⟨t, treeOf?_eq_some_iff.mpr hparsed, ?_⟩
    refine Option.bind_eq_some_iff.mpr ⟨found, toOption_eq_some_iff.mpr hextracted, ?_⟩
    rw [if_neg (Bool.eq_false_iff.mp hsome)]

theorem TreeFails.not_treeYields (h : TreeFails parser maxDepth content language)
    (t : SyntaxTree) (found : Extraction) :
    ¬ TreeYields parser maxDepth content language t found := by
  rintro ⟨⟨p, rfl, hp, hparse⟩, hextracted, hsome⟩
  obtain ⟨⟨⟨root, hroot⟩, hsource⟩, -⟩ := isFromTree_of_extractTree hextracted
  cases h with
  | absent h => exact absurd h (by simp)
  | unsupported q h hq =>
    cases h
    rw [hp] at hq
    exact absurd hq (by decide)
  | refused q e h hq =>
    cases h
    rw [hparse] at hq
    exact absurd hq (by simp)
  | emptyTree q u h hq hempty =>
    cases h
    obtain rfl : t = u := by simpa [hparse] using hq
    rw [hroot] at hempty
    exact absurd hempty (by simp)
  | otherSource q u h hq hother =>
    cases h
    obtain rfl : t = u := by simpa [hparse] using hq
    exact hother hsource
  | nothingFound q u empty h hq hfound hempty =>
    cases h
    obtain rfl : t = u := by simpa [hparse] using hq
    obtain rfl : found = empty := by simpa [hextracted] using hfound
    rw [hsome] at hempty
    exact absurd hempty (by decide)

/-- There is no third way. -/
theorem treeYields_or_treeFails (parser : Option ParserService) (maxDepth : Nat) (content : Text)
    (language : String) :
    (∃ t found, TreeYields parser maxDepth content language t found) ∨
      TreeFails parser maxDepth content language := by
  cases parser with
  | none => exact Or.inr (.absent rfl)
  | some p =>
    by_cases hp : p.supports language = true
    · cases hparse : p.parse content language with
      | error e => exact Or.inr (.refused p e rfl hparse)
      | ok t =>
        cases hroot : t.root? with
        | none => exact Or.inr (.emptyTree p t rfl hparse hroot)
        | some root =>
          by_cases hsource : t.source = content
          · have hover : t.IsOver content := ⟨⟨root, hroot⟩, hsource⟩
            obtain ⟨found, hfound⟩ := exists_extractTree_eq_ok hover maxDepth language
            cases hempty : found.isEmpty with
            | true => exact Or.inr (.nothingFound p t found rfl hparse hfound hempty)
            | false => exact Or.inl ⟨t, found, ⟨p, rfl, hp, hparse⟩, hfound, hempty⟩
          · exact Or.inr (.otherSource p t rfl hparse hsource)
    · exact Or.inr (.unsupported p rfl (Bool.eq_false_iff.mpr hp))

theorem TreeYields.extractAll_eq {t : SyntaxTree} {found : Extraction}
    (h : TreeYields parser maxDepth content language t found) :
    extractAll parser maxDepth content language = { found with tree := some t } := by
  rw [extractAll, extractByTree?_eq_some_iff.mpr ⟨t, found, h, rfl⟩, Option.getD_some]

theorem TreeFails.extractAll_eq (h : TreeFails parser maxDepth content language) :
    extractAll parser maxDepth content language = extractText content language := by
  have hnone : extractByTree? parser maxDepth content language = none := by
    refine Option.eq_none_iff_forall_ne_some.mpr fun x hx => ?_
    obtain ⟨t, found, hyields, -⟩ := extractByTree?_eq_some_iff.mp hx
    exact h.not_treeYields t found hyields
  rw [extractAll, hnone, Option.getD_none]

/-- What was read from a tree is what a tree yields. -/
theorem exists_treeYields_of_strategy
    (h : (extractAll parser maxDepth content language).strategy = .tree) :
    ∃ t found, TreeYields parser maxDepth content language t found := by
  refine (treeYields_or_treeFails parser maxDepth content language).resolve_right fun hfails => ?_
  rw [hfails.extractAll_eq] at h
  exact absurd h (by simp [extractText])

/-- What was read from text is what it is without a parser. -/
theorem extractAll_eq_of_strategy
    (h : (extractAll parser maxDepth content language).strategy = .text) :
    extractAll parser maxDepth content language = extractText content language := by
  rcases treeYields_or_treeFails parser maxDepth content language with ⟨t, found, hyields⟩ | hfails
  · rw [hyields.extractAll_eq] at h
    have htree := (isFromTree_of_extractTree hyields.extracted).2.strategy_eq
    exact absurd (htree.symm.trans h) (by decide)
  · exact hfails.extractAll_eq

/-- Either the tree yields something, in any tier, and the result is that with the tree attached,
or it fails in one of the listed ways, and the result is that of the text.  And where a tree has
nothing on the top level it has nothing at all. -/
theorem extractAll_eq_tree_or_text (parser : Option ParserService) (maxDepth : Nat)
    (content : Text) (language : String) :
    (∀ t found, TreeYields parser maxDepth content language t found →
      extractAll parser maxDepth content language = { found with tree := some t }) ∧
    (TreeFails parser maxDepth content language →
      extractAll parser maxDepth content language = extractText content language) ∧
    ((∃ t found, TreeYields parser maxDepth content language t found) ∨
      TreeFails parser maxDepth content language) ∧
    ∀ t found, extractTree maxDepth content language t = .ok found → found.topLevel = [] →
      found.nested = [] ∧ found.internal = [] :=
  ⟨fun _ _ h => h.extractAll_eq, fun h => h.extractAll_eq,
    treeYields_or_treeFails parser maxDepth content language,
    fun _ _ h htop => nil_of_topLevel_eq_nil h htop⟩

/-- A service that reads every language and answers every text in the same way. -/
def ParserService.constant (answer : Except ParseError SyntaxTree) : ParserService where
  parse _ _ := answer
  detect? _ := none
  supports _ := true

/-- The tree of one node over a text. -/
def SyntaxTree.single (kind : String) (source : Text) : SyntaxTree :=
  (ofSource source).add none kind none 0 source.byteLength

/-- A parser that breaks off leaves the result to the text; one that gives a node for a whole JSON
text decides; and over a blank text such a node gives nothing in any tier. -/
theorem extractAll_of_panic_and_of_document :
    extractAll (some (.constant (.error .panicked))) 10 "x = 1".toList "python" =
      extractText "x = 1".toList "python" ∧
    (∃ found : Extraction, found.topLevel.length = 1 ∧
      extractAll (some (.constant (.ok (.single "document" "[]".toList)))) 10 "[]".toList "json" =
        { found with tree := some (.single "document" "[]".toList) }) ∧
    ∃ found, extractTree 10 " ".toList "json" (.single "document" " ".toList) = .ok found ∧
      found.nested = [] ∧ found.internal = [] := by
  refine ⟨?_, ?_, ?_⟩
  · exact (extractAll_eq_tree_or_text _ 10 _ _).2.1 (.refused _ .panicked rfl rfl)
  · obtain ⟨found, hfound, hcomputed⟩ : ∃ found,
        extractTree 10 "[]".toList "json" (.single "document" "[]".toList) = .ok found ∧
          decide (found.topLevel.length = 1 ∧ found.isEmpty = false) = true :=
      exists_ok_of_any (by decide +kernel)
    obtain ⟨hlength, hsome⟩ := of_decide_eq_true hcomputed
    exact ⟨found, hlength, (extractAll_eq_tree_or_text _ 10 _ _).1 _ found
      ⟨⟨_, rfl, rfl, rfl⟩, hfound, hsome⟩⟩
  · obtain ⟨found, hfound, hcomputed⟩ : ∃ found,
        extractTree 10 " ".toList "json" (.single "document" " ".toList) = .ok found ∧
          found.topLevel.isEmpty = true :=
      exists_ok_of_any (by decide +kernel)
    exact ⟨found, hfound, (extractAll_eq_tree_or_text none 10 _ _).2.2.2 _ found hfound
      (List.isEmpty_iff.mp hcomputed)⟩

end Outline

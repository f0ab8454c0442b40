import Outline.Import
import Outline.Proofs.Import.Place
import Outline.Proofs.Pattern.InLine

/-!
# Imports among line ends of two characters

The forms of imports are looked for in the text itself, so carriage returns before the line feeds
might lead the search astray.  They do not, for nearly all forms: the patterns tolerate them
(`isTolerant_of_mem_importRules`, by evaluation of the table), and where a statement may go on in
the next line its classes take both characters of a line end.  The exception are the imports of ES
modules.  What stands there before the word `from` may go over several lines, but is a class of
characters that has the line feed and not the carriage return.

So a text with carriage returns has the imports of the text without, found by patterns whose classes
do not take line feeds on their own.  If all imports of ES modules stand in one line each, these are
the imports of the text without (`scanImports_withReturns`).

* `importsOfRule_withReturns`, `importsInBlocks_withReturns`: what is found, with its targets as
  they are written.
* `scanImportsBy`: the imports of a text under given rules.
-/

namespace Outline

open Pattern

/-- An import whose target is written with carriage returns before its line feeds. -/
def Import.withReturns (i : Import) : Import :=
  { i with target := String.ofList (Text.withReturns i.target.toList) }

theorem Import.withReturns_eq_self {i : Import} (h : '\n' ∉ i.target.toList) :
    i.withReturns = i := by
  rw [withReturns, Text.withReturns_eq_self h, String.ofList_toList]

/-- The rule whose classes take a line feed only where they take a carriage return. -/
def ImportRule.withoutLoneFeeds (rule : ImportRule) : ImportRule :=
  { rule with pattern := rule.pattern.withoutLoneFeeds }

/-! ## The table -/

theorem isTolerant_of_mem_importRules : ∀ rule ∈ importRules,
    rule.pattern.isTolerant = true ∧ rule.pattern.seesLineEnd = false := by
  decide

/-- No other form has a class that takes a line feed on its own, and the targets of this one have no
line feeds. -/
theorem takesLoneFeed_of_mem_importRules : ∀ rule ∈ importRules,
    rule.pattern.takesLoneFeed = true → rule.form = .esModule ∧ rule.splits = false ∧
      rule.pattern.withoutLoneFeeds.capturesWithout '\n' = true := by
  decide

theorem isTolerant_importBlock : importBlock.isTolerant = true ∧
    importBlock.seesLineEnd = false ∧ importBlock.takesLoneFeed = false := by
  decide

theorem isTolerant_importEntry : importEntry.isTolerant = true ∧
    importEntry.seesLineEnd = false ∧ importEntry.takesLoneFeed = false := by
  decide

theorem withoutLoneFeeds_of_mem_importRules {rule : ImportRule} (h : rule ∈ importRules)
    (hform : rule.form ≠ .esModule) : rule.withoutLoneFeeds = rule := by
  have hlone : rule.pattern.takesLoneFeed = false :=
    eq_false_of_ne_true fun hlone => hform (takesLoneFeed_of_mem_importRules rule h hlone).1
  rw [ImportRule.withoutLoneFeeds, Pattern.withoutLoneFeeds_eq_self hlone]

/-! ## What is found -/

section Found

variable {content : Text} (hcontent : '\r' ∉ content)

theorem flatMap_eq_of_forall₂ {α β γ : Type} {R : α → β → Prop} {f : α → List γ} {g : β → List γ}
    (hfg : ∀ a b, R a b → f a = g b) {as : List α} {bs : List β} (h : List.Forall₂ R as bs) :
    as.flatMap f = bs.flatMap g := by
  induction h with
  | nil => rfl
  | cons hab _ ih => rw [List.flatMap_cons, List.flatMap_cons, hfg _ _ hab, ih]

theorem filterMap_eq_of_forall₂ {α β γ : Type} {R : α → β → Prop} {f : α → Option γ}
    {g : β → Option γ} (hfg : ∀ a b, R a b → f a = g b) {as : List α} {bs : List β}
    (h : List.Forall₂ R as bs) : as.filterMap f = bs.filterMap g := by
  induction h with
  | nil => rfl
  | cons hab _ ih => rw [List.filterMap_cons, List.filterMap_cons, hfg _ _ hab, ih]

/-- A target is found on the same line, and written as it stands in the text. -/
theorem importOf?_mirrored (content : Text) (form : ImportForm) (index : Nat) (target : Text) :
    importOf? content.withReturns form (content.mirrored index) target.withReturns =
      (importOf? content form index target).map Import.withReturns := by
  simp only [importOf?, Text.trim_withReturns, Text.isEmpty_withReturns, Text.lineAt_mirrored]
  split
  · rfl
  · rw [Option.map_some, Import.withReturns, String.toList_ofList]

theorem filterMap_importOf?_mirrored (form : ImportForm) (index : Nat) (targets : List Text) :
    (targets.map Text.withReturns).filterMap
        (importOf? content.withReturns form (content.mirrored index)) =
      (targets.filterMap (importOf? content form index)).map Import.withReturns := by
  rw [List.filterMap_map, List.map_filterMap]
  exact List.filterMap_congr fun target _ => importOf?_mirrored content form index target

include hcontent in
/-- What a rule finds among carriage returns, the rule without lone line feeds finds without
them. -/
theorem importsOfRule_withReturns {rule : ImportRule} (htolerant : rule.pattern.isTolerant = true)
    (hend : rule.pattern.seesLineEnd = false) :
    importsOfRule content.withReturns rule =
      (importsOfRule content rule.withoutLoneFeeds).map Import.withReturns := by
  have hall := Pattern.all_mirrors htolerant hcontent
  rw [Pattern.mirrored_eq_withoutLoneFeeds hend] at hall
  rw [importsOfRule, importsOfRule, List.map_flatMap]
  refine (flatMap_eq_of_forall₂ (fun f f' hff' => ?_) hall).symm
  rw [hff'.span?_eq]
  cases f.span? 1 with
  | none => rfl
  | some g =>
    obtain ⟨start, stop⟩ := g
    have htargets : (if rule.splits then
          Text.splitOn ',' (Text.withReturns (Found.cut content start stop))
        else [Text.withReturns (Found.cut content start stop)]) =
        (if rule.splits then Text.splitOn ',' (Found.cut content start stop)
          else [Found.cut content start stop]).map Text.withReturns := by
      split
      · exact Text.splitOn_withReturns (by decide) (by decide) _
      · rfl
    simp only [Option.map_some, cut_mirrored, htargets]
    exact (filterMap_importOf?_mirrored rule.form start _).symm

/-- The import of an entry of a block, whose body begins at a place of the text. -/
def entryImport? (content : Text) (start : Nat) (body : Text) (entry : Found) : Option Import := do
  let (first, last) ← entry.span? 1
  importOf? content .go (start + first) (Found.cut body first last)

/-- An entry is found in the body of its block, but counts from where the body begins. -/
theorem entryImport?_mirrored {start stop : Nat} {entry entry' : Found}
    (hentry : importEntry.IsMatch (Found.cut content start stop) entry)
    (h : FoundAlike (Found.cut content start stop) entry entry') :
    entryImport? content.withReturns (content.mirrored start)
        (Text.withReturns (Found.cut content start stop)) entry' =
      (entryImport? content start (Found.cut content start stop) entry).map
        Import.withReturns := by
  rw [entryImport?, entryImport?, h.span?_eq]
  cases hspan : entry.span? 1 with
  | none => rfl
  | some g =>
    obtain ⟨first, last⟩ := g
    have hfirst : first ≤ stop - start := by
      have hle := hentry.le_of_span? hspan
      have hlength : (Found.cut content start stop).length ≤ stop - start := by
        rw [Found.cut, List.length_take]
        exact Nat.min_le_left _ _
      omega
    have hplace : content.mirrored start + Text.mirrored (Found.cut content start stop) first =
        content.mirrored (start + first) := by
      rw [Text.mirrored_add, Found.cut, Text.mirrored_take hfirst]
    simp only [Option.map_some, Option.bind_eq_bind, Option.bind_some, cut_mirrored, hplace]
    exact importOf?_mirrored content .go (start + first) _

include hcontent in
/-- The entries of one block. -/
theorem filterMap_entryImport? (start stop : Nat) :
    (importEntry.all (Text.withReturns (Found.cut content start stop))).filterMap
        (entryImport? content.withReturns (content.mirrored start)
          (Text.withReturns (Found.cut content start stop))) =
      ((importEntry.all (Found.cut content start stop)).filterMap
        (entryImport? content start (Found.cut content start stop))).map Import.withReturns := by
  obtain ⟨htolerant, hend, hlone⟩ := isTolerant_importEntry
  have hbody : '\r' ∉ Found.cut content start stop := fun hmem =>
    hcontent (List.mem_of_mem_drop (List.mem_of_mem_take hmem))
  have hall := Pattern.all_mirrors htolerant hbody
  rw [Pattern.mirrored_eq_withoutLoneFeeds hend, Pattern.withoutLoneFeeds_eq_self hlone] at hall
  rw [List.map_filterMap]
  refine (filterMap_eq_of_forall₂ (fun f f' hff' => ?_)
    ((List.forall₂_and_left _ _).mpr ⟨fun f => isMatch_of_mem_all, hall⟩)).symm
  exact (entryImport?_mirrored hff'.1 hff'.2).symm

include hcontent in
theorem importsInBlocks_withReturns :
    importsInBlocks content.withReturns = (importsInBlocks content).map Import.withReturns := by
  obtain ⟨htolerant, hend, hlone⟩ := isTolerant_importBlock
  have hall := Pattern.all_mirrors htolerant hcontent
  rw [Pattern.mirrored_eq_withoutLoneFeeds hend, Pattern.withoutLoneFeeds_eq_self hlone] at hall
  rw [importsInBlocks, importsInBlocks, List.map_flatMap]
  refine (flatMap_eq_of_forall₂ (fun f f' hff' => ?_) hall).symm
  rw [hff'.span?_eq]
  cases f.span? 1 with
  | none => rfl
  | some g =>
    simp only [Option.map_some, cut_mirrored]
    exact (filterMap_entryImport? hcontent g.1 g.2).symm

end Found

/-! ## All imports -/

/-- The imports of a text, found by the patterns of given rules and in blocks. -/
def scanImportsBy (rules : List ImportRule) (content : Text) : List Import :=
  (distinctBy (fun i : Import => (i.line, i.target))
    (rules.flatMap (importsOfRule content) ++ importsInBlocks content)).mergeSort Import.le

theorem scanImports_eq_scanImportsBy (content : Text) :
    scanImports content = scanImportsBy importRules content := rfl

theorem newline_notMem_of_importOf? {content target : Text} {form : ImportForm} {index : Nat}
    {i : Import} (h : importOf? content form index target = some i) (htarget : '\n' ∉ target) :
    '\n' ∉ i.target.toList := by
  simp only [importOf?, Option.ite_none_left_eq_some, Option.some_inj] at h
  rw [← h.2, String.toList_ofList]
  exact fun hmem => htarget (Text.mem_of_mem_trim hmem)

/-- If no target that is reported has a line feed, no import that is found by the rules without lone
line feeds has one. -/
theorem newline_notMem_of_mem_importsOfRule {content : Text}
    (htargets : ∀ i ∈ scanImports content, '\n' ∉ i.target.toList) {rule : ImportRule}
    (hrule : rule ∈ importRules) {i : Import}
    (hi : i ∈ importsOfRule content rule.withoutLoneFeeds) : '\n' ∉ i.target.toList := by
  cases hlone : rule.pattern.takesLoneFeed with
  | false =>
    rw [ImportRule.withoutLoneFeeds, Pattern.withoutLoneFeeds_eq_self hlone] at hi
    obtain ⟨j, hj, -, htarget⟩ := exists_mem_scanImports
      (List.mem_append_left (importsInBlocks content) (List.mem_flatMap.mpr ⟨rule, hrule, hi⟩))
    exact htarget ▸ htargets j hj
  | true =>
    -- the target of such a rule is one quoted text
    obtain ⟨-, hsplits, hcaptures⟩ := takesLoneFeed_of_mem_importRules rule hrule hlone
    obtain ⟨f, hf, start, stop, hspan, target, htarget, hi⟩ := mem_importsOfRule_iff.mp hi
    have hcut : '\n' ∉ Found.cut content start stop :=
      (isMatch_of_mem_all hf).notMem_of_span? hcaptures hspan
    have hsplits' : rule.withoutLoneFeeds.splits = false := hsplits
    rw [hsplits', if_neg Bool.false_ne_true, List.mem_singleton] at htarget
    exact newline_notMem_of_importOf? hi (htarget ▸ hcut)

/-- What is found among carriage returns is what the rules without lone line feeds find without
them, if no target has a line feed. -/
theorem found_withReturns {content : Text} (hcontent : '\r' ∉ content)
    (htargets : ∀ i ∈ scanImports content, '\n' ∉ i.target.toList) :
    importRules.flatMap (importsOfRule content.withReturns) ++
        importsInBlocks content.withReturns =
      (importRules.map ImportRule.withoutLoneFeeds).flatMap (importsOfRule content) ++
        importsInBlocks content := by
  have hrules : importRules.flatMap (importsOfRule content.withReturns) =
      (importRules.map ImportRule.withoutLoneFeeds).flatMap (importsOfRule content) := by
    rw [List.flatMap_map]
    refine List.flatMap_congr fun rule hrule => ?_
    obtain ⟨htolerant, hend⟩ := isTolerant_of_mem_importRules rule hrule
    rw [importsOfRule_withReturns hcontent htolerant hend]
    refine (List.map_congr_left fun i hi => ?_).trans (List.map_id _)
    exact Import.withReturns_eq_self (newline_notMem_of_mem_importsOfRule htargets hrule hi)
  have hblocks : importsInBlocks content.withReturns = importsInBlocks content := by
    rw [importsInBlocks_withReturns hcontent]
    refine (List.map_congr_left fun i hi => ?_).trans (List.map_id _)
    obtain ⟨j, hj, -, htarget⟩ := exists_mem_scanImports (List.mem_append_right _ hi)
    exact Import.withReturns_eq_self (htarget ▸ htargets j hj)
  rw [hrules, hblocks]

/-- A text whose lines end in a carriage return and a line feed has the imports that are found in
the text without carriage returns by the rules whose classes do not take a line feed alone, if no
target has a line feed in it.  If all matches for imports of ES modules stay in their line, these
are the imports of the text without carriage returns. -/
theorem scanImports_withReturns {content : Text} (hcontent : '\r' ∉ content)
    (htargets : ∀ i ∈ scanImports content, '\n' ∉ i.target.toList) :
    scanImports content.withReturns =
        scanImportsBy (importRules.map ImportRule.withoutLoneFeeds) content ∧
      ((∀ rule ∈ importRules, rule.form = .esModule → ∀ f ∈ rule.pattern.all content,
          '\n' ∉ Found.cut content f.start f.stop) →
        scanImports content.withReturns = scanImports content) := by
  have hreturns : scanImports content.withReturns =
      scanImportsBy (importRules.map ImportRule.withoutLoneFeeds) content := by
    rw [scanImports, found_withReturns hcontent htargets, scanImportsBy]
  refine ⟨hreturns, fun hline => ?_⟩
  have hrules : (importRules.map ImportRule.withoutLoneFeeds).flatMap (importsOfRule content) =
      importRules.flatMap (importsOfRule content) := by
    rw [List.flatMap_map]
    refine List.flatMap_congr fun rule hrule => ?_
    by_cases hform : rule.form = .esModule
    · rw [importsOfRule, importsOfRule, ImportRule.withoutLoneFeeds,
        Pattern.all_withoutLoneFeeds (hline rule hrule hform)]
    · rw [withoutLoneFeeds_of_mem_importRules hrule hform]
  rw [hreturns, scanImports_eq_scanImportsBy, scanImportsBy, scanImportsBy, hrules]

/-- A block whose entry stands on a line of its own, an import with a comment behind it, and one of
an ES module that stands on one line. -/
def importBlockAndLines : Text :=
  "import (\n\"a\"\n)\nimport b, c # d\nimport e from 'f'\n".toList

theorem scanImports_withReturns_of_block :
    (importRules.flatMap (importsOfRule importBlockAndLines) ++
        importsInBlocks importBlockAndLines).length = 4 ∧
      scanImports importBlockAndLines.withReturns = scanImports importBlockAndLines := by
  have htargets : ∀ i ∈ distinctBy (fun i : Import => (i.line, i.target))
      (importRules.flatMap (importsOfRule importBlockAndLines) ++
        importsInBlocks importBlockAndLines), '\n' ∉ i.target.toList := by decide +kernel
  refine ⟨by decide +kernel, ?_⟩
  exact (scanImports_withReturns (by decide +kernel)
    fun i hi => htargets i (List.mem_mergeSort.mp hi)).2 (by decide +kernel)

/-- An import of an ES module whose names stand on a line of their own. -/
def importOverLines : Text := "import \x7b\n  a\n\x7d from 'b'\n".toList

/-- It is found between line feeds, and not where a class would have to take a carriage return. -/
theorem scanImports_withReturns_ne :
    '\r' ∉ importOverLines ∧ (∀ i ∈ scanImports importOverLines, '\n' ∉ i.target.toList) ∧
      scanImports importOverLines.withReturns ≠ scanImports importOverLines := by
  refine ⟨by decide +kernel, by decide +kernel, fun h => ?_⟩
  have hlength := congrArg List.length h
  exact absurd hlength (by decide +kernel)

end Outline

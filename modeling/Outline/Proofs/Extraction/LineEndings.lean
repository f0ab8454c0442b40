import Outline.Proofs.Extraction.LineSpan
import Outline.Proofs.Pattern.Capture
import Outline.Proofs.Pattern.Returns

/-!
# Extraction among line ends of two characters

The structures of a text should not depend on how its lines end.  Nearly all that is done with a
text is done with its lines, which are the same in both forms.  Only the patterns of the top level
are looked for in the text itself.  They tolerate the carriage returns, in all languages
(`isIndifferent_of_mem_topLevel`, by evaluation of the tables), except that they do not see where a
line ends.  So a text with carriage returns gives what the text without gives under rules whose top
level sees the end of the text only (`extractText_withReturns`); for most languages that is the
same, because they do not ask for the end of a line there.

The rules for functions in C and C++ do, so of these only the last one is found, if no line end
follows it (`extractText_withReturns_ne`).

* `HitAlike`, `hits_mirror`: what is found on the top level.
* `extractBy`: the structures of a text under given rules.
-/

namespace Outline

/-! ## Rules without line ends -/

/-- The rule whose pattern does not see the ends of lines. -/
def PatternRule.withoutLineEnds (rule : PatternRule) : PatternRule :=
  { rule with pattern := rule.pattern.withoutLineEnds }

/-- The rules whose patterns for the top level do not see the ends of lines. -/
def Rules.withoutLineEnds (r : Rules) : Rules :=
  { r with
    patterns := fun
      | .topLevel => (r.patterns .topLevel).map PatternRule.withoutLineEnds
      | tier => r.patterns tier }

namespace Pattern

theorem groupCount_withoutLineEnds (p : Pattern) :
    p.withoutLineEnds.groupCount = p.groupCount := by
  induction p with
  | seq p q ihp ihq => rw [withoutLineEnds, groupCount, groupCount, ihp, ihq]
  | alt p q ihp ihq => rw [withoutLineEnds, groupCount, groupCount, ihp, ihq]
  | star greedy p ih => rw [withoutLineEnds, groupCount, groupCount, ih]
  | group n p ih => rw [withoutLineEnds, groupCount, groupCount, ih]
  | _ => rfl

theorem excludes_withoutLineEnds (bad : Char) (p : Pattern) :
    p.withoutLineEnds.excludes bad = p.excludes bad := by
  induction p with
  | seq p q ihp ihq => rw [withoutLineEnds, excludes, excludes, ihp, ihq]
  | alt p q ihp ihq => rw [withoutLineEnds, excludes, excludes, ihp, ihq]
  | star greedy p ih => rw [withoutLineEnds, excludes, excludes, ih]
  | group n p ih => rw [withoutLineEnds, excludes, excludes, ih]
  | _ => rfl

theorem capturesWithout_withoutLineEnds (bad : Char) (p : Pattern) :
    p.withoutLineEnds.capturesWithout bad = p.capturesWithout bad := by
  induction p with
  | seq p q ihp ihq => rw [withoutLineEnds, capturesWithout, capturesWithout, ihp, ihq]
  | alt p q ihp ihq => rw [withoutLineEnds, capturesWithout, capturesWithout, ihp, ihq]
  | star greedy p ih => rw [withoutLineEnds, capturesWithout, capturesWithout, ih]
  | group n p ih =>
    rw [withoutLineEnds, capturesWithout, capturesWithout, excludes_withoutLineEnds, ih]
  | _ => rfl

/-- A pattern whose matches carriage returns do not change, but for the ends of lines. -/
def isIndifferent (p : Pattern) : Bool :=
  p.isTolerant && !p.takesLoneFeed && p.capturesWithout '\n'

end Pattern

theorem Rules.withoutLineEnds_eq_self {r : Rules}
    (h : ∀ rule ∈ r.patterns .topLevel, rule.pattern.seesLineEnd = false) :
    r.withoutLineEnds = r := by
  have hpatterns : r.withoutLineEnds.patterns = r.patterns := by
    funext tier
    cases tier with
    | topLevel =>
      refine (List.map_congr_left fun rule hrule => ?_).trans (List.map_id _)
      rw [PatternRule.withoutLineEnds, Pattern.withoutLineEnds_eq_self (h rule hrule)]
      rfl
    | _ => rfl
  cases r
  exact congrArg _ hpatterns

/-! ## The tables -/

theorem isIndifferent_of_mem_entry : ∀ e ∈ entries, ∀ rule ∈ e.rules.patterns .topLevel,
    rule.pattern.isIndifferent = true := by
  decide

theorem isIndifferent_of_mem_generic : ∀ rule ∈ genericRules.patterns .topLevel,
    rule.pattern.isIndifferent = true := by
  decide

/-- No pattern for the top level is led astray by carriage returns. -/
theorem isIndifferent_of_mem_topLevel {language : String} {rule : PatternRule}
    (h : rule ∈ (rulesOf language).patterns .topLevel) : rule.pattern.isIndifferent = true := by
  rcases rulesOf_cases language with hr | ⟨e, he, hr⟩
  · exact isIndifferent_of_mem_generic rule (hr ▸ h)
  · exact isIndifferent_of_mem_entry e he rule (hr ▸ h)

theorem seesLineEnd_of_mem_entry : ∀ e ∈ entries, e.rules.name ≠ "c" → e.rules.name ≠ "cpp" →
    ∀ rule ∈ e.rules.patterns .topLevel, rule.pattern.seesLineEnd = false := by
  decide

theorem seesLineEnd_of_mem_generic : ∀ rule ∈ genericRules.patterns .topLevel,
    rule.pattern.seesLineEnd = false := by
  decide

/-- Only C and C++ ask for the end of a line on the top level. -/
theorem withoutLineEnds_rulesOf {language : String} (hc : (rulesOf language).name ≠ "c")
    (hcpp : (rulesOf language).name ≠ "cpp") :
    (rulesOf language).withoutLineEnds = rulesOf language := by
  refine Rules.withoutLineEnds_eq_self ?_
  rcases rulesOf_cases language with hr | ⟨e, he, hr⟩
  · rw [hr]
    exact seesLineEnd_of_mem_generic
  · rw [hr] at hc hcpp ⊢
    exact seesLineEnd_of_mem_entry e he hc hcpp

/-! ## Hits -/

/-- The number of the line on which a match begins is the same. -/
theorem Pattern.FoundAlike.lineAt_eq {t : Text} {f f' : Found} (h : Pattern.FoundAlike t f f') :
    t.lineAt f.start = t.withReturns.lineAt f'.start := by
  rw [h.start_eq, Text.lineAt_mirrored]

namespace TextExtraction

variable {r : Rules} {content : Text} {language : String}

/-- Two matches announce the same. -/
structure HitAlike (h h' : Hit) : Prop where
  line_eq : h.line = h'.line
  name_eq : h.name = h'.name
  kind_eq : h.rule.kind = h'.rule.kind
  confidence_eq : h.rule.confidence = h'.rule.confidence

theorem capturedName?_mirrors {p : Pattern} {f f' : Found}
    (h : Pattern.FoundAlike content f f')
    (hgroups : ∀ n start stop, f.span? n = some (start, stop) →
      '\n' ∉ Found.cut content start stop) :
    Hit.capturedName? p.withoutLineEnds content f =
      Hit.capturedName? p content.withReturns f' := by
  have hgroup : ∀ n, f.group? content n = f'.group? content.withReturns n := by
    intro n
    rw [Found.group?, Found.group?, h.span?_eq]
    cases hspan : f.span? n with
    | none => rfl
    | some g =>
      have hcut := cut_mirrored content g.1 g.2
      rw [Text.withReturns_eq_self (hgroups n g.1 g.2 hspan)] at hcut
      exact congrArg some hcut.symm
  simp only [Hit.capturedName?, Pattern.groupCount_withoutLineEnds, hgroup]

/-- The matches of a rule that is indifferent to carriage returns. -/
theorem ofRule_mirrors (hcontent : '\r' ∉ content) {rule : PatternRule}
    (h : rule.pattern.isIndifferent = true) :
    List.Forall₂ HitAlike (Hit.ofRule content rule.withoutLineEnds)
      (Hit.ofRule content.withReturns rule) := by
  rw [Pattern.isIndifferent, Bool.and_eq_true, Bool.and_eq_true, Bool.not_eq_true'] at h
  obtain ⟨⟨htolerant, hlone⟩, hcaptures⟩ := h
  have hall := Pattern.all_mirrors htolerant hcontent
  rw [Pattern.mirrored_eq_withoutLineEnds hlone] at hall
  rw [Hit.ofRule, Hit.ofRule, List.forall₂_map_left_iff, List.forall₂_map_right_iff]
  have hmatch : ∀ f ∈ rule.pattern.withoutLineEnds.all content,
      rule.pattern.withoutLineEnds.IsMatch content f := fun f => Pattern.isMatch_of_mem_all
  refine ((List.forall₂_and_left _ _).mpr ⟨hmatch, hall⟩).imp fun f f' hf => ?_
  refine ⟨hf.2.lineAt_eq, capturedName?_mirrors hf.2 fun n start stop hspan => ?_, rfl, rfl⟩
  exact hf.1.notMem_of_span? (by rw [Pattern.capturesWithout_withoutLineEnds, hcaptures]) hspan

theorem ofRules_mirrors (hcontent : '\r' ∉ content) : ∀ {rules : List PatternRule},
    (∀ rule ∈ rules, rule.pattern.isIndifferent = true) →
      List.Forall₂ HitAlike (Hit.ofRules content (rules.map PatternRule.withoutLineEnds))
        (Hit.ofRules content.withReturns rules)
  | [], _ => .nil
  | rule :: rules, h => by
    obtain ⟨hrule, hrules⟩ := List.forall_mem_cons.mp h
    exact List.rel_append (ofRule_mirrors hcontent hrule) (ofRules_mirrors hcontent hrules)

/-! ## Structures -/

theorem forall₂_distinctFrom {α : Type} {R : α → α → Prop} {key : α → Nat}
    (hkey : ∀ a b, R a b → key a = key b) : ∀ {as bs : List α} (seen : List Nat),
      List.Forall₂ R as bs →
        List.Forall₂ R (distinctFrom key seen as) (distinctFrom key seen bs) := by
  intro as bs seen h
  induction h generalizing seen with
  | nil => exact .nil
  | @cons a b as bs hab _ ih =>
    rw [distinctFrom, distinctFrom, hkey a b hab]
    split
    · exact ih seen
    · exact .cons hab (ih (key b :: seen))

theorem map_eq_of_forall₂ {α β : Type} {R : α → α → Prop} {f : α → β}
    (hf : ∀ a b, R a b → f a = f b) {as bs : List α} (h : List.Forall₂ R as bs) :
    as.map f = bs.map f := by
  induction h with
  | nil => rfl
  | cons hab _ ih => rw [List.map_cons, List.map_cons, hf _ _ hab, ih]

/-- What a match announces is its line, its name, its kind and its confidence. -/
theorem HitAlike.structureAt_eq {h h' : Hit} (hh : HitAlike h h') (lines : List Text)
    (style : BlockStyle) (language : String) :
    structureAt lines style language h = structureAt lines style language h' := by
  simp only [structureAt, hh.line_eq, hh.name_eq, hh.kind_eq, hh.confidence_eq]

theorem declarations_withReturns (hcontent : '\r' ∉ content)
    (hr : ∀ rule ∈ r.patterns .topLevel, rule.pattern.isIndifferent = true) :
    declarations r content.withReturns language =
      declarations r.withoutLineEnds content language := by
  have hhits : List.Forall₂ HitAlike
      (Hit.ofRules content (r.withoutLineEnds.patterns .topLevel))
      (Hit.ofRules content.withReturns (r.patterns .topLevel)) :=
    ofRules_mirrors hcontent hr
  have hfree : List.Forall₂ HitAlike
      ((Hit.ofRules content (r.withoutLineEnds.patterns .topLevel)).filter fun h => !h.isReserved)
      ((Hit.ofRules content.withReturns (r.patterns .topLevel)).filter fun h => !h.isReserved) := by
    refine List.rel_filter (fun h h' hh => ?_) hhits
    simp only [Hit.isReserved, hh.name_eq]
  have hdistinct := forall₂_distinctFrom (fun h h' hh => hh.line_eq) [] hfree
  simp only [declarations, distinctBy, Text.lines_withReturns hcontent]
  rw [← map_eq_of_forall₂
    (fun h h' hh => hh.structureAt_eq content.lines r.blockStyle language) hdistinct]
  rfl

end TextExtraction

/-! ## All tiers -/

/-- The structures of a text, found by the patterns of given rules. -/
def extractBy (r : Rules) (content : Text) (language : String) : Extraction :=
  let topLevel := TextExtraction.topLevel r content language
  let nested := TextExtraction.nested r content language topLevel
  { language
    strategy := .text
    topLevel
    nested
    internal := TextExtraction.internal r content topLevel nested
    tree := none }

theorem extractText_eq_extractBy (content : Text) (language : String) :
    extractText content language = extractBy (rulesOf language) content language := rfl

/-- Whether a construct ends where its braces, its indentation or a keyword says. -/
def BlockStyle.isCode (style : BlockStyle) : Bool := style != .document && style != .markdown

theorem topLevel_of_isCode {r : Rules} (h : r.blockStyle.isCode = true) (content : Text)
    (language : String) :
    TextExtraction.topLevel r content language =
      TextExtraction.declarations r content language := by
  rw [BlockStyle.isCode, Bool.and_eq_true, bne_iff_ne, bne_iff_ne] at h
  rw [TextExtraction.topLevel]
  split
  · rename_i hstyle
    exact absurd hstyle h.2
  · rename_i hstyle
    exact absurd hstyle h.1
  · rfl

theorem extractBy_withReturns {r : Rules} {content : Text} (hstyle : r.blockStyle.isCode = true)
    (hr : ∀ rule ∈ r.patterns .topLevel, rule.pattern.isIndifferent = true)
    (hcontent : '\r' ∉ content) (language : String) :
    extractBy r content.withReturns language = extractBy r.withoutLineEnds content language := by
  have htop : TextExtraction.topLevel r content.withReturns language =
      TextExtraction.topLevel r.withoutLineEnds content language := by
    rw [topLevel_of_isCode hstyle, topLevel_of_isCode (r := r.withoutLineEnds) hstyle,
      TextExtraction.declarations_withReturns hcontent hr]
  -- the other tiers see the lines only
  have hlines := Text.lines_withReturns hcontent
  simp only [extractBy, htop, TextExtraction.nested, TextExtraction.internal, hlines]
  rfl

/-- In a language whose constructs end by braces, indentation or a keyword, a text whose lines end
in a carriage return and a line feed gives what the text without carriage returns gives under rules
that see no line ends on the top level.  Unless the language is C or C++, that is the same as under
its own rules. -/
theorem extractText_withReturns (language : String) {content : Text}
    (hstyle : (rulesOf language).blockStyle.isCode = true) (hcontent : '\r' ∉ content) :
    extractText content.withReturns language =
        extractBy (rulesOf language).withoutLineEnds content language ∧
      ((rulesOf language).name ≠ "c" → (rulesOf language).name ≠ "cpp" →
        extractText content.withReturns language = extractText content language) := by
  have hreturns : extractText content.withReturns language =
      extractBy (rulesOf language).withoutLineEnds content language :=
    extractBy_withReturns hstyle (fun _ => isIndifferent_of_mem_topLevel) hcontent language
  refine ⟨hreturns, fun hc hcpp => ?_⟩
  rw [hreturns, withoutLineEnds_rulesOf hc hcpp, extractText_eq_extractBy]

/-- A constant whose value stands on the next line, so that its pattern takes the line end, and a
function. -/
theorem extractText_withReturns_of_constant :
    (TextExtraction.Hit.ofRules "X =\ndef f():\n  return X\n".toList
        ((rulesOf "python").patterns .topLevel)).length = 2 ∧
      extractText (Text.withReturns "X =\ndef f():\n  return X\n".toList) "python" =
        extractText "X =\ndef f():\n  return X\n".toList "python" := by
  refine ⟨by decide +kernel, ?_⟩
  exact (extractText_withReturns "python" (by decide +kernel) (by decide +kernel)).2
    (by decide +kernel) (by decide +kernel)

/-- A function of C: the pattern asks for the end of its first line, and does not find it behind a
carriage return. -/
theorem extractText_withReturns_ne :
    (rulesOf "c").blockStyle.isCode = true ∧ '\r' ∉ "int f() \x7b\n\x7d\n".toList ∧
      extractText (Text.withReturns "int f() \x7b\n\x7d\n".toList) "c" ≠
        extractText "int f() \x7b\n\x7d\n".toList "c" := by
  refine ⟨by decide +kernel, by decide +kernel, fun h => ?_⟩
  have hlength := congrArg (fun x => x.topLevel.length) h
  exact absurd hlength (by decide +kernel)

end Outline

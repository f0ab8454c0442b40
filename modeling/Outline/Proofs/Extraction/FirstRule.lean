import Mathlib.Data.Prod.Lex
import Outline.Proofs.Extraction.LineEndings
import Outline.Proofs.Extraction.LineOnce
import Outline.Proofs.Sort

/-!
# The first rule that has a match on a line

The rules of a tier are tried one after the other on the whole text, and of all matches that begin
on a line the first one makes a structure.  A match that captured a reserved word does not count and
leaves the line to the matches behind it.  So what decides is the order of the rules, and under one
rule the order of its matches; what matches elsewhere, and what a later rule has found on the line,
plays no part.

The extractor does this with a list of the lines that it has seen, and sorts the structures in the
end.  Both are undone here: an entry that is left by the list is the one that is found by a search
for its line (`mem_distinctBy_iff`), a search through all matches is one through the rules and then
one through the matches of a rule (`exists_isFirstMatch`), and what is sorted has the same entries.

* `PatternRule.Announces`: a match that counts.
* `IsFirstMatch`: the first one on a line.
* `topLevel_firstMatch`: the top level of a text has one structure for each line with a match, and
  the first match there tells what it is.
-/

namespace Outline

open TextExtraction

/-- A match of a rule that begins on a line and captured no reserved word. -/
structure PatternRule.Announces (rule : PatternRule) (text : Text) (line : Nat) (f : Found) :
    Prop where
  found : f ∈ rule.pattern.all text
  line_eq : text.lineAt f.start = line
  not_reserved : ∀ name, Hit.capturedName? rule.pattern text f = some name →
    isReservedWord name = false

/-- The first match that counts on a line, of the first rule that has one there. -/
structure IsFirstMatch (rules : List PatternRule) (text : Text) (line : Nat) (rule : PatternRule)
    (f : Found) : Prop where
  announces : rule.Announces text line f
  first_rule : ∃ before after, rules = before ++ rule :: after ∧
    ∀ q ∈ before, ∀ g, ¬ q.Announces text line g
  first_match : ∃ before after, rule.pattern.all text = before ++ f :: after ∧
    ∀ g ∈ before, ¬ rule.Announces text line g

namespace TextExtraction

variable {r : Rules} {content : Text} {language : String}

namespace Hit

/-- Whether a hit is on a line and names no reserved word. -/
def isOn (line : Nat) (h : Hit) : Bool := !h.isReserved && h.line == line

theorem isOn_iff {line : Nat} {h : Hit} :
    h.isOn line = true ↔ h.isReserved = false ∧ h.line = line := by
  rw [isOn, Bool.and_eq_true, Bool.not_eq_true', beq_iff_eq]

/-- A match that counts is a hit on its line. -/
theorem announces_iff {rule : PatternRule} {text : Text} {line : Nat} {f : Found} :
    rule.Announces text line f ↔ f ∈ rule.pattern.all text ∧
      isOn line ⟨rule, text.lineAt f.start, capturedName? rule.pattern text f⟩ = true := by
  rw [isOn_iff, isReserved, Option.any_eq_false]
  constructor
  · intro h
    exact ⟨h.found, h.not_reserved, h.line_eq⟩
  · rintro ⟨hfound, hname, hline⟩
    exact ⟨hfound, hline, hname⟩

/-- A search finds a hit on a line if some match counts there. -/
theorem exists_find?_isOn_iff {text : Text} {rules : List PatternRule} {line : Nat} :
    (∃ h, (ofRules text rules).find? (isOn line) = some h) ↔
      ∃ rule ∈ rules, ∃ f, rule.Announces text line f := by
  rw [← Option.isSome_iff_exists, List.find?_isSome]
  constructor
  · rintro ⟨h, hh, hon⟩
    obtain ⟨rule, hrule, f, hf, rfl⟩ := mem_ofRules.mp hh
    exact ⟨rule, hrule, f, announces_iff.mpr ⟨hf, hon⟩⟩
  · rintro ⟨rule, hrule, f, hannounces⟩
    obtain ⟨hf, hon⟩ := announces_iff.mp hannounces
    exact ⟨_, mem_ofRules.mpr ⟨rule, hrule, f, hf, rfl⟩, hon⟩

/-- What a search finds is the first match on the line. -/
theorem exists_isFirstMatch {text : Text} {rules : List PatternRule} {line : Nat} {h : Hit}
    (hh : (ofRules text rules).find? (isOn line) = some h) :
    ∃ rule f, IsFirstMatch rules text line rule f ∧
      h = ⟨rule, line, capturedName? rule.pattern text f⟩ := by
  rw [ofRules, List.find?_flatMap] at hh
  obtain ⟨before, rule, after, hrules, hrule, hbefore⟩ := List.findSome?_eq_some_iff.mp hh
  rw [ofRule, List.find?_map] at hrule
  obtain ⟨f, hf, rfl⟩ := Option.map_eq_some_iff.mp hrule
  obtain ⟨hon, earlier, later, hall, hearlier⟩ := List.find?_eq_some_iff_append.mp hf
  have hfound : f ∈ rule.pattern.all text := hall ▸ List.mem_append_right _ List.mem_cons_self
  have hannounces : rule.Announces text line f := announces_iff.mpr ⟨hfound, hon⟩
  refine ⟨rule, f, ⟨hannounces, ⟨before, after, hrules, ?_⟩, ⟨earlier, later, hall, ?_⟩⟩, ?_⟩
  · intro q hq g hg
    obtain ⟨hmem, hgon⟩ := announces_iff.mp hg
    have hnone := hbefore q hq
    rw [ofRule, List.find?_map, Option.map_eq_none_iff, List.find?_eq_none] at hnone
    exact hnone g hmem hgon
  · intro g hg hgannounces
    have hnot := hearlier g hg
    rw [Bool.not_eq_true'] at hnot
    exact Bool.eq_false_iff.mp hnot (announces_iff.mp hgannounces).2
  · rw [hannounces.line_eq]

end Hit

/-! ## The top level -/

/-- A declaration is what the first hit on a line announces. -/
theorem mem_declarations_iff {s : Structure} : s ∈ declarations r content language ↔
    ∃ line h, (Hit.ofRules content (r.patterns .topLevel)).find? (Hit.isOn line) = some h ∧
      s = structureAt content.lines r.blockStyle language h := by
  have hsearch : ∀ h : Hit, h ∈ distinctBy Hit.line ((Hit.ofRules content
      (r.patterns .topLevel)).filter fun h => !h.isReserved) ↔
        (Hit.ofRules content (r.patterns .topLevel)).find? (Hit.isOn h.line) = some h := by
    intro h
    rw [mem_distinctBy_iff, List.find?_filter]
    simp only [Bool.decide_and, Bool.decide_eq_true]
    rfl
  rw [declarations, List.mem_mergeSort, List.mem_map]
  constructor
  · rintro ⟨h, hh, rfl⟩
    exact ⟨h.line, h, (hsearch h).mp hh, rfl⟩
  · rintro ⟨line, h, hh, rfl⟩
    obtain rfl : h.line = line := (Hit.isOn_iff.mp (List.find?_some hh)).2
    exact ⟨h, (hsearch h).mpr hh, rfl⟩

theorem locationLe_iff (a b : Location) : locationLe a b = true ↔
    toLex (a.start, a.stop) ≤ toLex (b.start, b.stop) := by
  rw [Prod.Lex.toLex_le_toLex, locationLe]
  simp

/-- The declarations stand in the order of their first lines. -/
theorem pairwise_start_declarations :
    (declarations r content language).Pairwise fun a b => a.location.start < b.location.start := by
  have hsorted : (declarations r content language).Pairwise fun a b =>
      toLex (a.location.start, a.location.stop) ≤ toLex (b.location.start, b.location.stop) :=
    pairwise_key_mergeSort (fun a b => locationLe_iff a.location b.location) _
  have hdistinct : (declarations r content language).Pairwise fun a b =>
      a.location.start ≠ b.location.start := List.pairwise_map.mp nodup_start_declarations
  refine (hsorted.and hdistinct).imp ?_
  rintro a b ⟨hle, hne⟩
  rcases Prod.Lex.toLex_le_toLex.mp hle with hlt | ⟨heq, -⟩
  · exact hlt
  · exact absurd heq hne

end TextExtraction

/-- In a language whose constructs end by braces, indentation or a keyword, a text has one structure
on the top level for each line on which some match counts, in the order of the lines; the first of
these matches tells what kind of structure it is, how sure that is and what it is called. -/
theorem topLevel_firstMatch (content : Text) (language : String)
    (hcode : (rulesOf language).blockStyle.isCode = true) :
    ((extractText content language).topLevel.Pairwise fun a b =>
        a.location.start < b.location.start) ∧
      (∀ line, (∃ s ∈ (extractText content language).topLevel, s.location.start = line) ↔
        ∃ rule ∈ (rulesOf language).patterns .topLevel, ∃ f, rule.Announces content line f) ∧
      ∀ s ∈ (extractText content language).topLevel, ∃ rule f,
        IsFirstMatch ((rulesOf language).patterns .topLevel) content s.location.start rule f ∧
          s.kind = rule.kind ∧ s.confidence = rule.confidence ∧
          s.name = (Hit.capturedName? rule.pattern content f).getD
            (rule.kind.name ++ "_" ++ decimal s.location.start) := by
  have htop : (extractText content language).topLevel =
      declarations (rulesOf language) content language := topLevel_of_isCode hcode content language
  rw [htop]
  have hstart : ∀ {line h}, (Hit.ofRules content ((rulesOf language).patterns .topLevel)).find?
      (Hit.isOn line) = some h → (structureAt content.lines (rulesOf language).blockStyle language
        h).location.start = line := by
    intro line h hh
    rw [start_structureAt (List.mem_of_find?_eq_some hh)]
    exact (Hit.isOn_iff.mp (List.find?_some hh)).2
  refine ⟨pairwise_start_declarations, fun line => ?_, fun s hs => ?_⟩
  · rw [← Hit.exists_find?_isOn_iff]
    constructor
    · rintro ⟨s, hs, rfl⟩
      obtain ⟨line, h, hh, rfl⟩ := mem_declarations_iff.mp hs
      exact ⟨h, (hstart hh).symm ▸ hh⟩
    · rintro ⟨h, hh⟩
      exact ⟨_, mem_declarations_iff.mpr ⟨line, h, hh, rfl⟩, hstart hh⟩
  · obtain ⟨line, h, hh, rfl⟩ := mem_declarations_iff.mp hs
    rw [hstart hh]
    obtain ⟨rule, f, hfirst, rfl⟩ := Hit.exists_isFirstMatch hh
    exact ⟨rule, f, hfirst, rfl, rfl, rfl⟩

/-- A constant that is a function, a function with a reserved word for a name, and a variable. -/
def arrowText : Text := "const f = () => 1;\nfunction if() \x7b\x7d\nlet x;\n".toList

/-- The rule for constants has a match on the first line as well, but that for functions comes
before it; the second line makes no structure. -/
theorem topLevel_firstMatch_of_arrow :
    ((extractText arrowText "javascript").topLevel.map fun s =>
        (s.location.start, s.kind, s.name)) = [(1, .function, "f"), (3, .variableDecl, "x")] ∧
      (¬ ∃ rule ∈ (rulesOf "javascript").patterns .topLevel, ∃ f, rule.Announces arrowText 2 f) ∧
      ∃ rule f, IsFirstMatch ((rulesOf "javascript").patterns .topLevel) arrowText 1 rule f ∧
        rule.kind = .function := by
  have hcode : (rulesOf "javascript").blockStyle.isCode = true := by decide +kernel
  have htop : (extractText arrowText "javascript").topLevel =
      announced (rulesOf "javascript") arrowText "javascript" := by
    rw [extractText]
    simp only [topLevel_of_isCode hcode]
    exact declarations_of_pairwise (by decide +kernel)
  have hfound : ((extractText arrowText "javascript").topLevel.map fun s =>
      (s.location.start, s.kind, s.name)) = [(1, .function, "f"), (3, .variableDecl, "x")] := by
    rw [htop]
    decide +kernel
  obtain ⟨-, hlines, hfirst⟩ := topLevel_firstMatch arrowText "javascript" hcode
  refine ⟨hfound, fun hsecond => ?_, ?_⟩
  · obtain ⟨s, hs, hline⟩ := (hlines 2).mpr hsecond
    have hmem : (s.location.start, s.kind, s.name) ∈
        (extractText arrowText "javascript").topLevel.map fun s =>
          (s.location.start, s.kind, s.name) := List.mem_map_of_mem hs
    rw [hfound] at hmem
    simp [hline] at hmem
  · obtain ⟨s, hs, hentry⟩ := List.mem_map.mp (hfound ▸ List.mem_cons_self)
    obtain ⟨hline, hentry⟩ := Prod.mk.inj hentry
    obtain ⟨hkind, -⟩ := Prod.mk.inj hentry
    obtain ⟨rule, f, hmatch, hrule, -⟩ := hfirst s hs
    exact ⟨rule, f, hline ▸ hmatch, hrule ▸ hkind⟩

end Outline

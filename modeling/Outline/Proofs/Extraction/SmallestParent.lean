import Outline.Proofs.Extraction.FirstRule
import Outline.Proofs.Extraction.LineSpan

/-!
# A member belongs to the smallest structure around it

Containers found by patterns overlap, so one line of the text is searched once for each of them, in
a text that begins on another line each time.  Which one a member is given to depends on the
container alone: of all those in which some match counts on the line, one with the fewest lines.

The extractor goes through the matches one by one and holds one entry a line, which a later one
replaces only if its parent is smaller.  Two facts about such a step carry a whole run: a line that
is held stays held, by a parent that is not larger (`IsHeld.hold`), and so is the line of the entry
that comes in (`isHeld_hold`).  As no line is held twice, the entry that is left bounds all others.

* `Structure.Offers`: a structure in which some match counts on a line.
* `IsHeld`: the invariant of a run.
* `IsInside`: a member lies inside its parent.
* `nested_smallestParent`: the members of a text.
-/

namespace Outline

open TextExtraction

/-- A container or a document in whose text one of the rules has a match that counts; the line is
that of the whole text.  The first line of a container is its own header. -/
structure Structure.Offers (rules : List PatternRule) (s : Structure) (line : Nat) : Prop where
  searched : s.kind.isContainer = true ∨ s.kind = .document
  announced : ∃ rule ∈ rules, ∃ f k, rule.Announces s.content.toList k f ∧
    line = s.location.start + k - 1
  not_header : line = s.location.start → s.kind = .document

/-- A member lies inside its parent, and below its header if that has one. -/
structure IsInside (n : NestedStructure) (p : Structure) : Prop where
  parent_eq : n.parent = p.ref
  start_le : p.location.start ≤ n.location.start
  start_lt : p.kind ≠ .document → p.location.start < n.location.start
  stop_le : n.location.stop ≤ p.location.stop

namespace TextExtraction

variable {r : Rules} {content : Text} {language : String} {top : List Structure}

/-! ## One structure -/

theorem isSearched_iff {s : Structure} :
    isSearched s = true ↔ s.kind.isContainer = true ∨ s.kind = .document := by
  rw [isSearched, Bool.or_eq_true, beq_iff_eq]

/-- A match inside a parent announces a member unless it names a reserved word or is on the
header. -/
theorem exists_nestedAt?_iff {lines : List Text} {style : BlockStyle} {parent : Structure}
    {hit : Hit} : (∃ n, nestedAt? lines style language parent hit = some n) ↔
      hit.isReserved = false ∧
        (parent.location.start + hit.line - 1 = parent.location.start →
          parent.kind = .document) := by
  rw [nestedAt?]
  simp only
  split
  · rename_i hskip
    simp only [reduceCtorEq, exists_false, false_iff, not_and, Classical.not_imp]
    intro hreserved
    exact hskip.resolve_right (Bool.eq_false_iff.mp hreserved)
  · rename_i hkeep
    obtain ⟨hbelow, hreserved⟩ := not_or.mp hkeep
    simp only [Option.some.injEq, exists_eq', true_iff]
    exact ⟨Bool.eq_false_iff.mpr hreserved, fun hheader =>
      not_not.mp fun hkind => hbelow ⟨hheader, hkind⟩⟩

/-- A structure offers a line if a member is found in it there. -/
theorem offers_iff {lines : List Text} {s : Structure} {line : Nat} :
    s.Offers (r.patterns .nested) line ↔
      isSearched s = true ∧ ∃ n ∈ nestedIn r lines language s, n.location.start = line := by
  rw [isSearched_iff]
  constructor
  · rintro ⟨hsearched, ⟨rule, hrule, f, k, hannounces, rfl⟩, hheader⟩
    obtain ⟨hf, hon⟩ := Hit.announces_iff.mp hannounces
    obtain ⟨hreserved, rfl⟩ := Hit.isOn_iff.mp hon
    have hhit := Hit.mem_ofRules.mpr ⟨rule, hrule, f, hf, rfl⟩
    obtain ⟨n, hn⟩ : ∃ n, nestedAt? lines r.blockStyle language s _ = some n :=
      exists_nestedAt?_iff.mpr ⟨hreserved, hheader⟩
    exact ⟨hsearched, n, List.mem_filterMap.mpr ⟨_, hhit, hn⟩,
      start_of_nestedAt? hn (Hit.one_le_line hhit)⟩
  · rintro ⟨hsearched, n, hn, rfl⟩
    obtain ⟨hit, hhit, hn⟩ := List.mem_filterMap.mp hn
    obtain ⟨hreserved, hheader⟩ := exists_nestedAt?_iff.mp ⟨n, hn⟩
    rw [start_of_nestedAt? hn (Hit.one_le_line hhit)]
    obtain ⟨rule, hrule, f, hf, rfl⟩ := Hit.mem_ofRules.mp hhit
    have hannounces := Hit.announces_iff.mpr ⟨hf, Hit.isOn_iff.mpr ⟨hreserved, rfl⟩⟩
    exact ⟨hsearched, ⟨rule, hrule, f, _, hannounces, rfl⟩, hheader⟩

theorem parent_of_mem_nestedIn {lines : List Text} {s : Structure} {n : NestedStructure}
    (hn : n ∈ nestedIn r lines language s) : n.parent = s.ref := by
  obtain ⟨hit, -, hn⟩ := List.mem_filterMap.mp hn
  rw [eq_of_nestedAt? hn]

/-! ## One entry a line -/

/-- Some entry is on a line, and its parent has at most so many lines. -/
def IsHeld (held : List NestedStructure) (line size : Nat) : Prop :=
  ∃ n ∈ held, n.location.start = line ∧ n.parent.location.lineCount ≤ size

/-- What comes in is held, or a smaller one on its line. -/
theorem isHeld_hold (new : NestedStructure) : ∀ held : List NestedStructure,
    IsHeld (hold held new) new.location.start new.parent.location.lineCount
  | [] => ⟨new, List.mem_singleton_self new, rfl, Nat.le_refl _⟩
  | old :: rest => by
    rw [hold]
    split
    · rename_i hsame
      split
      · rename_i hle
        exact ⟨old, List.mem_cons_self, hsame, hle⟩
      · exact ⟨new, List.mem_cons_self, rfl, Nat.le_refl _⟩
    · obtain ⟨n, hn, hheld⟩ := isHeld_hold new rest
      exact ⟨n, List.mem_cons_of_mem old hn, hheld⟩

/-- A line that is held stays held, by a parent that is not larger. -/
theorem IsHeld.hold {line size : Nat} (new : NestedStructure) :
    ∀ {held : List NestedStructure}, IsHeld held line size →
      IsHeld (TextExtraction.hold held new) line size
  | [], ⟨_, hn, _⟩ => absurd hn List.not_mem_nil
  | old :: rest, ⟨n, hn, hline, hle⟩ => by
    rw [TextExtraction.hold]
    split
    · rename_i hsame
      split
      · exact ⟨n, hn, hline, hle⟩
      · rename_i hsmaller
        rcases List.mem_cons.mp hn with rfl | hrest
        · exact ⟨new, List.mem_cons_self, hsame ▸ hline, by omega⟩
        · exact ⟨n, List.mem_cons_of_mem new hrest, hline, hle⟩
    · rcases List.mem_cons.mp hn with rfl | hrest
      · exact ⟨n, List.mem_cons_self, hline, hle⟩
      · obtain ⟨m, hm, hheld⟩ := IsHeld.hold new ⟨n, hrest, hline, hle⟩
        exact ⟨m, List.mem_cons_of_mem old hm, hheld⟩

theorem IsHeld.foldl {line size : Nat} : ∀ (found : List NestedStructure)
    {held : List NestedStructure}, IsHeld held line size →
      IsHeld (found.foldl TextExtraction.hold held) line size
  | [], _, h => h
  | new :: found, _, h => IsHeld.foldl found (h.hold new)

/-- After a run the line of every entry is held. -/
theorem isHeld_foldl {n : NestedStructure} : ∀ {found : List NestedStructure}, n ∈ found →
    ∀ held, IsHeld (found.foldl hold held) n.location.start n.parent.location.lineCount
  | new :: found, hn, held => by
    rw [List.foldl_cons]
    rcases List.mem_cons.mp hn with rfl | hn
    · exact (isHeld_hold n held).foldl found
    · exact isHeld_foldl hn (hold held new)

/-! ## The tier -/

/-- The entries in the order in which they are found. -/
theorem mem_nested_iff {n : NestedStructure} : n ∈ nested r content language top ↔
    n ∈ ((top.filter isSearched).flatMap (nestedIn r content.lines language)).foldl hold [] := by
  rw [nested, List.mem_mergeSort]

theorem pairwise_start_nested :
    (nested r content language top).Pairwise fun a b => a.location.start < b.location.start := by
  have hsorted : (nested r content language top).Pairwise fun a b =>
      a.location.start ≤ b.location.start :=
    pairwise_key_mergeSort (fun _ _ => decide_eq_true_iff) _
  have hdistinct : (nested r content language top).Pairwise fun a b =>
      a.location.start ≠ b.location.start := List.pairwise_map.mp (nodup_start_nested top)
  exact (hsorted.and hdistinct).imp fun ⟨hle, hne⟩ => lt_of_le_of_ne hle hne

/-- A line that is offered has a member, and its parent is not larger than what offers the line. -/
theorem exists_mem_nested_of_offers {q : Structure} (hq : q ∈ top) {line : Nat}
    (hoffers : q.Offers (r.patterns .nested) line) :
    ∃ n ∈ nested r content language top, n.location.start = line ∧
      n.parent.location.lineCount ≤ q.location.lineCount := by
  obtain ⟨hsearched, m, hm, rfl⟩ : isSearched q = true ∧
      ∃ m ∈ nestedIn r content.lines language q, m.location.start = line := offers_iff.mp hoffers
  have hfound : m ∈ (top.filter isSearched).flatMap (nestedIn r content.lines language) :=
    List.mem_flatMap.mpr ⟨q, List.mem_filter.mpr ⟨hq, hsearched⟩, hm⟩
  obtain ⟨n, hn, hline, hle⟩ := isHeld_foldl hfound []
  rw [parent_of_mem_nestedIn hm] at hle
  exact ⟨n, mem_nested_iff.mpr hn, hline, hle⟩

/-- No structure that offers the line of a member is smaller than its parent. -/
theorem lineCount_parent_le {n : NestedStructure} (hn : n ∈ nested r content language top)
    {q : Structure} (hq : q ∈ top) (hoffers : q.Offers (r.patterns .nested) n.location.start) :
    n.parent.location.lineCount ≤ q.location.lineCount := by
  obtain ⟨m, hm, hline, hle⟩ := exists_mem_nested_of_offers hq hoffers
  have hsame : m = n := List.inj_on_of_nodup_map (nodup_start_nested top) hm hn hline
  exact hsame ▸ hle

/-- A member is offered by its parent and lies inside it. -/
theorem exists_offers_isInside {n : NestedStructure}
    (hn : n ∈ nested (rulesOf language) content language
      (topLevel (rulesOf language) content language)) :
    ∃ p ∈ topLevel (rulesOf language) content language,
      p.Offers ((rulesOf language).patterns .nested) n.location.start ∧ IsInside n p := by
  obtain ⟨p, hp, hsearched, hit, hhit, hat⟩ := mem_nested hn
  have hmem : n ∈ nestedIn (rulesOf language) content.lines language p :=
    List.mem_filterMap.mpr ⟨hit, hhit, hat⟩
  have hoffers : p.Offers ((rulesOf language).patterns .nested) n.location.start :=
    offers_iff.mpr ⟨hsearched, n, hmem, rfl⟩
  have hstart := start_of_nestedAt? hat (Hit.one_le_line hhit)
  have hline := Hit.one_le_line hhit
  have hle : p.location.start ≤ n.location.start := by omega
  refine ⟨p, hp, hoffers, parent_of_mem_nestedIn hmem, hle, fun hkind => ?_, ?_⟩
  · exact lt_of_le_of_ne hle fun heq => hkind (hoffers.not_header heq.symm)
  · obtain ⟨hfilled, hend, -⟩ := isFilled_of_hit_in (rulesOf language).blockStyle
      (isCut_or_whole_of_mem_topLevel (Markdown.findsFilledLines_headings content) hp) hhit
    have hone := hfilled.1
    rw [eq_of_nestedAt? hat, Location.stop_clamped]
    omega

end TextExtraction

/-- The members of a text stand in the order of their first lines, one on each line that some
structure of the top level offers.  Each lies inside its parent, which offers its line and has the
fewest lines of all that do. -/
theorem nested_smallestParent (content : Text) (language : String) :
    ((extractText content language).nested.Pairwise fun a b =>
        a.location.start < b.location.start) ∧
      (∀ line, (∃ n ∈ (extractText content language).nested, n.location.start = line) ↔
        ∃ q ∈ (extractText content language).topLevel,
          q.Offers ((rulesOf language).patterns .nested) line) ∧
      ∀ n ∈ (extractText content language).nested,
        ∃ p ∈ (extractText content language).topLevel, IsInside n p ∧
          p.Offers ((rulesOf language).patterns .nested) n.location.start ∧
          ∀ q ∈ (extractText content language).topLevel,
            q.Offers ((rulesOf language).patterns .nested) n.location.start →
              p.location.lineCount ≤ q.location.lineCount := by
  refine ⟨pairwise_start_nested, fun line => ⟨?_, ?_⟩, fun n hn => ?_⟩
  · rintro ⟨n, hn, rfl⟩
    obtain ⟨p, hp, hoffers, -⟩ := exists_offers_isInside hn
    exact ⟨p, hp, hoffers⟩
  · rintro ⟨q, hq, hoffers⟩
    obtain ⟨n, hn, hline, -⟩ := exists_mem_nested_of_offers hq hoffers
    exact ⟨n, hn, hline⟩
  · obtain ⟨p, hp, hoffers, hinside⟩ := exists_offers_isInside hn
    refine ⟨p, hp, hinside, hoffers, fun q hq hother => ?_⟩
    have hle := lineCount_parent_le hn hq hother
    rw [hinside.parent_eq] at hle
    exact hle

/-- A function in a class in an interface, where both stand at the start of a line. -/
def innerClassText : Text :=
  "interface A \x7b\nclass B \x7b\n    fun run()\n\x7d\n\x7d\n".toList

-- the function is found in the interface and in the class, and belongs to the class
example : (extractText innerClassText "kotlin").nested.map
    (fun n => (n.name, n.parent.name)) = [("run", "B")] := by
  have htop : topLevel (rulesOf "kotlin") innerClassText "kotlin" =
      announced (rulesOf "kotlin") innerClassText "kotlin" := by
    rw [topLevel_of_isCode (by decide)]
    exact declarations_of_pairwise (by decide)
  simp only [extractText, htop, nested]
  rw [List.mergeSort_of_pairwise (by decide)]
  decide

end Outline

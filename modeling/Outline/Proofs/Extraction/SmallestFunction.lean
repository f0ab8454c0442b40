import Outline.Proofs.Extraction.SmallestParent

/-!
# A statement belongs to the smallest function around it

The body of each function is searched on its own, so a line that lies in several bodies is searched
several times, each time in a text that begins on another line and has other lines around it.  Of
all these searches one counts, that in the first of the smallest functions around the line
(`mem_ownedHits_iff`); what it finds is kept once for each kind of statement.

A body is the lines of a function without the first one.  So a line of the body is found in the
whole text by adding the line that the function begins on, and the statement lies below the header
of its function; its end is looked for in the whole text and cut off at that of the function.

* `Ref.IsAround`: a function whose body holds a line.
* `PatternRule.MatchesInBody`: a rule has a match on a line of a body.
* `internal_smallestFunction`: the statements of a text.
-/

namespace Outline

open TextExtraction

/-- A function whose body holds a line; the first line of a function is its header. -/
structure Ref.IsAround (p : Ref) (line : Nat) : Prop where
  isFunctionLike : p.kind.isFunctionLike = true
  start_lt : p.location.start < line
  le_stop : line ≤ p.location.stop

/-- The lines of a structure without the first one. -/
def Ref.bodyText (lines : List Text) (p : Ref) : Text :=
  sliceLines lines p.location.start (p.location.stop - 1)

/-- A rule has a match in the body of a structure that begins on a line of the whole text. -/
def PatternRule.MatchesInBody (rule : PatternRule) (lines : List Text) (p : Ref) (line : Nat) :
    Prop :=
  ∃ f ∈ rule.pattern.all (p.bodyText lines),
    p.location.start + (p.bodyText lines).lineAt f.start = line

namespace TextExtraction

variable {r : Rules} {content : Text} {language : String} {lines : List Text} {p : Ref} {line : Nat}

/-! ## Owners -/

theorem inBody_iff : inBody p line = true ↔ p.location.start < line ∧ line ≤ p.location.stop := by
  rw [inBody, Bool.and_eq_true, decide_eq_true_eq, decide_eq_true_eq]

theorem isAround_iff :
    p.IsAround line ↔ (p.kind.isFunctionLike && inBody p line) = true := by
  rw [Bool.and_eq_true, inBody_iff]
  exact ⟨fun h => ⟨h.isFunctionLike, h.start_lt, h.le_stop⟩, fun ⟨hkind, hlt, hle⟩ =>
    ⟨hkind, hlt, hle⟩⟩

/-- The function at the place that the search gives is the smallest one around the line. -/
theorem exists_innermost?_iff {parents : List Ref} :
    (∃ i, parents[i]? = some p ∧ innermost? parents line = some i) ↔
      smallest? (fun q : Ref => q.location.lineCount)
        (parents.filter fun q => inBody q line) = some p := by
  have hparents : parents.filter (fun q => inBody q line) =
      (parents.zipIdx.filter fun q => inBody q.1 line).map Prod.fst := by
    conv_lhs => rw [← List.zipIdx_map_fst 0 parents]
    rw [List.filter_map]
    rfl
  rw [hparents, smallest?_map, innermost?]
  cases hfound : smallest? (fun q : Ref × Nat => q.1.location.lineCount)
      (parents.zipIdx.filter fun q => inBody q.1 line) with
  | none => simp
  | some q =>
    have hget : parents[q.2]? = some q.1 :=
      List.mem_zipIdx_iff_getElem?.mp (List.mem_filter.mp (mem_of_smallest? hfound)).1
    simp only [Option.map_some, Option.some_inj]
    constructor
    · rintro ⟨i, hi, rfl⟩
      exact Option.some.inj (hget.symm.trans hi)
    · rintro rfl
      exact ⟨q.2, hget, rfl⟩

/-- The matches in the bodies of functions, each with the function it belongs to. -/
def ownedHits (r : Rules) (lines : List Text) (parents : List Ref) : List (Ref × Hit) :=
  parents.zipIdx.flatMap fun (parent, index) =>
    ((bodyHits r lines parent).filter fun h => innermost? parents h.line == some index).map
      fun h => (parent, h)

theorem mem_bodyHits_iff {h : Hit} : h ∈ bodyHits r lines p ↔
    p.location.start < p.location.stop ∧ ∃ rule ∈ r.patterns .internal,
      ∃ f ∈ rule.pattern.all (p.bodyText lines),
        h = ⟨rule, p.location.start + (p.bodyText lines).lineAt f.start,
          Hit.capturedName? rule.pattern (p.bodyText lines) f⟩ := by
  rw [bodyHits]
  split
  · rename_i hle
    exact iff_of_false List.not_mem_nil fun h => absurd h.1 (Nat.not_lt.mpr hle)
  · rename_i hlt
    rw [and_iff_right (Nat.lt_of_not_le hlt), List.mem_map]
    constructor
    · rintro ⟨hit, hhit, rfl⟩
      obtain ⟨rule, hrule, f, hf, rfl⟩ := Hit.mem_ofRules.mp hhit
      exact ⟨rule, hrule, f, hf, rfl⟩
    · rintro ⟨rule, hrule, f, hf, rfl⟩
      exact ⟨_, Hit.mem_ofRules.mpr ⟨rule, hrule, f, hf, rfl⟩, rfl⟩

/-- A match belongs to the function in whose body it was found if that is the first of the smallest
ones around its line. -/
theorem mem_ownedHits_iff {named : List Ref} {h : Hit} :
    (p, h) ∈ ownedHits r lines (named.filter fun q => q.kind.isFunctionLike) ↔
      h ∈ bodyHits r lines p ∧ IsFirstSmallest (fun q : Ref => q.location.lineCount)
        (fun q => q.IsAround h.line) named p := by
  have howner : IsFirstSmallest (fun q : Ref => q.location.lineCount)
      (fun q => q.IsAround h.line) named p ↔ smallest? (fun q : Ref => q.location.lineCount)
        ((named.filter fun q => q.kind.isFunctionLike).filter fun q => inBody q h.line) =
          some p := by
    rw [List.filter_filter, smallest?_filter_eq_some_iff]
    simp only [isAround_iff, Bool.and_comm]
  rw [howner, ← exists_innermost?_iff, ownedHits, List.mem_flatMap]
  constructor
  · rintro ⟨⟨q, i⟩, hq, hmem⟩
    obtain ⟨hit, hhit, heq⟩ := List.mem_map.mp hmem
    obtain ⟨rfl, rfl⟩ := Prod.mk.inj heq
    obtain ⟨hbody, hinner⟩ := List.mem_filter.mp hhit
    exact ⟨hbody, i, List.mem_zipIdx_iff_getElem?.mp hq, beq_iff_eq.mp hinner⟩
  · rintro ⟨hbody, i, hget, hinner⟩
    refine ⟨(p, i), List.mem_zipIdx_iff_getElem?.mpr hget, ?_⟩
    exact List.mem_map.mpr ⟨h, List.mem_filter.mpr ⟨hbody, beq_iff_eq.mpr hinner⟩, rfl⟩

/-- A function around a line has some match of a kind there, or none. -/
theorem exists_bodyHit_iff {kind : Kind} (haround : p.IsAround line) :
    (∃ h ∈ bodyHits r lines p, h.line = line ∧ h.rule.kind = kind) ↔
      ∃ rule ∈ r.patterns .internal, rule.kind = kind ∧ rule.MatchesInBody lines p line := by
  have hlt : p.location.start < p.location.stop :=
    Nat.lt_of_lt_of_le haround.start_lt haround.le_stop
  constructor
  · rintro ⟨h, hh, rfl, rfl⟩
    obtain ⟨-, rule, hrule, f, hf, rfl⟩ := mem_bodyHits_iff.mp hh
    exact ⟨rule, hrule, rfl, f, hf, rfl⟩
  · rintro ⟨rule, hrule, rfl, f, hf, rfl⟩
    exact ⟨_, mem_bodyHits_iff.mpr ⟨hlt, rule, hrule, f, hf, rfl⟩, rfl, rfl⟩

/-! ## The tier -/

theorem start_statementAt (style : BlockStyle) {h : Hit} (hline : 1 ≤ h.line) :
    (statementAt lines style p h).location.start = h.line := by
  rw [statementAt, Location.start_clamped]
  exact Nat.max_eq_left hline

/-- What tells statements apart: the line and the kind. -/
def statementKey (owned : Ref × Hit) : Nat × Kind := (owned.2.line, owned.2.rule.kind)

/-- The statements are those of the matches that belong to a function, the first one for each line
and kind. -/
theorem internal_perm {x : Extraction} : (internal r content x.topLevel x.nested).Perm
    ((distinctBy statementKey (ownedHits r content.lines
      (x.named.filter fun q => q.kind.isFunctionLike))).map
        fun owned => statementAt content.lines r.blockStyle owned.1 owned.2) :=
  List.mergeSort_perm _ _

theorem pairwise_start_internal {top : List Structure} {members : List NestedStructure} :
    (internal r content top members).Pairwise fun a b => a.location.start ≤ b.location.start := by
  have hsorted : (internal r content top members).Pairwise fun a b =>
      toLex (a.location.start, a.location.stop) ≤ toLex (b.location.start, b.location.stop) :=
    pairwise_key_mergeSort (fun a b => locationLe_iff a.location b.location) _
  refine hsorted.imp fun {a b} hle => ?_
  rcases Prod.Lex.toLex_le_toLex.mp hle with hlt | ⟨heq, -⟩
  · exact Nat.le_of_lt hlt
  · exact Nat.le_of_eq heq

theorem start_of_mem_ownedHits (style : BlockStyle) {named : List Ref} {owned : Ref × Hit}
    (h : owned ∈ ownedHits r lines (named.filter fun q => q.kind.isFunctionLike)) :
    (statementAt lines style owned.1 owned.2).location.start = owned.2.line := by
  have haround := (mem_ownedHits_iff.mp h).2.1
  exact start_statementAt style (Nat.lt_of_le_of_lt (Nat.zero_le _) haround.start_lt)

/-- There is one statement for a line and a kind at most. -/
theorem nodup_key_internal {x : Extraction} :
    ((internal r content x.topLevel x.nested).map fun s => (s.location.start, s.kind)).Nodup := by
  refine (internal_perm.map _).nodup_iff.mpr ?_
  rw [List.map_map]
  have hkeys : ∀ owned ∈ distinctBy statementKey (ownedHits r content.lines
      (x.named.filter fun q => q.kind.isFunctionLike)),
      ((fun s : InternalStructure => (s.location.start, s.kind)) ∘ fun owned =>
        statementAt content.lines r.blockStyle owned.1 owned.2) owned = statementKey owned := by
    intro owned howned
    exact Prod.ext (start_of_mem_ownedHits r.blockStyle (mem_of_mem_distinctBy howned)) rfl
  rw [List.map_congr_left hkeys]
  exact nodup_map_distinctBy _

/-- A statement comes from a match that belongs to its parent. -/
theorem exists_owned_of_mem_internal {x : Extraction} {s : InternalStructure}
    (hs : s ∈ internal r content x.topLevel x.nested) :
    ∃ h ∈ bodyHits r content.lines s.parent, h.line = s.location.start ∧
      s = statementAt content.lines r.blockStyle s.parent h ∧
      IsFirstSmallest (fun q : Ref => q.location.lineCount) (fun q => q.IsAround s.location.start)
        x.named s.parent := by
  obtain ⟨⟨p, h⟩, hmem, rfl⟩ := List.mem_map.mp (internal_perm.mem_iff.mp hs)
  have howned := mem_of_mem_distinctBy hmem
  have hstart := start_of_mem_ownedHits r.blockStyle howned
  obtain ⟨hbody, howner⟩ := mem_ownedHits_iff.mp howned
  refine ⟨h, hbody, hstart.symm, rfl, ?_⟩
  rw [hstart]
  exact howner

/-- There is a statement of a kind on a line if the function that owns the line has a match of that
kind there. -/
theorem exists_mem_internal_iff {x : Extraction} {kind : Kind} :
    (∃ s ∈ internal r content x.topLevel x.nested, s.location.start = line ∧ s.kind = kind) ↔
      ∃ p, IsFirstSmallest (fun q : Ref => q.location.lineCount) (fun q => q.IsAround line)
        x.named p ∧ ∃ rule ∈ r.patterns .internal, rule.kind = kind ∧
          rule.MatchesInBody content.lines p line := by
  constructor
  · rintro ⟨s, hs, rfl, rfl⟩
    obtain ⟨h, hbody, hline, hstatement, howner⟩ := exists_owned_of_mem_internal hs
    refine ⟨s.parent, howner, (exists_bodyHit_iff howner.1).mp ⟨h, hbody, hline, ?_⟩⟩
    rw [hstatement]
    rfl
  · rintro ⟨p, howner, hmatch⟩
    obtain ⟨h, hbody, rfl, rfl⟩ := (exists_bodyHit_iff howner.1).mpr hmatch
    have howned : (p, h) ∈ ownedHits r content.lines
        (x.named.filter fun q => q.kind.isFunctionLike) := mem_ownedHits_iff.mpr ⟨hbody, howner⟩
    obtain ⟨⟨q, g⟩, hmem, hkey⟩ : ∃ owned ∈ distinctBy statementKey (ownedHits r content.lines
        (x.named.filter fun q => q.kind.isFunctionLike)),
          statementKey owned = (h.line, h.rule.kind) :=
      exists_mem_distinctBy_iff.mpr ⟨(p, h), howned, rfl⟩
    obtain ⟨hline, hkind⟩ := Prod.mk.inj hkey
    refine ⟨_, internal_perm.mem_iff.mpr (List.mem_map_of_mem hmem), ?_, hkind⟩
    exact (start_of_mem_ownedHits _ (mem_of_mem_distinctBy hmem)).trans hline

theorem internal_extractText : (extractText content language).internal =
    internal (rulesOf language) content (extractText content language).topLevel
      (extractText content language).nested := rfl

/-- A statement ends where its function ends, or before. -/
theorem stop_le_of_mem_internal {s : InternalStructure}
    (hs : s ∈ (extractText content language).internal) :
    s.location.stop ≤ s.parent.location.stop := by
  rw [internal_extractText] at hs
  obtain ⟨h, hbody, hline, hstatement, howner⟩ := exists_owned_of_mem_internal hs
  have hle : h.line ≤ s.parent.location.stop := hline ▸ howner.1.le_stop
  have hfilled := isFilled_line_of_mem_bodyHits hbody
  have hone := hfilled.1
  have hstop : IsFilled content.lines s.parent.location.stop :=
    isFilled_stop_of_mem_named (Markdown.findsFilledLines_headings content) howner.mem
      howner.1.isFunctionLike
  have hend := (isFilled_min_endLine hfilled hstop hle (rulesOf language).blockStyle).1
  rw [hstatement, statementAt, Location.stop_clamped]
  show max _ _ ≤ s.parent.location.stop
  split
  · omega
  · omega

end TextExtraction

/-- The statements of a text stand in the order of their first lines, one at most for each line and
kind, and there is one where the function that owns the line has a match of that kind in its body.
Each lies below the header of its parent and ends with it or before; and the parent has the fewest
lines of all functions, on the top level and inside of others, whose bodies hold the line that the
statement begins on. -/
theorem internal_smallestFunction (content : Text) (language : String) :
    ((extractText content language).internal.Pairwise fun a b =>
        a.location.start ≤ b.location.start) ∧
      ((extractText content language).internal.map fun s =>
        (s.location.start, s.kind)).Nodup ∧
      (∀ line kind, (∃ s ∈ (extractText content language).internal,
          s.location.start = line ∧ s.kind = kind) ↔
        ∃ p, IsFirstSmallest (fun q : Ref => q.location.lineCount) (fun q => q.IsAround line)
            (extractText content language).named p ∧
          ∃ rule ∈ (rulesOf language).patterns .internal, rule.kind = kind ∧
            rule.MatchesInBody content.lines p line) ∧
      ∀ s ∈ (extractText content language).internal,
        s.parent ∈ (extractText content language).named ∧
          s.parent.kind.isFunctionLike = true ∧
          s.parent.location.start < s.location.start ∧
          s.location.start ≤ s.location.stop ∧
          s.location.stop ≤ s.parent.location.stop ∧
          ∀ q ∈ (extractText content language).named, q.IsAround s.location.start →
            s.parent.location.lineCount ≤ q.location.lineCount := by
  rw [internal_extractText]
  refine ⟨pairwise_start_internal, nodup_key_internal, fun line kind => exists_mem_internal_iff,
    fun s hs => ?_⟩
  obtain ⟨-, -, -, -, howner⟩ := exists_owned_of_mem_internal hs
  exact ⟨howner.mem, howner.1.isFunctionLike, howner.1.start_lt, s.location.start_le_stop,
    stop_le_of_mem_internal hs, fun q hq haround => howner.le hq haround⟩

end Outline

import Outline.Proofs.Extraction.Text
import Outline.Proofs.Language.BlockEnd
import Outline.Proofs.Language.Rules
import Outline.Proofs.Markdown.HeadingLine

/-!
# A structure found in text is a run of lines

The line of a structure is counted in the text that was searched: the whole text for the top
level, the text of the parent for a nested structure, the lines of the body for a statement.  The
last line is found in the whole text and then cut off at the end of the parent.  For the text of
the structure to be what its location says, both ends have to be lines of the whole text, and the
last one must not be empty, or splitting the text again would lose it.

Both follow from where a match begins.  No pattern of any language begins with a line end
(`beginsInLine_of_mem_patterns`, by evaluation of the tables), so the first line has a character;
the last line is the first one, or not blank (`isFilled_endLine`), or the last line of the
parent, for which the same was shown before.  Of the headings of a text only this is used, that
each is found on a line with a character (`Markdown.FindsFilledLines`).

* `IsCut`: a text is the lines of a location, and the last of them has a character.
* `isCut_or_whole_of_mem_topLevel`, `isCut_of_mem_nested`, `isCut_of_mem_internal`: the tiers.
* `IsSpan`: the property in the terms of the text and the two lines alone.
-/

namespace Outline

/-! ## Where matches begin -/

/-- Whether every match of a pattern begins at a character that ends no line. -/
def Pattern.beginsInLine (p : Pattern) : Bool :=
  !p.isNullable && p.avoids '\n' && p.avoids '\r'

theorem beginsInLine_of_mem_entry : ∀ e ∈ entries, ∀ tier ∈ [Tier.topLevel, .nested, .internal],
    ∀ rule ∈ e.rules.patterns tier, rule.pattern.beginsInLine = true := by
  decide

theorem beginsInLine_of_mem_generic : ∀ tier ∈ [Tier.topLevel, .nested, .internal],
    ∀ rule ∈ genericRules.patterns tier, rule.pattern.beginsInLine = true := by
  decide

/-- No pattern of any language begins with a line end. -/
theorem beginsInLine_of_mem_patterns {language : String} {tier : Tier} {rule : PatternRule}
    (h : rule ∈ (rulesOf language).patterns tier) : rule.pattern.beginsInLine = true := by
  have htier : tier ∈ [Tier.topLevel, .nested, .internal] := by cases tier <;> decide
  rcases rulesOf_cases language with hr | ⟨e, he, hr⟩
  · exact beginsInLine_of_mem_generic tier htier rule (hr ▸ h)
  · exact beginsInLine_of_mem_entry e he tier htier rule (hr ▸ h)

namespace TextExtraction

variable {content : Text} {language : String}

/-- The line of a hit is that of a character that ends no line. -/
theorem Hit.exists_char {tier : Tier} {text : Text} {h : Hit}
    (hh : h ∈ ofRules text ((rulesOf language).patterns tier)) :
    ∃ pre c post, text = pre ++ c :: post ∧ h.line = Text.newlines pre + 1 ∧
      c ≠ '\n' ∧ c ≠ '\r' := by
  obtain ⟨rule, hrule, f, hf, rfl⟩ := mem_ofRules.mp hh
  have hbegins := beginsInLine_of_mem_patterns hrule
  rw [Pattern.beginsInLine, Bool.and_eq_true, Bool.and_eq_true, Bool.not_eq_true'] at hbegins
  obtain ⟨pre, c, post, htext, hstart, hc⟩ := Pattern.exists_char_of_mem_all hf hbegins.1.1
  refine ⟨pre, c, post, htext, ?_, hc _ hbegins.1.2, hc _ hbegins.2⟩
  rw [Text.lineAt, hstart, htext, List.take_left]

/-- In a text that is searched as it stands, the line of a hit has a character. -/
theorem Hit.isFilled_line {tier : Tier} {h : Hit}
    (hh : h ∈ ofRules content ((rulesOf language).patterns tier)) :
    IsFilled content.lines h.line := by
  obtain ⟨pre, c, post, rfl, hline, hn, hr⟩ := exists_char hh
  obtain ⟨l, hl, hc⟩ := Text.exists_line_of_eq_append hn hr post pre
  rw [hline]
  exact ⟨Nat.le_add_left 1 _, l, hl, List.ne_nil_of_mem hc⟩

/-- In the lines of a location, a hit lies inside the location, on a line with a character. -/
theorem Hit.isFilled_line_linesOf {tier : Tier} {h : Hit} {l : Location}
    (hh : h ∈ ofRules (Text.joinLines (l.linesOf content.lines))
      ((rulesOf language).patterns tier)) :
    l.start + h.line - 1 ≤ l.stop ∧ IsFilled content.lines (l.start + h.line - 1) := by
  obtain ⟨pre, c, post, htext, hline, hn, -⟩ := exists_char hh
  obtain ⟨line, hget, hc⟩ := Text.exists_line_of_joinLines hn
    (fun m hm => Text.newline_notMem_of_mem_lines (Location.mem_of_mem_linesOf hm)) htext
  obtain ⟨hlt, hline'⟩ := Location.getElem?_linesOf hget
  have h1 := l.one_le_start
  have h2 := l.start_le_stop
  rw [Location.lineCount] at hlt
  have hindex : l.start + h.line - 1 - 1 = l.start - 1 + Text.newlines pre := by omega
  refine ⟨by omega, by omega, line, ?_, List.ne_nil_of_mem hc⟩
  rw [hindex, hline']

/-! ## The ends of a structure -/

/-- The last line of a construct has a character, if its first line has one. -/
theorem isFilled_endLine {lines : List Text} {line : Nat} (h : IsFilled lines line)
    (style : BlockStyle) :
    line ≤ endLine lines style line ∧ IsFilled lines (endLine lines style line) := by
  have hle := h.le_length
  obtain ⟨h1, first, hfirst, hne⟩ := h
  have hlines : lines ≠ [] := by
    rintro rfl
    exact absurd hfirst (by simp)
  have hstart : min (line - 1) (lines.length - 1) = line - 1 := by omega
  obtain ⟨hge, last, hlast, hends⟩ := isBlockEnd_blockEnd hlines (line - 1) style
  rw [hstart] at hge hends
  refine ⟨by rw [endLine]; omega, Nat.le_add_left 1 _, last, ?_, ?_⟩
  · rw [endLine, Nat.add_sub_cancel, hlast]
  · rcases hends with heq | hblank
    · rw [heq, hfirst, Option.some_inj] at hlast
      exact hlast ▸ hne
    · rintro rfl
      exact absurd hblank (by decide)

/-- The same holds when the construct is cut off at the end of a parent around its first line. -/
theorem isFilled_min_endLine {lines : List Text} {line stop : Nat} (h : IsFilled lines line)
    (hstop : IsFilled lines stop) (hle : line ≤ stop) (style : BlockStyle) :
    line ≤ min (endLine lines style line) stop ∧
      IsFilled lines (min (endLine lines style line) stop) := by
  obtain ⟨hge, hend⟩ := isFilled_endLine h style
  exact ⟨Nat.le_min.mpr ⟨hge, hle⟩, hend.min hstop⟩

/-- A text is the lines of a location, and the last of them has a character. -/
structure IsCut (lines : List Text) (text : String) (l : Location) : Prop where
  filled : IsFilled lines l.stop
  text_eq : text = String.ofList (Text.joinLines (l.linesOf lines))

/-- Cutting out lines from a first to a last one that has a character. -/
theorem isCut_slice {lines : List Text} {start stop : Nat} (hstart : 1 ≤ start)
    (hle : start ≤ stop) (hstop : IsFilled lines stop) :
    IsCut lines (slice lines start stop) (.clamped start stop) where
  filled := by
    have heq : (Location.clamped start stop).stop = stop := by
      rw [Location.stop_clamped]
      omega
    rw [heq]
    exact hstop
  text_eq := by rw [slice, sliceLines_eq_linesOf lines hstart stop]

/-! ## The tiers -/

/-- A structure is the whole text, which is not blank. -/
structure IsWhole (content : Text) (s : Structure) : Prop where
  kind_eq : s.kind = .document
  content_eq : s.content = String.ofList content
  location_eq : s.location = .clamped 1 content.lineCount
  filled : content.isBlank = false

theorem isWhole_of_wholeText? {node : Option Nat} {s : Structure}
    (h : wholeText? content language node = some s) : IsWhole content s := by
  rw [wholeText?] at h
  split at h
  · exact absurd h (by simp)
  · rename_i hblank
    rw [← Option.some.inj h]
    exact ⟨rfl, rfl, rfl, Bool.eq_false_iff.mpr hblank⟩

theorem isCut_structureAt {h : Hit} (hline : IsFilled content.lines h.line) (style : BlockStyle) :
    IsCut content.lines (structureAt content.lines style language h).content
      (structureAt content.lines style language h).location := by
  obtain ⟨hle, hend⟩ := isFilled_endLine hline style
  exact isCut_slice hline.1 hle hend

section

variable {reader : Text → List Markdown.Heading}
  (hreader : Markdown.FindsFilledLines reader content)
include hreader

theorem isCut_ofSection {s : Markdown.Section} (hs : s ∈ Markdown.sections content reader) :
    IsCut content.lines (ofSection content.lines language s).content
      (ofSection content.lines language s).location := by
  obtain ⟨hle, hstart, hstop⟩ := Markdown.isFilled_of_mem_sections hreader hs
  exact isCut_slice hstart.1 hle hstop

theorem isCut_or_whole_of_mem_topLevel {s : Structure}
    (h : s ∈ topLevel (rulesOf language) content language reader) :
    IsWhole content s ∨ IsCut content.lines s.content s.location := by
  rcases mem_topLevel h with hwhole | ⟨found, hfound, rfl⟩ | ⟨hit, hhit, -, rfl⟩
  · exact Or.inl (isWhole_of_wholeText? hwhole)
  · exact Or.inr (isCut_ofSection hreader hfound)
  · exact Or.inr (isCut_structureAt (Hit.isFilled_line hhit) _)

end

/-- The line of a hit inside a parent lies in the parent and has a character; and the last line of
a construct, cut off at the end of the parent, has one too. -/
theorem isFilled_of_hit_in {parent : Structure} {tier : Tier} {h : Hit} (style : BlockStyle)
    (hparent : IsWhole content parent ∨ IsCut content.lines parent.content parent.location)
    (hh : h ∈ Hit.ofRules parent.content.toList ((rulesOf language).patterns tier)) :
    IsFilled content.lines (parent.location.start + h.line - 1) ∧
      parent.location.start + h.line - 1 ≤
        min (endLine content.lines style (parent.location.start + h.line - 1))
          parent.location.stop ∧
      IsFilled content.lines (min
        (endLine content.lines style (parent.location.start + h.line - 1))
        parent.location.stop) := by
  rcases hparent with hwhole | hcut
  · -- the end of the text is no earlier than any end of a construct
    rw [hwhole.content_eq, String.toList_ofList] at hh
    have hline := Hit.isFilled_line hh
    have hstart : parent.location.start + h.line - 1 = h.line := by
      rw [hwhole.location_eq, Location.start_clamped]
      omega
    obtain ⟨hle, hend⟩ := isFilled_endLine hline style
    have hmin : min (endLine content.lines style h.line) parent.location.stop =
        endLine content.lines style h.line := by
      have hlen := hend.le_length
      rw [hwhole.location_eq, Location.stop_clamped, Text.lineCount]
      omega
    rw [hstart, hmin]
    exact ⟨hline, hle, hend⟩
  · rw [hcut.text_eq, String.toList_ofList] at hh
    obtain ⟨hstop, hline⟩ := Hit.isFilled_line_linesOf hh
    exact ⟨hline, isFilled_min_endLine hline hcut.filled hstop style⟩

section

variable {reader : Text → List Markdown.Heading}
  (hreader : Markdown.FindsFilledLines reader content)
include hreader

theorem isCut_of_mem_nested {s : NestedStructure}
    (h : s ∈ nested (rulesOf language) content language
      (topLevel (rulesOf language) content language reader)) :
    IsCut content.lines s.content s.location := by
  obtain ⟨parent, hparent, -, hit, hhit, hs⟩ := mem_nested h
  obtain ⟨hline, hle, hend⟩ := isFilled_of_hit_in (rulesOf language).blockStyle
    (isCut_or_whole_of_mem_topLevel hreader hparent) hhit
  rw [eq_of_nestedAt? hs]
  exact isCut_slice hline.1 hle hend

/-- A function ends on a line with a character. -/
theorem isFilled_stop_of_mem_named {p : Ref}
    (h : p ∈ (extractText content language reader).named) (hp : p.kind.isFunctionLike = true) :
    IsFilled content.lines p.location.stop := by
  rw [Extraction.named, List.mem_append, List.mem_map, List.mem_map] at h
  rcases h with ⟨s, hs, rfl⟩ | ⟨s, hs, rfl⟩
  · rcases isCut_or_whole_of_mem_topLevel hreader hs with hwhole | hcut
    · have hkind : s.ref.kind = .document := hwhole.kind_eq
      rw [hkind] at hp
      exact absurd hp (by decide)
    · exact hcut.filled
  · exact (isCut_of_mem_nested hreader hs).filled

end

theorem isCut_statementAt {h : Hit} {parent : Ref} (style : BlockStyle)
    (hline : IsFilled content.lines h.line) (hparent : IsFilled content.lines parent.location.stop)
    (hle : h.line ≤ parent.location.stop) :
    IsCut content.lines (statementAt content.lines style parent h).content
      (statementAt content.lines style parent h).location := by
  obtain ⟨hge, hend⟩ := isFilled_min_endLine hline hparent hle style
  rw [statementAt]
  simp only
  split
  · exact isCut_slice hline.1 hge hend
  · exact isCut_slice hline.1 (Nat.le_refl _) hline

/-- The line of a hit in a body has a character. -/
theorem isFilled_line_of_mem_bodyHits {parent : Ref} {h : Hit}
    (hh : h ∈ bodyHits (rulesOf language) content.lines parent) :
    IsFilled content.lines h.line := by
  rw [bodyHits] at hh
  split at hh
  · exact absurd hh List.not_mem_nil
  · obtain ⟨hit, hhit, rfl⟩ := List.mem_map.mp hh
    have hslice := sliceLines_eq_linesOf content.lines
      (Nat.le_add_left 1 parent.location.start) parent.location.stop
    rw [Nat.add_sub_cancel] at hslice
    rw [hslice] at hhit
    have hstart : (Location.clamped (parent.location.start + 1) parent.location.stop).start =
        parent.location.start + 1 := by
      rw [Location.start_clamped]
      omega
    have hfilled := (Hit.isFilled_line_linesOf hhit).2
    rw [hstart] at hfilled
    have hindex : parent.location.start + 1 + hit.line - 1 = parent.location.start + hit.line := by
      omega
    rw [hindex] at hfilled
    exact hfilled

theorem isCut_of_mem_internal {reader : Text → List Markdown.Heading}
    (hreader : Markdown.FindsFilledLines reader content) {s : InternalStructure}
    (h : s ∈ (extractText content language reader).internal) :
    IsCut content.lines s.content s.location := by
  obtain ⟨parent, hparent, hkind, hit, hhit, hbody, rfl⟩ := mem_internal h
  rw [inBody, Bool.and_eq_true, decide_eq_true_eq, decide_eq_true_eq] at hbody
  exact isCut_statementAt _ (isFilled_line_of_mem_bodyHits hhit)
    (isFilled_stop_of_mem_named hreader hparent hkind) hbody.2

end TextExtraction

/-! ## Spans -/

/-- A text stands for lines `start` to `stop` of a content: these are lines of the content, the
text has as many lines, and unless it is a document it is those lines joined. -/
structure IsSpan (content : Text) (kind : Kind) (text : String) (start stop : Nat) : Prop where
  one_le_start : 1 ≤ start
  start_le_stop : start ≤ stop
  stop_le : stop ≤ content.lineCount
  lineCount_eq : Text.lineCount text.toList = stop - start + 1
  text_eq : kind ≠ .document → text = String.ofList
    (Text.joinLines ((content.lines.drop (start - 1)).take (stop - start + 1)))

open TextExtraction

theorem TextExtraction.IsCut.isSpan {content : Text} {text : String} {l : Location}
    (h : IsCut content.lines text l) (kind : Kind) :
    IsSpan content kind text l.start l.stop where
  one_le_start := l.one_le_start
  start_le_stop := l.start_le_stop
  stop_le := h.filled.le_length
  lineCount_eq := by
    rw [h.text_eq, String.toList_ofList, Location.lineCount_linesOf h.filled, Location.lineCount]
  text_eq _ := h.text_eq

theorem TextExtraction.IsWhole.isSpan {content : Text} {s : Structure} (h : IsWhole content s) :
    IsSpan content s.kind s.content s.location.start s.location.stop := by
  -- a text that is not blank has a line
  have hpos : 1 ≤ content.lineCount := by
    have hfilled := h.filled
    cases content with
    | nil => exact absurd hfilled (by decide)
    | cons c cs => exact Text.lineCount_pos c cs
  have hstart : s.location.start = 1 := by
    rw [h.location_eq, Location.start_clamped]
    omega
  have hstop : s.location.stop = content.lineCount := by
    rw [h.location_eq, Location.stop_clamped]
    omega
  rw [hstart, hstop]
  refine ⟨Nat.le_refl 1, hpos, Nat.le_refl _, ?_, fun hk => absurd h.kind_eq hk⟩
  rw [h.content_eq, String.toList_ofList]
  omega

theorem isSpan_of_mem_topLevel {content : Text} {language : String}
    {reader : Text → List Markdown.Heading} (hreader : Markdown.FindsFilledLines reader content)
    {s : Structure} (h : s ∈ (extractText content language reader).topLevel) :
    IsSpan content s.kind s.content s.location.start s.location.stop := by
  rcases isCut_or_whole_of_mem_topLevel hreader h with hwhole | hcut
  · exact hwhole.isSpan
  · exact hcut.isSpan _

end Outline

import Outline.Proofs.Language.BlockEnd

/-!
# Indented blocks nest

The scan for the end of an indented block goes on past blank lines, past lines inside open brackets
and past lines that are indented deeper than the first one.  A block that begins on a line of
another block is found by a scan of its own, with another indentation to compare with and with
brackets counted anew.  If no brackets are open before its first line, both scans count the same
brackets from there on, and they can only differ on a line that is compared: there the inner scan
stops as soon as the outer one does, because the inner block is indented deeper
(`indentationScan_antitone`).

With brackets open, or with brackets closed that were never opened, the two counts differ, and the
inner block may end behind the outer one.

* `IndentationReach`: the lines that the scan comes to, with the brackets that are open before them.
* `IndentationReach.blockEnd_eq`: what remains of the scan on such a line.
* `indentationBlockEnd_nests`: blocks nest.
-/

namespace Outline

/-- The scan for the end of the indented block that begins on line `start` comes to line `i` with so
many brackets open. -/
inductive IndentationReach (lines : List Text) (start : Nat) : Nat → Int → Prop where
  | header {header : Text} : lines[start]? = some header →
      IndentationReach lines start (start + 1) (bracketDelta header)
  | blank {i : Nat} {depth : Int} {line : Text} : IndentationReach lines start i depth →
      lines[i]? = some line → line.isBlank = true → IndentationReach lines start (i + 1) depth
  | bracketed {i : Nat} {depth : Int} {line : Text} : IndentationReach lines start i depth →
      lines[i]? = some line → line.isBlank = false → 0 < depth →
      IndentationReach lines start (i + 1) (depth + bracketDelta line)
  | deeper {i : Nat} {depth : Int} {line header : Text} : IndentationReach lines start i depth →
      lines[i]? = some line → line.isBlank = false → depth ≤ 0 →
      lines[start]? = some header → indentWidth header < indentWidth line →
      IndentationReach lines start (i + 1) (depth + bracketDelta line)

/-! ## One line of the scan -/

section Step

variable {width : Nat} {i last : Nat} {depth : Int} {line : Text} {rest : List Text}

theorem indentationScan_blank (h : line.isBlank = true) :
    indentationScan width i depth last (line :: rest) =
      indentationScan width (i + 1) depth last rest := by
  rw [indentationScan, if_pos h]

theorem indentationScan_bracketed (h : line.isBlank = false) (hdepth : 0 < depth) :
    indentationScan width i depth last (line :: rest) =
      indentationScan width (i + 1) (depth + bracketDelta line) i rest := by
  rw [indentationScan, if_neg (by simp [h]), if_pos hdepth]

theorem indentationScan_deeper (h : line.isBlank = false) (hdepth : depth ≤ 0)
    (hwidth : width < indentWidth line) :
    indentationScan width i depth last (line :: rest) =
      indentationScan width (i + 1) (depth + bracketDelta line) i rest := by
  rw [indentationScan, if_neg (by simp [h]), if_neg (by omega), if_neg (by omega)]

theorem indentationScan_stop (h : line.isBlank = false) (hdepth : depth ≤ 0)
    (hwidth : indentWidth line ≤ width) :
    indentationScan width i depth last (line :: rest) = last := by
  rw [indentationScan, if_neg (by simp [h]), if_neg (by omega), if_pos hwidth]

end Step

/-! ## The whole scan -/

/-- The scan never goes back. -/
theorem le_indentationScan (width : Nat) (rest : List Text) {i last : Nat} {depth : Int}
    (h : last ≤ i) : last ≤ indentationScan width i depth last rest := by
  induction rest generalizing i last depth with
  | nil => exact Nat.le_refl last
  | cons line rest ih =>
    rw [indentationScan]
    split
    · exact ih (by omega)
    split
    · exact Nat.le_trans h (ih (by omega))
    split
    · exact Nat.le_refl last
    · exact Nat.le_trans h (ih (by omega))

/-- With the same brackets open, the scan that compares with the deeper indentation stops no
later. -/
theorem indentationScan_antitone {width width' : Nat} (hwidth : width ≤ width')
    (rest : List Text) {i last : Nat} {depth : Int} (h : last ≤ i) :
    indentationScan width' i depth last rest ≤ indentationScan width i depth last rest := by
  induction rest generalizing i last depth with
  | nil => exact Nat.le_refl last
  | cons line rest ih =>
    by_cases hblank : line.isBlank = true
    · rw [indentationScan_blank hblank, indentationScan_blank hblank]
      exact ih (by omega)
    rw [Bool.not_eq_true] at hblank
    by_cases hdepth : 0 < depth
    · rw [indentationScan_bracketed hblank hdepth, indentationScan_bracketed hblank hdepth]
      exact ih (by omega)
    rw [Int.not_lt] at hdepth
    by_cases hline : indentWidth line ≤ width'
    · -- the scan with the deeper indentation stops here, the other one perhaps later
      rw [indentationScan_stop hblank hdepth hline]
      exact le_indentationScan width (line :: rest) h
    · rw [indentationScan_deeper hblank hdepth (by omega),
        indentationScan_deeper hblank hdepth (by omega)]
      exact ih (by omega)

theorem drop_eq_cons_of_getElem? {lines : List Text} {i : Nat} {line : Text}
    (h : lines[i]? = some line) :
    lines.drop i = line :: lines.drop (i + 1) := by
  obtain ⟨hi, rfl⟩ := List.getElem?_eq_some_iff.mp h
  exact List.drop_eq_getElem_cons hi

namespace IndentationReach

variable {lines : List Text} {start i : Nat} {depth : Int}

theorem exists_header (h : IndentationReach lines start i depth) :
    ∃ header, lines[start]? = some header := by
  induction h with
  | header hline => exact ⟨_, hline⟩
  | blank _ _ _ ih => exact ih
  | bracketed _ _ _ _ ih => exact ih
  | deeper _ _ _ _ _ _ ih => exact ih

/-- The end of a block is what is left of the scan on any line that it comes to. -/
theorem blockEnd_eq {header : Text} (hheader : lines[start]? = some header)
    (h : IndentationReach lines start i depth) :
    ∃ last < i, indentationBlockEnd lines start =
      indentationScan (indentWidth header) i depth last (lines.drop i) := by
  induction h with
  | header hline =>
    obtain rfl := Option.some.inj (hheader.symm.trans hline)
    refine ⟨start, Nat.lt_succ_self start, ?_⟩
    rw [indentationBlockEnd, drop_eq_cons_of_getElem? hline]
  | blank _ hline hblank ih =>
    obtain ⟨last, hlast, ih⟩ := ih
    refine ⟨last, by omega, ?_⟩
    rw [ih, drop_eq_cons_of_getElem? hline, indentationScan_blank hblank]
  | @bracketed i _ _ _ hline hblank hdepth ih =>
    obtain ⟨last, -, ih⟩ := ih
    refine ⟨i, Nat.lt_succ_self i, ?_⟩
    rw [ih, drop_eq_cons_of_getElem? hline, indentationScan_bracketed hblank hdepth]
  | @deeper i _ _ _ _ hline hblank hdepth hheader' hwidth ih =>
    obtain rfl := Option.some.inj (hheader.symm.trans hheader')
    obtain ⟨last, -, ih⟩ := ih
    refine ⟨i, Nat.lt_succ_self i, ?_⟩
    rw [ih, drop_eq_cons_of_getElem? hline, indentationScan_deeper hblank hdepth hwidth]

end IndentationReach

/-! ## Blocks in blocks -/

/-- A block that begins on a line of an indented block, with no brackets open before it, ends in
that block. -/
theorem indentationBlockEnd_nests {lines : List Text} {start inner : Nat} {line : Text}
    (hline : lines[inner]? = some line) (hblank : line.isBlank = false)
    (hreach : IndentationReach lines start inner 0)
    (hinner : inner ≤ indentationBlockEnd lines start) :
    indentationBlockEnd lines inner ≤ indentationBlockEnd lines start := by
  obtain ⟨header, hheader⟩ := hreach.exists_header
  obtain ⟨last, hlast, houter⟩ := hreach.blockEnd_eq hheader
  rw [drop_eq_cons_of_getElem? hline] at houter
  have hwidth : indentWidth header < indentWidth line := by
    rcases Nat.lt_or_ge (indentWidth header) (indentWidth line) with hlt | hge
    · exact hlt
    · -- the outer scan would stop here, with an end before this line
      rw [indentationScan_stop hblank (Int.le_refl 0) hge] at houter
      omega
  rw [indentationScan_deeper hblank (Int.le_refl 0) hwidth, Int.zero_add] at houter
  rw [houter, indentationBlockEnd, drop_eq_cons_of_getElem? hline]
  exact indentationScan_antitone (Nat.le_of_lt hwidth) _ (Nat.le_succ inner)

/-- A class with a method whose first line is continued, and a list in the method. -/
def methodLines : List Text := ["class A:", "    def f(a,", "b):", "        x = [", "1]", "",
  "        return x", "    y = 1", "z = 2"].map String.toList

/-- The list ends on the line of its closing bracket, which is not indented at all, and the method
goes on. -/
theorem indentationBlockEnd_nests_of_method :
    IndentationReach methodLines 1 3 0 ∧
      indentationBlockEnd methodLines 3 = 4 ∧ indentationBlockEnd methodLines 1 = 6 ∧
      indentationBlockEnd methodLines 3 ≤ indentationBlockEnd methodLines 1 := by
  have hfirst : methodLines[1]? = some "    def f(a,".toList := rfl
  have hsecond : methodLines[2]? = some "b):".toList := rfl
  have hlist : methodLines[3]? = some "        x = [".toList := rfl
  have hopen : IndentationReach methodLines 1 2 1 := .header hfirst
  have hreach : IndentationReach methodLines 1 3 0 :=
    .bracketed hopen hsecond (by decide) (by decide)
  have hinner : indentationBlockEnd methodLines 3 = 4 := by decide
  have houter : indentationBlockEnd methodLines 1 = 6 := by decide
  exact ⟨hreach, hinner, houter,
    indentationBlockEnd_nests hlist (by decide) hreach (by rw [houter]; decide)⟩

end Outline

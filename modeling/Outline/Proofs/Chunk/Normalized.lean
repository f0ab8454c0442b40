import Outline.Proofs.Chunk.Validity
import Outline.Proofs.Text.Trim

/-!
# Normalised chunks keep their lines in place

Normalising trims the content of a chunk as one text and moves the first line by the number of line
feeds that it cuts off at the front.  That number is counted on the white space in front and not on
lines, so that the lines that stay are where they were has to be read off from how trimming acts on
lines (`Text.exists_lines_trim`).

A chunk whose first line would be moved behind its last one is left out, since it is moved to its
last line instead.

* `Chunk.KeepsLines`: the lines of one chunk at their places in another one.
* `normalized_keepsLines`: that this holds of a normalised chunk, which is as it would be after
  normalising once more.
-/

namespace Outline

/-! ## Lines -/

namespace Chunk

/-- The lines of the content. -/
def lines (c : Chunk) : List Text := Text.lines c.content.toList

/-- A chunk has the lines of another one, each at its place in the file and up to white space at
its ends; only blank lines at the front and at the end are missing. -/
structure KeepsLines (old new : Chunk) : Prop where
  startLine_le : old.startLine ≤ new.startLine
  stopLine_eq : new.stopLine = old.stopLine
  aligned : ∀ j line, new.lines[j]? = some line → ∃ l,
    old.lines[new.startLine - old.startLine + j]? = some l ∧ line.trim = l.trim
  front : ∀ i < new.startLine - old.startLine, ∃ l, old.lines[i]? = some l ∧ l.isBlank = true
  back : ∀ i l, new.startLine - old.startLine + new.lines.length ≤ i → old.lines[i]? = some l →
    l.isBlank = true

variable {c : Chunk}

/-- The first line moves past the blank lines in front. -/
theorem startLine_normalized_of_le (hcount : c.stopLine < countLimit)
    (hstop : c.startLine + leadingLines c.content.toList ≤ c.stopLine) :
    c.normalized.startLine = c.startLine + leadingLines c.content.toList := by
  rw [startLine_normalized (Nat.lt_of_le_of_lt hstop hcount), Nat.min_eq_left hstop]

theorem lines_normalized (c : Chunk) : c.normalized.lines = (Text.trim c.content.toList).lines := by
  have hcontent : c.normalized.content = trimmed c.content := rfl
  rw [lines, hcontent, trimmed, String.toList_ofList]

theorem keepsLines_normalized (hblank : isBlank c.content = false)
    (hcount : c.stopLine < countLimit)
    (hstop : c.startLine + leadingLines c.content.toList ≤ c.stopLine) :
    c.KeepsLines c.normalized := by
  obtain ⟨front, padded, back, hlines, hlength, hpadded, hfront, hback⟩ :=
    Text.exists_lines_trim hblank
  have hshift : c.normalized.startLine - c.startLine = front.length := by
    rw [startLine_normalized_of_le hcount hstop, Nat.add_sub_cancel_left, hlength]
    rfl
  obtain ⟨hsame, hpadded⟩ := List.forall₂_iff_get.mp hpadded
  have hlines : c.lines = front ++ (padded ++ back) := by rw [← List.append_assoc, ← hlines]; rfl
  refine ⟨?_, rfl, ?_, ?_, ?_⟩
  · rw [startLine_normalized_of_le hcount hstop]
    exact Nat.le_add_right _ _
  · intro j line hj
    rw [lines_normalized] at hj
    obtain ⟨hlt, rfl⟩ := List.getElem?_eq_some_iff.mp hj
    have hlt' : j < padded.length := hsame ▸ hlt
    refine ⟨padded[j], ?_, (hpadded j hlt hlt').trim_eq.symm⟩
    rw [hshift, hlines, List.getElem?_append_right (Nat.le_add_right _ _), Nat.add_sub_cancel_left,
      List.getElem?_append_left hlt', List.getElem?_eq_getElem hlt']
  · intro i hi
    rw [hshift] at hi
    refine ⟨front[i], ?_, hfront _ (List.getElem_mem hi)⟩
    rw [hlines, List.getElem?_append_left hi, List.getElem?_eq_getElem hi]
  · intro i l hi hl
    rw [hshift, lines_normalized, hsame] at hi
    rw [hlines, List.getElem?_append_right (by omega), List.getElem?_append_right (by omega)] at hl
    exact hback l (List.mem_of_getElem? hl)

end Chunk

/-! ## A second time -/

theorem Single.clamp_of_inUnitRange {x : Single} (h : x.inUnitRange = true) :
    clamp zero one x = x := by
  obtain ⟨hlow, hhigh⟩ := x.inUnitRange_iff.mp h
  have hlow : ¬ x < zero := Int.not_lt.mpr hlow
  have hhigh : ¬ one < x := Int.not_lt.mpr hhigh
  rw [clamp, if_neg hlow, if_neg hhigh]

theorem leadingLines_trim (t : Text) : leadingLines t.trim = 0 := by
  have hnone : ([] ++ t.trim).takeWhile isSpace = [] :=
    Text.takeWhile_append_stop (fun c hc => absurd hc List.not_mem_nil) (Text.head?_trim t)
  rw [leadingLines, ← List.nil_append t.trim, hnone]
  rfl

theorem trimmed_trimmed (s : String) : trimmed (trimmed s) = trimmed s := by
  rw [trimmed, trimmed, String.toList_ofList, Text.trim_trim]

namespace Chunk

variable {c : Chunk}

theorem normalized_normalized (hcount : c.stopLine < countLimit)
    (hstop : c.startLine + leadingLines c.content.toList ≤ c.stopLine) :
    c.normalized.normalized = c.normalized := by
  have hstart := startLine_normalized_of_le hcount hstop
  have hleading : leadingLines c.normalized.content.toList = 0 := by
    have hcontent : c.normalized.content = trimmed c.content := rfl
    rw [hcontent, trimmed, String.toList_ofList, leadingLines_trim]
  have hagain : c.normalized.normalized.startLine = c.normalized.startLine := by
    have hle : c.normalized.startLine + leadingLines c.normalized.content.toList ≤
        c.normalized.stopLine := by
      rw [hleading, hstart]
      exact hstop
    have hcount' : c.normalized.stopLine < countLimit := hcount
    rw [startLine_normalized_of_le hcount' hle, hleading, Nat.add_zero]
  have htwice : c.normalized.normalized = { c.normalized with
      content := trimmed (trimmed c.content)
      confidence := Single.clamp .zero .one (Single.clamp .zero .one c.confidence)
      startLine := c.normalized.normalized.startLine
      hash := some (contentHash (trimmed (trimmed c.content))) } := rfl
  rw [htwice, hagain, trimmed_trimmed, Single.clamp_of_inUnitRange (Single.inUnitRange_clamp _)]
  rfl

end Chunk

/-! ## Both -/

/-- If a chunk that is not blank reaches down to the line at which its text begins, then normalising
leaves each line of the text where it was, up to white space at its ends, and leaves out blank lines
only; and doing it again changes nothing. -/
theorem normalized_keepsLines {c : Chunk} (hblank : isBlank c.content = false)
    (hcount : c.stopLine < countLimit)
    (hstop : c.startLine + leadingLines c.content.toList ≤ c.stopLine) :
    c.KeepsLines c.normalized ∧ c.normalized.normalized = c.normalized :=
  ⟨Chunk.keepsLines_normalized hblank hcount hstop, Chunk.normalized_normalized hcount hstop⟩

/-- Two lines are cut off at the front, one of them with a carriage return, and one at the end; the
call keeps its two lines. -/
theorem normalized_keepsLines_of_call :
    let c : Chunk :=
      ChunkDraft.build
        { content := "\r\n \n  f(a,\n    b)\r\n\n", startLine := 3, stopLine := 7
          language := "rust", kind := .function }
        3 7
    (c.normalized.startLine = 5 ∧ c.normalized.content = "f(a,\n    b)") ∧
      c.KeepsLines c.normalized ∧ c.normalized.normalized = c.normalized :=
  ⟨by decide +kernel, normalized_keepsLines (by decide +kernel) (by decide +kernel)
    (by decide +kernel)⟩

end Outline

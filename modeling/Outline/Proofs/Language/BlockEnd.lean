import Outline.Language.BlockEnd
import Outline.Proofs.Pattern.Match
import Outline.Proofs.Text.Lines

/-!
# A construct ends on a line of its own

Whatever the block style, the last line of a construct is its first line or a line that is not
blank (`isBlockEnd_blockEnd`).  Each of the scans stops for its own reason, and the reason is always
something written on the line: a brace, a semicolon, `end`, a word.  Where a scan stops *before* a
blank line, the line before that one was not blank, or the scan would have stopped there.

* `IsBlockEnd`: the lines on which a construct may end.
* `isBlockEnd_of_braceScan`, `isBlockEnd_indentationScan`, `isBlockEnd_of_endKeywordScan`,
  `isBlockEnd_blankLineEnd`: the scans.
-/

namespace Outline

open Pattern

/-- Line `stop` is at or after line `start`, and is that line or not blank; both are counted from
zero. -/
def IsBlockEnd (lines : List Text) (start stop : Nat) : Prop :=
  start ≤ stop ∧ ∃ line, lines[stop]? = some line ∧ (stop = start ∨ line.isBlank = false)

theorem isBlockEnd_self {lines : List Text} {start : Nat} {line : Text}
    (h : lines[start]? = some line) : IsBlockEnd lines start start :=
  ⟨Nat.le_refl start, line, h, Or.inl rfl⟩

/-- The first of the lines that are left, and the others. -/
theorem getElem?_of_drop_eq_cons {lines rest : List Text} {i : Nat} {line : Text}
    (h : lines.drop i = line :: rest) : lines[i]? = some line ∧ lines.drop (i + 1) = rest := by
  constructor
  · rw [← List.head?_drop, h, List.head?_cons]
  · rw [← List.tail_drop, h, List.tail_cons]

theorem isBlank_eq_false_of_mem {line : Text} {c : Char} (h : c ∈ line) (hc : isSpace c = false) :
    line.isBlank = false := by
  rw [Text.isBlank, List.all_eq_false]
  exact ⟨c, h, by rw [hc]; decide⟩

/-! ## Braces -/

namespace BraceCount

/-- A character that is not a brace does not count. -/
theorem step_of_isSpace (b : BraceCount) {c : Char} (hc : isSpace c = true) : b.step c = b := by
  have hopen : c ≠ '\x7b' := by rintro rfl; exact absurd hc (by decide)
  have hclose : c ≠ '\x7d' := by rintro rfl; exact absurd hc (by decide)
  rw [step, if_neg hopen, if_neg (by simp [hclose])]

/-- A blank line does not count. -/
theorem scan_of_isBlank (b : BraceCount) {line : Text} (h : line.isBlank = true) :
    b.scan line = b := by
  rw [scan]
  rw [Text.isBlank, List.all_eq_true] at h
  induction line with
  | nil => rfl
  | cons c cs ih =>
    rw [List.foldl_cons, step_of_isSpace b (h c List.mem_cons_self)]
    exact ih fun d hd => h d (List.mem_cons_of_mem c hd)

theorem opened_step {b : BraceCount} (c : Char) (h : b.opened = true) :
    (b.step c).opened = true := by
  rw [step]
  split
  · rfl
  · split
    · rfl
    · exact h

/-- A block that was opened stays opened. -/
theorem opened_scan {b : BraceCount} (line : Text) (h : b.opened = true) :
    (b.scan line).opened = true := by
  rw [scan]
  induction line generalizing b with
  | nil => exact h
  | cons c cs ih => exact ih (opened_step c h)

end BraceCount

theorem mem_of_endsInSemicolon {line : Text} (h : endsInSemicolon line = true) : ';' ∈ line := by
  rw [endsInSemicolon, beq_iff_eq] at h
  have hmem := List.mem_of_getLast? h
  rw [Text.trimEnd, List.mem_reverse] at hmem
  exact List.mem_reverse.mp ((List.dropWhile_sublist isSpace).subset hmem)

/-- What the scan of braces keeps: the braces counted so far do not balance, and as long as none
has been opened the construct might have ended on the line before. -/
structure BraceScanState (lines : List Text) (start i : Nat) (isFirst : Bool) (b : BraceCount) :
    Prop where
  start_le : start ≤ i
  first : isFirst = true → i = start
  unbalanced : b.opened = true → 0 < b.balance
  previous : isFirst = false → b.opened = false → IsBlockEnd lines start (i - 1)

/-- A line on which the count changes is not blank. -/
theorem BraceScanState.isBlockEnd {lines : List Text} {start i : Nat} {isFirst : Bool}
    {b : BraceCount} (h : BraceScanState lines start i isFirst b) {line : Text}
    (hline : lines[i]? = some line) (hb : (b.scan line).opened = true)
    (hbal : (b.scan line).balance ≤ 0) : IsBlockEnd lines start i := by
  refine ⟨h.start_le, line, hline, Or.inr ?_⟩
  rw [Bool.eq_false_iff]
  intro hblank
  rw [b.scan_of_isBlank hblank] at hb hbal
  have := h.unbalanced hb
  omega

/-- A line that does not end the block is counted.  As long as no brace has been opened behind it,
none was before, and it was not passed as a blank line. -/
theorem BraceScanState.next {lines : List Text} {start i : Nat} {isFirst : Bool} {b : BraceCount}
    (h : BraceScanState lines start i isFirst b) {line : Text} (hline : lines[i]? = some line)
    (hblank : b.opened = false → isFirst = false → line.isBlank = false)
    (hbalance : (b.scan line).opened = true → 0 < (b.scan line).balance) :
    BraceScanState lines start (i + 1) false (b.scan line) where
  start_le := Nat.le_succ_of_le h.start_le
  first hfirst := absurd hfirst (by decide)
  unbalanced := hbalance
  previous _ hopened := by
    have hb : b.opened = false := by
      rw [Bool.eq_false_iff]
      intro hb
      rw [BraceCount.opened_scan line hb] at hopened
      exact absurd hopened (by decide)
    rw [Nat.add_sub_cancel]
    refine ⟨h.start_le, line, hline, ?_⟩
    cases hfirst : isFirst with
    | true => exact Or.inl (h.first hfirst)
    | false => exact Or.inr (hblank hb hfirst)

theorem isBlockEnd_of_braceScan {lines : List Text} {start stop : Nat} :
    ∀ {rest : List Text} {i : Nat} {isFirst : Bool} {b : BraceCount},
      lines.drop i = rest → BraceScanState lines start i isFirst b →
      braceScan i isFirst b rest = some stop → IsBlockEnd lines start stop
  | [], i, isFirst, b, _, _, h => absurd h (by simp [braceScan])
  | line :: rest, i, isFirst, b, hrest, hs, h => by
    obtain ⟨hline, hnext⟩ := getElem?_of_drop_eq_cons hrest
    rw [braceScan] at h
    split at h
    · -- a blank line before the first brace
      rename_i hc
      rw [Bool.and_eq_true, Bool.and_eq_true, Bool.not_eq_true', Bool.not_eq_true'] at hc
      rw [← Option.some.inj h]
      exact hs.previous hc.1.2 hc.1.1
    · rename_i hc
      simp only at h
      split at h
      · rename_i hbal
        rw [Bool.and_eq_true, decide_eq_true_eq] at hbal
        rw [← Option.some.inj h]
        exact hs.isBlockEnd hline hbal.1 hbal.2
      · rename_i hbal
        split at h
        · rename_i hsemi
          rw [Bool.and_eq_true] at hsemi
          rw [← Option.some.inj h]
          exact ⟨hs.start_le, line, hline, Or.inr
            (isBlank_eq_false_of_mem (mem_of_endsInSemicolon hsemi.2) (by decide))⟩
        · refine isBlockEnd_of_braceScan hnext (hs.next hline ?_ ?_) h
          · intro hb hfirst
            rw [hb, hfirst] at hc
            exact eq_false_of_ne_true hc
          · intro hopened
            rw [hopened, Bool.true_and, decide_eq_true_eq] at hbal
            omega

theorem isBlockEnd_of_braceBlockEnd? {lines : List Text} {start stop : Nat}
    (h : braceBlockEnd? lines start = some stop) : IsBlockEnd lines start stop :=
  isBlockEnd_of_braceScan rfl
    ⟨Nat.le_refl start, fun _ => rfl, fun hb => absurd hb (by decide),
      fun hf => absurd hf (by decide)⟩ h

/-! ## Indentation -/

theorem isBlockEnd_indentationScan {lines : List Text} {start header : Nat} :
    ∀ {rest : List Text} {i last : Nat} {depth : Int}, lines.drop i = rest → start ≤ i →
      IsBlockEnd lines start last →
      IsBlockEnd lines start (indentationScan header i depth last rest)
  | [], i, last, depth, _, _, hlast => by rw [indentationScan]; exact hlast
  | line :: rest, i, last, depth, hrest, hi, hlast => by
    obtain ⟨hline, hnext⟩ := getElem?_of_drop_eq_cons hrest
    have hi' : start ≤ i + 1 := Nat.le_succ_of_le hi
    rw [indentationScan]
    split
    · exact isBlockEnd_indentationScan hnext hi' hlast
    · rename_i hblank
      have hend : IsBlockEnd lines start i :=
        ⟨hi, line, hline, Or.inr (Bool.eq_false_iff.mpr hblank)⟩
      split
      · exact isBlockEnd_indentationScan hnext hi' hend
      · split
        · exact hlast
        · exact isBlockEnd_indentationScan hnext hi' hend

theorem isBlockEnd_indentationBlockEnd {lines : List Text} {start : Nat}
    (h : start < lines.length) : IsBlockEnd lines start (indentationBlockEnd lines start) := by
  have hdrop := List.drop_eq_getElem_cons h
  rw [indentationBlockEnd, hdrop]
  exact isBlockEnd_indentationScan rfl (Nat.le_succ start)
    (isBlockEnd_self (List.getElem?_eq_getElem h))

/-! ## Blocks closed by a word -/

/-- A line that closes a block has a word on it. -/
theorem isBlank_of_blockCloser {line : Text} (h : blockCloser.occursIn line = true) :
    line.isBlank = false := by
  rw [occursIn, Option.isSome_iff_exists] at h
  obtain ⟨f, hf⟩ := h
  obtain ⟨a, b, hin, -, hab, -⟩ := isMatch_of_first? hf
  cases hab with
  | seq hstart hab =>
    cases hab with
    | seq hspaces hab =>
      cases hab with
      | seq hword hbound =>
        obtain ⟨u, hu, -⟩ := hstart.exists_passes
        obtain ⟨v, hv, -⟩ := hspaces.exists_passes
        obtain ⟨w, hw, hopens⟩ := hword.exists_passes
        obtain ⟨c, cs, rfl⟩ := List.exists_cons_of_ne_nil (hopens.ne_nil (by decide))
        obtain ⟨pre, hline, -, -⟩ := (hin.passes hu).passes hv
        refine isBlank_eq_false_of_mem (c := c) ?_ ?_
        · rw [hline, hw.rest_eq, List.cons_append]
          exact List.mem_append_right pre List.mem_cons_self
        · -- the word avoids every character but its own first one
          rw [Bool.eq_false_iff]
          intro hc
          have hne : c ≠ 'e' := by rintro rfl; exact absurd hc (by decide)
          refine hopens.head?_ne c ?_ rfl
          simp [literal, avoids, isNullable, hne]

theorem isBlockEnd_of_endKeywordScan {lines : List Text} {start stop : Nat} :
    ∀ {rest : List Text} {i : Nat} {isFirst : Bool} {depth : Int}, lines.drop i = rest →
      start ≤ i → (isFirst = true → i = start) → (isFirst = false → 0 < depth) →
      endKeywordScan i isFirst depth rest = some stop → IsBlockEnd lines start stop
  | [], i, isFirst, depth, _, _, _, _, h => absurd h (by simp [endKeywordScan])
  | line :: rest, i, isFirst, depth, hrest, hi, hfirst, hdepth, h => by
    obtain ⟨hline, hnext⟩ := getElem?_of_drop_eq_cons hrest
    rw [endKeywordScan] at h
    split at h
    · rename_i hle
      rw [← Option.some.inj h]
      cases hf : isFirst with
      | true => exact ⟨hi, line, hline, Or.inl (hfirst hf)⟩
      | false =>
        refine ⟨hi, line, hline, Or.inr ?_⟩
        have hpos := hdepth hf
        cases hclose : blockCloser.occursIn line with
        | true => exact isBlank_of_blockCloser hclose
        | false =>
          -- without a closing word the depth cannot have fallen
          rw [endKeywordDelta, hf, hclose] at hle
          simp only [Bool.false_eq_true, if_false, Bool.false_and] at hle
          omega
    · rename_i hle
      exact isBlockEnd_of_endKeywordScan hnext (Nat.le_succ_of_le hi)
        (fun hf => absurd hf (by decide)) (fun _ => by omega) h

theorem isBlockEnd_of_endKeywordBlockEnd? {lines : List Text} {start stop : Nat}
    (h : endKeywordBlockEnd? lines start = some stop) : IsBlockEnd lines start stop :=
  isBlockEnd_of_endKeywordScan rfl (Nat.le_refl start) (fun _ => rfl)
    (fun hf => absurd hf (by decide)) h

/-! ## Blank lines -/

theorem isBlockEnd_blankLineEnd {lines : List Text} {start : Nat} (h : start < lines.length) :
    IsBlockEnd lines start (blankLineEnd lines start) := by
  rw [blankLineEnd]
  cases hk : ((lines.drop (start + 1)).takeWhile fun line => !line.isBlank).length with
  | zero => exact isBlockEnd_self (List.getElem?_eq_getElem h)
  | succ k =>
    have hlt : k < ((lines.drop (start + 1)).takeWhile fun line => !line.isBlank).length := by
      omega
    have hmem := List.all_eq_true.mp List.all_takeWhile _ (List.getElem_mem hlt)
    have hprefix := List.takeWhile_prefix (l := lines.drop (start + 1)) fun line => !line.isBlank
    have hget := List.IsPrefix.getElem hprefix hlt
    refine ⟨Nat.le_add_right start (k + 1), _, ?_, Or.inr (by simpa using hmem)⟩
    rw [hget, List.getElem_drop, List.getElem?_eq_some_iff]
    exact ⟨by have := hprefix.length_le; rw [List.length_drop] at this; omega,
      by congr 1; omega⟩

/-! ## Every style -/

/-- The last line of a construct is its first line or a line that is not blank.  A first line
behind the end of the text counts as the last line of the text. -/
theorem isBlockEnd_blockEnd {lines : List Text} (hne : lines ≠ []) (start : Nat)
    (style : BlockStyle) :
    IsBlockEnd lines (min start (lines.length - 1)) (blockEnd lines start style) := by
  have hpos : 0 < lines.length := List.length_pos_iff.mpr hne
  have hlt : min start (lines.length - 1) < lines.length := by omega
  rw [blockEnd, if_neg (by simpa using hne)]
  cases style with
  | braces =>
    cases h : braceBlockEnd? lines (min start (lines.length - 1)) with
    | some stop => simp only [h]; exact isBlockEnd_of_braceBlockEnd? h
    | none => simp only [h]; exact isBlockEnd_blankLineEnd hlt
  | indentation => exact isBlockEnd_indentationBlockEnd hlt
  | endKeyword =>
    cases h : endKeywordBlockEnd? lines (min start (lines.length - 1)) with
    | some stop => simp only [h]; exact isBlockEnd_of_endKeywordBlockEnd? h
    | none => simp only [h]; exact isBlockEnd_blankLineEnd hlt
  | document => exact isBlockEnd_indentationBlockEnd hlt
  | markdown => exact isBlockEnd_blankLineEnd hlt

/-- A construct ends on a line of the text: not before its first line, and on a line that is not
blank unless it is that one. -/
theorem blockEnd_onLine {lines : List Text} (hne : lines ≠ []) (start : Nat)
    (style : BlockStyle) :
    min start (lines.length - 1) ≤ blockEnd lines start style ∧
      ∃ hlt : blockEnd lines start style < lines.length,
        blockEnd lines start style = min start (lines.length - 1) ∨
          lines[blockEnd lines start style].isBlank = false := by
  obtain ⟨hle, line, hline, hend⟩ := isBlockEnd_blockEnd hne start style
  obtain ⟨hlt, rfl⟩ := List.getElem?_eq_some_iff.mp hline
  exact ⟨hle, hlt, hend⟩

/-- A function whose brace is never closed, a blank line and a call. -/
def unclosedFunction : List Text :=
  ["f() \x7b".toList, "  g(".toList, [], "  ".toList, "h();".toList]

/-- The braces lead nowhere, and the function ends before the first blank line.  A construct that
begins behind the last line ends on the last line. -/
theorem blockEnd_onLine_of_unclosed :
    braceBlockEnd? unclosedFunction 0 = none ∧ blockEnd unclosedFunction 0 .braces = 1 ∧
      (∃ hlt : blockEnd unclosedFunction 0 .braces < unclosedFunction.length,
        blockEnd unclosedFunction 0 .braces = 0 ∨
          unclosedFunction[blockEnd unclosedFunction 0 .braces].isBlank = false) ∧
      4 ≤ blockEnd unclosedFunction 7 .endKeyword ∧
      blockEnd unclosedFunction 7 .endKeyword < unclosedFunction.length := by
  have hne : unclosedFunction ≠ [] := List.cons_ne_nil _ _
  obtain ⟨-, hfirst⟩ := blockEnd_onLine hne 0 .braces
  obtain ⟨hle, hlt, -⟩ := blockEnd_onLine hne 7 .endKeyword
  exact ⟨by decide, by decide, hfirst, hle, hlt⟩

end Outline

import Outline.Proofs.Tree.Places

/-!
# Rows of a tree and lines of its source

The line of a byte is told in two ways.  A tree looks the byte up among the bytes at which lines
begin; a text counts the line feeds before it.  Both come to the number of lines that have begun
there (`SyntaxTree.pointAt_eq`, `Text.lineOfByte_eq`), also for a byte inside a character, for the
first byte of a line, for a line feed and for a byte behind the end.  The column of a byte is its
distance from the last line that has begun, and there always is one, the first: so the search for it
never ends before the first line (`SyntaxTree.IsPlaced.slotOf_ne`).

* `SyntaxTree.isGreatest_getLastD_begun`: the last line that has begun at a byte.
* `SyntaxTree.pointAt_isPlaceOfLine`: rows, columns and their order.
-/

namespace Outline.SyntaxTree

variable {t : SyntaxTree}

/-- The lines that have begun at a byte are those that begin at or before it. -/
theorem begun_eq (t : SyntaxTree) (byte : Nat) :
    t.begun byte = t.source.lineStarts.filter (· ≤ byte) := by
  refine List.filter_congr fun line hline => decide_eq_decide.mpr ?_
  have hle := Text.le_byteLength_of_mem_lineStarts hline
  omega

/-- The last line that has begun at a byte. -/
theorem isGreatest_getLastD_begun (t : SyntaxTree) (byte : Nat) :
    IsGreatest {line | t.source.BeginsLine line ∧ line ≤ min byte t.source.byteLength}
      ((t.begun byte).getLastD 0) := by
  have hset : {line | t.source.BeginsLine line ∧ line ≤ min byte t.source.byteLength} =
      {line | line ∈ t.begun byte} := by
    ext line
    simp only [Set.mem_ofPred_eq, begun, List.mem_filter, Text.mem_lineStarts_iff,
      decide_eq_true_eq]
  rw [hset]
  exact isGreatest_getLastD ((Text.pairwise_lt_lineStarts t.source).filter _)
    (List.ne_nil_of_mem (t.zero_mem_begun byte))

namespace IsPlaced

/-- A search for a byte never ends before the first line. -/
theorem slotOf_ne (h : t.IsPlaced) (byte : Nat) : slotOf t.lineStarts byte ≠ .missing 0 := by
  intro hslot
  have hfirst := isOf_slotOf (Text.pairwise_lt_lineStarts t.source) byte
  rw [← h.lineStarts_eq, hslot] at hfirst
  have hlt := hfirst.2.2 0 (by rw [h.lineStarts_eq]; exact List.mem_cons_self)
  exact Nat.not_lt_zero _ hlt

theorem row_pointAt_eq (h : t.IsPlaced) (byte : Nat) :
    (t.pointAt byte).row + 1 = t.source.lineOfByte byte := by
  have hpos : 0 < (t.begun byte).length := List.length_pos_of_mem (t.zero_mem_begun byte)
  rw [pointAt_eq h.lineStarts_eq, Text.lineOfByte_eq, ← begun_eq]
  exact Nat.sub_add_cancel hpos

theorem lineSpan?_eq (h : t.IsPlaced) {id : Nat} {n : Node} (hn : t.get? id = some n) :
    t.lineSpan? id = some (t.source.lineOfByte n.startByte, t.source.lineOfByte n.stopByte) := by
  obtain ⟨hstart, hstop⟩ := Span.mk.inj (h.span_eq id n hn)
  rw [lineSpan?, hn, Option.map_some, hstart, hstop, h.row_pointAt_eq, h.row_pointAt_eq]

end IsPlaced

/-- The place of a byte, also of one behind the end: its row is that of the line which holds the
byte, and its column is counted from the byte just after the last line feed before it, or from the
first byte of the text; the search for the line ends at a line.  Later bytes have later places, and
the lines of a node are those of its bytes. -/
theorem pointAt_isPlaceOfLine (h : t.IsBuilt) :
    (∀ offset, slotOf t.lineStarts (min offset t.source.byteLength) ≠ .missing 0 ∧
      (t.pointAt offset).row + 1 = t.source.lineOfByte offset ∧
      ∃ line, IsGreatest {line | t.source.BeginsLine line ∧
          line ≤ min offset t.source.byteLength} line ∧
        (t.pointAt offset).column = min offset t.source.byteLength - line) ∧
    (∀ a b, a ≤ b → t.pointAt a ≤ t.pointAt b) ∧
    ∀ id n, t.get? id = some n →
      t.lineSpan? id = some (t.source.lineOfByte n.startByte, t.source.lineOfByte n.stopByte) := by
  have hplaced := h.isPlaced
  refine ⟨fun offset => ⟨hplaced.slotOf_ne _, hplaced.row_pointAt_eq offset,
    _, isGreatest_getLastD_begun t offset, ?_⟩,
    fun a b hab => pointAt_mono hplaced.lineStarts_eq hab, fun id n hn => hplaced.lineSpan?_eq hn⟩
  rw [pointAt_eq hplaced.lineStarts_eq]

/-- A text of two lines, the first with a character of two bytes, and a node that is said to end
behind it. -/
def overlongTree : SyntaxTree :=
  ((ofSource "é\nab".toList).add none "program" none 0 5).add (some 0) "word" none 1 99

/-- Behind the end, in the first character and on the line feed. -/
theorem pointAt_isPlaceOfLine_of_overlong :
    overlongTree.pointAt 99 = ⟨1, 2⟩ ∧ overlongTree.source.lineOfByte 99 = 2 ∧
      IsGreatest {line | overlongTree.source.BeginsLine line ∧ line ≤ 5} 3 ∧
      overlongTree.pointAt 1 ≤ overlongTree.pointAt 2 ∧ overlongTree.lineSpan? 1 = some (1, 2) := by
  have hbuilt : overlongTree.IsBuilt := ((IsBuilt.ofSource _).add _ _ _ _ _).add _ _ _ _ _
  obtain ⟨hplace, hmono, -⟩ := pointAt_isPlaceOfLine hbuilt
  obtain ⟨-, hrow, line, hline, hcolumn⟩ := hplace 99
  have hpoint : overlongTree.pointAt 99 = ⟨1, 2⟩ := by decide +kernel
  have hend : min 99 overlongTree.source.byteLength = 5 := rfl
  rw [hpoint] at hrow hcolumn
  rw [hend] at hline hcolumn
  simp only at hcolumn
  have hle := hline.1.2
  obtain rfl : line = 3 := by omega
  exact ⟨hpoint, hrow.symm, hline, hmono 1 2 (by decide), by decide +kernel⟩

end Outline.SyntaxTree

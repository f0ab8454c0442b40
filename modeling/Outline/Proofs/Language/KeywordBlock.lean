import Outline.Proofs.Language.EndKeyword

/-!
# Blocks with `end`

A block is a line that opens it, a body, and a line that begins with `end`; the body consists of
plain lines, of definitions on one line, and of blocks again.  The scan for the end of a block keeps
a depth, and a line adds to it what `endKeywordDelta_eq` says.  Along a body the depth should come
back to where it was.  It never falls below (`endKeywordScan_body`), but it may rise: a definition
on one line opens a block that nothing closes, and a line that begins with a word and ends in `do`
opens two, as in `while x do`.  Once the depth has risen, the scan runs past the `end` of the block.

So the end of a block is found exactly when the block and all blocks in it are counted once
(`endKeywordBlockEnd?_eq_iff`).  If the scan runs out of lines, the next blank line decides, which
may be the line after the block by chance; this is the other case of `blockEnd_eq_iff`.

* `KeywordBlock`, `KeywordBody`: blocks and what stands between their first and last lines.
* `KeywordBody.excess`: how much too often is counted.
* `KeywordBlock.IsCountedOnce`: the blocks whose end is found.
-/

namespace Outline

open Pattern

/-! ## Blocks -/

/-- A line that opens a block: it begins with one of the words, or it is another line that ends in
`do`.  What begins with `end` belongs to the block that it closes. -/
def IsHeader (line : Text) : Prop :=
  (firstWord line ∈ blockWords ∨ EndsInDo line) ∧ firstWord line ≠ "end"

instance (line : Text) : Decidable (IsHeader line) :=
  inferInstanceAs (Decidable ((firstWord line ∈ blockWords ∨ EndsInDo line) ∧ _))

/-- A definition that is opened and closed on one line. -/
def IsOneLineDefinition (line : Text) : Prop :=
  ∃ gap name trail, line = gap ++ "def ".toList ++ name ++ "; end".toList ++ trail ∧
    (∀ c ∈ gap, isSpace c = true) ∧ ∀ c ∈ trail, isSpace c = true

/-- A line that matches neither of the patterns. -/
def IsPlainLine (line : Text) : Prop :=
  blockOpener.occursIn line = false ∧ blockCloser.occursIn line = false

instance (line : Text) : Decidable (IsPlainLine line) :=
  inferInstanceAs (Decidable (_ ∧ _))

/-- What stands between the first and the last line of a block. -/
inductive KeywordBody where
  | nil
  | plain (line : {line : Text // IsPlainLine line}) (rest : KeywordBody)
  | oneLine (line : {line : Text // IsOneLineDefinition line}) (rest : KeywordBody)
  | block (header : {line : Text // IsHeader line}) (body : KeywordBody)
      (closer : {line : Text // firstWord line = "end"}) (rest : KeywordBody)

/-- A block with its first and last lines. -/
structure KeywordBlock where
  header : {line : Text // IsHeader line}
  body : KeywordBody
  closer : {line : Text // firstWord line = "end"}

/-- A line that is counted as if it opened two blocks. -/
def OpensTwice (line : Text) : Prop := firstWord line ∈ blockWords ∧ EndsInDo line

instance (line : Text) : Decidable (OpensTwice line) := inferInstanceAs (Decidable (_ ∧ _))

namespace KeywordBody

/-- The lines of a body. -/
def lines : KeywordBody → List Text
  | .nil => []
  | .plain line rest => line.val :: rest.lines
  | .oneLine line rest => line.val :: rest.lines
  | .block header body closer rest => header.val :: (body.lines ++ closer.val :: rest.lines)

/-- The blocks that are counted as opened in a body without being closed there. -/
def excess : KeywordBody → Nat
  | .nil => 0
  | .plain _ rest => rest.excess
  | .oneLine _ rest => 1 + rest.excess
  | .block header body closer rest =>
    (if OpensTwice header.val then 1 else 0) + body.excess +
      (if EndsInDo closer.val then 1 else 0) + rest.excess

end KeywordBody

namespace KeywordBlock

/-- The lines of a block. -/
def lines (b : KeywordBlock) : List Text := b.header.val :: (b.body.lines ++ [b.closer.val])

/-- The block and all blocks in it are counted once.  On the first line an `end` behind a semicolon
takes one away, which makes up for what is opened twice and is wrong otherwise. -/
structure IsCountedOnce (b : KeywordBlock) : Prop where
  header : OpensTwice b.header.val ↔ Text.contains "; end".toList b.header.val = true
  body : b.body.excess = 0
  closer : ¬ EndsInDo b.closer.val

end KeywordBlock

/-! ## What the lines of a block add to the depth -/

theorem firstWord_ne_end {line : Text} (h : firstWord line ∈ blockWords) :
    firstWord line ≠ "end" := by
  rintro heq
  rw [heq] at h
  exact absurd h (by decide)

theorem IsHeader.endKeywordDelta_eq {line : Text} (h : IsHeader line) (isFirst : Bool) :
    endKeywordDelta isFirst line = 1 + (if OpensTwice line then 1 else 0)
      - (if isFirst && Text.contains "; end".toList line then 1 else 0) := by
  obtain ⟨hopens, hend⟩ := h
  rw [Outline.endKeywordDelta_eq, if_neg hend, Int.sub_zero]
  congr 1
  by_cases hword : firstWord line ∈ blockWords
  · by_cases hdo : EndsInDo line
    · rw [if_pos hword, if_pos hdo, if_pos (show OpensTwice line from ⟨hword, hdo⟩)]
    · rw [if_pos hword, if_neg hdo, if_neg fun htwice : OpensTwice line => hdo htwice.2]
  · rw [if_neg hword, if_pos (hopens.resolve_left hword),
      if_neg fun htwice : OpensTwice line => hword htwice.1]
    rfl

theorem endKeywordDelta_of_closer {line : Text} (h : firstWord line = "end") :
    endKeywordDelta false line = (if EndsInDo line then 1 else 0) - 1 := by
  have hword : firstWord line ∉ blockWords := fun hmem => firstWord_ne_end hmem h
  rw [endKeywordDelta_eq, if_neg hword, if_pos h, Int.zero_add, Bool.false_and,
    if_neg Bool.false_ne_true, Int.sub_zero]

theorem IsPlainLine.endKeywordDelta_eq {line : Text} (h : IsPlainLine line) :
    endKeywordDelta false line = 0 := by
  obtain ⟨hopener, hcloser⟩ := h
  rw [← Bool.not_eq_true, occursIn_blockOpener_iff, not_or] at hopener
  rw [← Bool.not_eq_true, occursIn_blockCloser_iff] at hcloser
  rw [Outline.endKeywordDelta_eq, if_neg hopener.1, if_neg hopener.2, if_neg hcloser]
  rfl

namespace IsOneLineDefinition

variable {line : Text}

theorem firstWord_eq (h : IsOneLineDefinition line) : firstWord line = "def" := by
  obtain ⟨gap, name, trail, rfl, hgap, -⟩ := h
  refine (firstWord_eq_iff (by decide)).mpr
    ⟨gap, ' ' :: (name ++ "; end".toList ++ trail), ?_, hgap, ?_⟩
  · simp [List.append_assoc]
  · have hspace : isWord ' ' = false := by decide
    exact hspace

/-- The last character is that of `end`, and not the one of a `do` or a bar. -/
theorem not_endsInDo (h : IsOneLineDefinition line) : ¬ EndsInDo line := by
  intro hdo
  obtain ⟨pre, last, trail', hline, hlast, htrail'⟩ := hdo.exists_last
  obtain ⟨gap, name, trail, rfl, -, htrail⟩ := h
  have hsplit : gap ++ "def ".toList ++ name ++ "; end".toList ++ trail =
      (gap ++ "def ".toList ++ name ++ "; en".toList) ++ 'd' :: trail := by
    simp [List.append_assoc]
  have hd := head?_dropWhile_reverse (u := gap ++ "def ".toList ++ name ++ "; en".toList) htrail
    (show isSpace 'd' = false by decide)
  have hspace : isSpace last = false := by
    rcases hlast with rfl | rfl
    · decide
    · decide
  rw [← hsplit, hline, head?_dropWhile_reverse htrail' hspace, Option.some_inj] at hd
  rw [hd] at hlast
  exact absurd hlast (by decide)

theorem endKeywordDelta_eq (h : IsOneLineDefinition line) : endKeywordDelta false line = 1 := by
  have hword : "def" ∈ blockWords := by decide
  rw [Outline.endKeywordDelta_eq, if_neg h.not_endsInDo, h.firstWord_eq, if_pos hword]
  rfl

end IsOneLineDefinition

/-! ## The scan -/

section

variable {i : Nat} {isFirst : Bool} {depth : Int} {line : Text} {rest : List Text}

/-- The scan goes on as long as a block is open. -/
theorem endKeywordScan_cons_of_pos (h : 0 < depth + endKeywordDelta isFirst line) :
    endKeywordScan i isFirst depth (line :: rest) =
      endKeywordScan (i + 1) false (depth + endKeywordDelta isFirst line) rest := by
  rw [endKeywordScan, if_neg (Int.not_le.mpr h)]

/-- The scan stops where all blocks are closed. -/
theorem endKeywordScan_cons_of_nonpos (h : depth + endKeywordDelta isFirst line ≤ 0) :
    endKeywordScan i isFirst depth (line :: rest) = some i := by
  rw [endKeywordScan, if_pos h]

theorem le_of_endKeywordScan {stop : Nat} (h : endKeywordScan i isFirst depth rest = some stop) :
    i ≤ stop := by
  induction rest generalizing i isFirst depth with
  | nil => exact absurd h (by simp [endKeywordScan])
  | cons line rest ih =>
    rw [endKeywordScan] at h
    split at h
    · exact Nat.le_of_eq (Option.some.inj h)
    · exact Nat.le_of_succ_le (ih h)

end

/-- Along a body the depth rises by what is counted too often, and the scan does not stop. -/
theorem endKeywordScan_body (b : KeywordBody) : ∀ {rest : List Text} {i : Nat} {depth : Int},
    0 < depth → endKeywordScan i false depth (b.lines ++ rest) =
      endKeywordScan (i + b.lines.length) false (depth + b.excess) rest := by
  induction b with
  | nil =>
    intro rest i depth _
    rw [KeywordBody.excess, Int.natCast_zero, Int.add_zero]
    rfl
  | plain line body ih =>
    intro rest i depth hdepth
    have hdelta := line.property.endKeywordDelta_eq
    rw [KeywordBody.lines, KeywordBody.excess, List.cons_append, List.length_cons,
      endKeywordScan_cons_of_pos (by omega), hdelta, ih (by omega)]
    congr 1 <;> omega
  | oneLine line body ih =>
    intro rest i depth hdepth
    have hdelta := line.property.endKeywordDelta_eq
    rw [KeywordBody.lines, KeywordBody.excess, List.cons_append, List.length_cons,
      endKeywordScan_cons_of_pos (by omega), hdelta, ih (by omega)]
    congr 1 <;> omega
  | block header body closer after ihbody ihafter =>
    intro rest i depth hdepth
    have hopen := header.property.endKeywordDelta_eq false
    have hclose := endKeywordDelta_of_closer closer.property
    rw [Bool.false_and, if_neg Bool.false_ne_true, Int.sub_zero] at hopen
    have hexcess : ((KeywordBody.block header body closer after).excess : Int) =
        (if OpensTwice header.val then 1 else 0) + body.excess +
          (if EndsInDo closer.val then 1 else 0) + after.excess := by
      simp only [KeywordBody.excess, Nat.cast_add, Nat.cast_ite, Nat.cast_one, Nat.cast_zero]
    -- the line that closes takes back what the header has opened, at most
    have hheader : 0 < depth + endKeywordDelta false header.val := by
      rw [hopen]
      split <;> omega
    have hcloser : 0 < depth + endKeywordDelta false header.val + body.excess +
        endKeywordDelta false closer.val := by
      rw [hopen, hclose]
      split <;> split <;> omega
    rw [KeywordBody.lines, List.cons_append, List.append_assoc, List.cons_append,
      endKeywordScan_cons_of_pos hheader, ihbody hheader, endKeywordScan_cons_of_pos hcloser,
      ihafter hcloser, hexcess, hopen, hclose]
    congr 1
    · simp only [List.length_cons, List.length_append]
      omega
    · omega

/-! ## The end of a block -/

/-- A block is counted once if its first line opens one block, its last line closes one, and the
body leaves none open. -/
theorem KeywordBlock.isCountedOnce_iff (b : KeywordBlock) : b.IsCountedOnce ↔
    endKeywordDelta true b.header.val = 1 ∧ b.body.excess = 0 ∧
      endKeywordDelta false b.closer.val = -1 := by
  rw [b.header.property.endKeywordDelta_eq, endKeywordDelta_of_closer b.closer.property,
    Bool.true_and]
  constructor
  · rintro ⟨hheader, hbody, hcloser⟩
    refine ⟨?_, hbody, by rw [if_neg hcloser]; rfl⟩
    simp only [hheader]
    omega
  · rintro ⟨hheader, hbody, hcloser⟩
    refine ⟨?_, hbody, fun hdo => ?_⟩
    · by_cases htwice : OpensTwice b.header.val
      · rw [if_pos htwice] at hheader
        refine iff_of_true htwice ?_
        by_contra hend
        rw [if_neg hend] at hheader
        exact absurd hheader (by decide)
      · rw [if_neg htwice] at hheader
        refine iff_of_false htwice fun hend => ?_
        rw [if_pos hend] at hheader
        exact absurd hheader (by decide)
    · rw [if_pos hdo] at hcloser
      exact absurd hcloser (by decide)

/-- The scan finds the end of a block exactly when all is counted once. -/
theorem endKeywordBlockEnd?_eq_iff (before after : List Text) (b : KeywordBlock) :
    endKeywordBlockEnd? (before ++ b.lines ++ after) before.length =
        some (before.length + b.body.lines.length + 1) ↔ b.IsCountedOnce := by
  have hcloser : -1 ≤ endKeywordDelta false b.closer.val := by
    rw [endKeywordDelta_of_closer b.closer.property]
    split <;> omega
  have hdrop : (before ++ b.lines ++ after).drop before.length =
      b.header.val :: (b.body.lines ++ b.closer.val :: after) := by
    rw [List.append_assoc, List.drop_left, KeywordBlock.lines, List.cons_append, List.append_assoc]
    rfl
  rw [endKeywordBlockEnd?, hdrop, b.isCountedOnce_iff]
  by_cases hheader : 0 < (0 : Int) + endKeywordDelta true b.header.val
  · rw [endKeywordScan_cons_of_pos hheader, endKeywordScan_body b.body hheader]
    by_cases hend : 0 < (0 : Int) + endKeywordDelta true b.header.val + b.body.excess +
        endKeywordDelta false b.closer.val
    · rw [endKeywordScan_cons_of_pos hend]
      refine iff_of_false (fun hstop => ?_) (by omega)
      have hle := le_of_endKeywordScan hstop
      omega
    · rw [endKeywordScan_cons_of_nonpos (Int.not_lt.mp hend), Option.some_inj]
      refine iff_of_true ?_ ?_ <;> omega
  · rw [endKeywordScan_cons_of_nonpos (Int.not_lt.mp hheader), Option.some_inj]
    refine iff_of_false ?_ ?_ <;> omega

theorem blockEnd_endKeyword {lines : List Text} {start : Nat} (h : start < lines.length) :
    blockEnd lines start .endKeyword =
      (endKeywordBlockEnd? lines start).getD (blankLineEnd lines start) := by
  have hne : lines.isEmpty = false :=
    List.isEmpty_eq_false_iff.mpr (List.ne_nil_of_length_pos (by omega))
  have hmin : min start (lines.length - 1) = start := by omega
  rw [blockEnd, hne, if_neg Bool.false_ne_true]
  simp only [hmin]

/-- A construct that begins with the first line of a block ends with the last line of the block
exactly when the block and all blocks in it are counted once, or else, by chance, when the scan runs
out of lines and the next blank line, or the end of the text, comes just behind the block. -/
theorem blockEnd_keywordBlock_iff (before after : List Text) (b : KeywordBlock) :
    blockEnd (before ++ b.lines ++ after) before.length .endKeyword =
        before.length + b.body.lines.length + 1 ↔
      b.IsCountedOnce ∨
        endKeywordBlockEnd? (before ++ b.lines ++ after) before.length = none ∧
          blankLineEnd (before ++ b.lines ++ after) before.length =
            before.length + b.body.lines.length + 1 := by
  have hlength : before.length < (before ++ b.lines ++ after).length := by
    rw [List.length_append, List.length_append, KeywordBlock.lines, List.length_cons]
    omega
  rw [← endKeywordBlockEnd?_eq_iff before after b, blockEnd_endKeyword hlength]
  cases endKeywordBlockEnd? (before ++ b.lines ++ after) before.length with
  | none => simp
  | some stop => simp

/-- A class with a method with a loop. -/
def classBlock : KeywordBlock where
  header := ⟨"class A".toList, by decide⟩
  body :=
    .block ⟨"  def f".toList, by decide⟩
      (.block ⟨"    xs.each do |x|".toList, by decide⟩
        (.plain ⟨"      g x".toList, by decide⟩ .nil)
        ⟨"    end".toList, by decide⟩ .nil)
      ⟨"  end".toList, by decide⟩ .nil
  closer := ⟨"end".toList, by decide⟩

theorem blockEnd_classBlock :
    blockEnd ([[]] ++ classBlock.lines ++ ["x".toList]) 1 .endKeyword = 7 :=
  (blockEnd_keywordBlock_iff [[]] ["x".toList] classBlock).mpr
    (Or.inl ⟨by decide, by decide, by decide⟩)

/-- A loop whose first line begins with a word and ends in `do`. -/
def loopBlock : KeywordBlock where
  header := ⟨"while x do".toList, by decide⟩
  body := .plain ⟨"  y".toList, by decide⟩ .nil
  closer := ⟨"end".toList, by decide⟩

/-- A class with a definition on one line. -/
def shortBlock : KeywordBlock where
  header := ⟨"class A".toList, by decide⟩
  body := .oneLine
    ⟨"  def b; end".toList, "  ".toList, "b".toList, [], rfl, List.all_eq_true.mp (by decide),
      List.forall_mem_nil _⟩ .nil
  closer := ⟨"end".toList, by decide⟩

/-- Both in one text: neither the class nor the loop ends with its own last line. -/
theorem blockEnd_ne_of_shortBlock_and_of_loopBlock :
    blockEnd (shortBlock.lines ++ loopBlock.lines ++ ["z".toList]) 0 .endKeyword ≠
        shortBlock.body.lines.length + 1 ∧
      blockEnd (shortBlock.lines ++ loopBlock.lines ++ ["z".toList]) 3 .endKeyword ≠
        3 + loopBlock.body.lines.length + 1 := by
  decide

end Outline

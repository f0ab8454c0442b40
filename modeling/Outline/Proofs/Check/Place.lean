import Mathlib.Data.List.Perm.Subperm
import Mathlib.Data.Prod.Lex
import Outline.Proofs.Check.Lexeme
import Outline.Proofs.Sort

/-!
# Where issues stand

An issue gives a line and a column, and a reader looks for a bracket there.  The scan counts both
as it goes along, and it counts every piece of the text by its characters, except for character
literals, which are passed over as a whole: a line feed between two quotes moves the column and
leaves the line.  So the place of an issue is that of a bracket of code in the text whose character
literals have been written on one line, and it is the place in the text itself exactly when no
literal before the bracket has a line feed in it (`bracketIssues_standBehind`).

In either case the places grow along the text, since each of them is that behind a longer text
(`placeBehind_lt`), and no bracket is reported twice, since an issue uses up its bracket
(`matchBrackets_subperm`).

* `placeBehind`: line and column of what comes behind a text.
* `Issue.IsOnBracket`: there is a bracket at the place of an issue.
-/

namespace Outline

open Text

/-! ## Places -/

/-- The place of a character with a text before it: one more than the line feeds of the text, and
one more than the characters behind the last of them. -/
def placeBehind (pre : Text) : ℕ ×ₗ ℕ := toLex (newlines pre + 1, (lastPart pre).length + 1)

/-- The place of an issue: its line, and its column in the line. -/
def Issue.place (i : Issue) : ℕ ×ₗ ℕ := toLex (i.line, i.column)

/-- The place of a bracket. -/
def Bracket.place (b : Bracket) : ℕ ×ₗ ℕ := toLex (b.line, b.column)

/-- At the place of an issue the text has a bracket. -/
def Issue.IsOnBracket (i : Issue) (content : Text) : Prop :=
  ∃ n : Fin content.length, IsBracket content[n] ∧ i.place = placeBehind (content.take n)

instance (i : Issue) (content : Text) : Decidable (i.IsOnBracket content) :=
  inferInstanceAs (Decidable (∃ _ : Fin _, _))

theorem Bracket.place_behind (pre : Text) (c : Char) :
    (Bracket.behind pre c).place = placeBehind pre := rfl

/-- Places grow along a text. -/
theorem placeBehind_lt {u : Text} (hu : u ≠ []) (pre : Text) :
    placeBehind pre < placeBehind (pre ++ u) := by
  rw [placeBehind, placeBehind, Prod.Lex.toLex_lt_toLex, newlines_append]
  have hpos : 0 < u.length := List.length_pos_iff.mpr hu
  by_cases h : newlines u = 0
  · right
    rw [lastPart_append h, List.length_append]
    exact ⟨by omega, by simp only; omega⟩
  · left
    simp only
    omega

theorem Issue.le_iff (i j : Issue) : Issue.le i j = true ↔ i.place ≤ j.place := by
  rw [place, place, Prod.Lex.toLex_le_toLex, Issue.le]
  simp

/-! ## The places of the brackets -/

section Brackets

variable {q : QuoteRules} {content : Text}

/-- Every bracket that is found is a piece of code, and stands behind what the pieces before it
count. -/
theorem mem_placedBrackets {b : Bracket} : ∀ {pre : Text} {ls : List Lexeme},
    b ∈ placedBrackets pre ls → ∃ before c after, ls = before ++ .plain c :: after ∧
      IsBracket c ∧ b = Bracket.behind (pre ++ before.flatMap Lexeme.counted) c
  | pre, [], h => absurd h List.not_mem_nil
  | pre, l :: ls, h => by
    rw [placedBrackets, List.mem_append] at h
    rcases h with h | h
    · cases l with
      | plain c =>
        rw [Lexeme.bracket?] at h
        split at h
        · rename_i hc
          refine ⟨[], c, ls, rfl, hc, ?_⟩
          rw [List.flatMap_nil, List.append_nil]
          exact List.mem_singleton.mp h
        · exact absurd h List.not_mem_nil
      | _ => exact absurd h List.not_mem_nil
    · obtain ⟨before, c, after, rfl, hc, hb⟩ := mem_placedBrackets h
      refine ⟨l :: before, c, after, rfl, hc, ?_⟩
      rw [hb, List.flatMap_cons, List.append_assoc]

theorem Lexeme.counted_ne_nil {l : Lexeme} {rest : Text} (h : l.Stands q rest) :
    l.counted ≠ [] := by
  have hne := h.text_ne_nil
  cases l with
  | literal run => exact fun hnil => hne (List.map_eq_nil_iff.mp hnil)
  | _ => exact hne

theorem placeBehind_le_of_mem_placedBrackets {b : Bracket} {pre : Text} {ls : List Lexeme}
    (h : b ∈ placedBrackets pre ls) : placeBehind pre ≤ b.place := by
  obtain ⟨before, c, -, -, -, rfl⟩ := mem_placedBrackets h
  rw [Bracket.place_behind]
  by_cases hnil : before.flatMap Lexeme.counted = []
  · rw [hnil, List.append_nil]
  · exact (placeBehind_lt hnil pre).le

/-- The brackets come in the order of their places. -/
theorem Reads.pairwise_placedBrackets {ls : List Lexeme} (h : Reads q content ls) (pre : Text) :
    (placedBrackets pre ls).Pairwise fun b b' => b.place < b'.place := by
  induction h generalizing pre with
  | nil => exact .nil
  | @cons l rest ls hl _ ih =>
    rw [placedBrackets, List.pairwise_append]
    refine ⟨?_, ih _, fun b hb b' hb' => ?_⟩
    · cases l.bracket? with
      | none => exact .nil
      | some c => exact List.pairwise_singleton _ _
    · have hplace : b.place = placeBehind pre := by
        cases hbracket : l.bracket? with
        | none => rw [hbracket] at hb; exact absurd hb List.not_mem_nil
        | some c =>
          rw [hbracket] at hb
          rw [List.mem_singleton.mp hb, Bracket.place_behind]
      rw [hplace]
      exact (placeBehind_lt (Lexeme.counted_ne_nil hl) pre).trans_le
        (placeBehind_le_of_mem_placedBrackets hb')

end Brackets

/-! ## Issues -/

/-- Every issue is about a bracket that is not open any more or was not yet met, and no two issues
are about the same one. -/
theorem matchBrackets_subperm : ∀ bs opened : List Bracket,
    ((matchBrackets opened bs).map Issue.place).Subperm ((opened ++ bs).map Bracket.place)
  | [], opened => by
    rw [matchBrackets, List.map_map, List.append_nil]
    exact ((List.reverse_perm opened).map Bracket.place).subperm
  | b :: bs, opened => by
    rw [matchBrackets.eq_def]
    simp only
    split
    · refine (matchBrackets_subperm bs (b :: opened)).trans ?_
      exact (List.perm_middle.symm.map Bracket.place).subperm
    · cases opened with
      | nil => exact (List.subperm_cons _).mpr (matchBrackets_subperm bs [])
      | cons o outer =>
        have ih := matchBrackets_subperm bs outer
        have hperm : (o :: outer ++ b :: bs).Perm (o :: b :: (outer ++ bs)) :=
          List.perm_middle.cons o
        simp only
        split
        · refine ih.trans (List.Subperm.trans ?_ (hperm.symm.map Bracket.place).subperm)
          exact (List.sublist_cons_self _ _).subperm.trans (List.sublist_cons_self _ _).subperm
        · refine List.Subperm.trans ?_ (hperm.symm.map Bracket.place).subperm
          exact ((List.subperm_cons b.place).mpr ih).trans (List.sublist_cons_self _ _).subperm

/-! ## What is not counted -/

theorem newlines_map_inRow (run : Text) : newlines (run.map inRow) = 0 := by
  refine newlines_eq_zero fun h => ?_
  obtain ⟨c, -, hc⟩ := List.mem_map.mp h
  exact inRow_ne_newline c hc

/-- At most the line feeds of the text are counted. -/
theorem newlines_counted_le : ∀ ls : List Lexeme,
    newlines (ls.flatMap Lexeme.counted) ≤ newlines (ls.flatMap Lexeme.text)
  | [] => Nat.le_refl 0
  | l :: ls => by
    have hl : newlines l.counted ≤ newlines l.text := by
      cases l with
      | literal run =>
        rw [Lexeme.counted, newlines_map_inRow]
        exact Nat.zero_le _
      | _ => exact Nat.le_refl _
    rw [List.flatMap_cons, List.flatMap_cons, newlines_append, newlines_append]
    exact Nat.add_le_add hl (newlines_counted_le ls)

theorem counted_eq_text {ls : List Lexeme} (h : ∀ run, .literal run ∈ ls → '\n' ∉ run) :
    ls.flatMap Lexeme.counted = ls.flatMap Lexeme.text := by
  refine List.flatMap_congr fun l hl => ?_
  cases l with
  | literal run =>
    refine (List.map_congr_left fun c hc => ?_).trans (List.map_id run)
    exact inRow_eq_self fun hn => h run hl (hn ▸ hc)
  | _ => rfl

/-- The counted place is the true one exactly when no character literal has a line feed in it. -/
theorem placeBehind_counted_eq_iff {ls : List Lexeme} :
    placeBehind (ls.flatMap Lexeme.counted) = placeBehind (ls.flatMap Lexeme.text) ↔
      ∀ run, .literal run ∈ ls → '\n' ∉ run := by
  constructor
  · intro h run hrun hn
    obtain ⟨before, after, rfl⟩ := List.append_of_mem hrun
    have hline := (Prod.mk.inj (toLex.injective h)).1
    have hbefore := newlines_counted_le before
    have hafter := newlines_counted_le after
    have hpos : 0 < newlines run := List.count_pos_iff.mpr hn
    simp only [List.flatMap_append, List.flatMap_cons, newlines_append, Lexeme.counted,
      Lexeme.text, newlines_map_inRow] at hline
    omega
  · intro h
    rw [counted_eq_text h]

/-! ## Issues -/

section Issues

variable {q : QuoteRules} {content : Text} {ls : List Lexeme}

/-- The places of the issues are among those of the brackets. -/
theorem Reads.place_bracketIssues_subperm (h : Reads q content ls) :
    ((bracketIssues q content).map Issue.place).Subperm
      ((placedBrackets [] ls).map Bracket.place) := by
  have hsort : ((bracketIssues q content).map Issue.place).Perm
      ((matchBrackets [] (brackets q content)).map Issue.place) :=
    (List.mergeSort_perm _ _).map Issue.place
  rw [← h.brackets_eq]
  exact hsort.subperm.trans (matchBrackets_subperm (brackets q content) [])

/-- The issues come in the order of their places, and no two have the same one. -/
theorem Reads.pairwise_place_bracketIssues (h : Reads q content ls) :
    (bracketIssues q content).Pairwise fun i j => i.place < j.place := by
  have hbrackets : ((placedBrackets [] ls).map Bracket.place).Nodup := by
    rw [List.nodup_iff_pairwise_ne, List.pairwise_map]
    exact (h.pairwise_placedBrackets []).imp ne_of_lt
  obtain ⟨places, hperm, hsublist⟩ := h.place_bracketIssues_subperm
  have hnodup : ((bracketIssues q content).map Issue.place).Nodup :=
    hperm.nodup_iff.mp (hbrackets.sublist hsublist)
  rw [List.nodup_iff_pairwise_ne, List.pairwise_map] at hnodup
  have hsorted : (bracketIssues q content).Pairwise fun i j => i.place ≤ j.place :=
    pairwise_key_mergeSort Issue.le_iff _
  exact hsorted.imp₂ (fun _ _ hle hne => lt_of_le_of_ne hle hne) hnodup

/-- Every issue stands on a bracket of code, at the place of that bracket in the text whose
character literals are written on one line. -/
theorem Reads.exists_bracket_of_issue (h : Reads q content ls) {i : Issue}
    (hi : i ∈ bracketIssues q content) : ∃ before c after, ls = before ++ .plain c :: after ∧
      IsBracket c ∧ i.place = placeBehind (before.flatMap Lexeme.counted) := by
  have hplace := h.place_bracketIssues_subperm.subset (List.mem_map_of_mem hi)
  obtain ⟨b, hb, hib⟩ := List.mem_map.mp hplace
  obtain ⟨before, c, after, hls, hc, rfl⟩ := mem_placedBrackets hb
  exact ⟨before, c, after, hls, hc, hib.symm⟩

end Issues

/-- Every text can be read into pieces.  However it is read, the issues come in the order of their
places, no two of them stand at the same place, and every one of them is about a bracket of code:
its place is that of the bracket when the character literals before it are written on one line, so
that it is the place of the bracket itself exactly when none of these literals has a line feed in
it. -/
theorem bracketIssues_standBehind (q : QuoteRules) (content : Text) :
    (∃ ls, Reads q content ls) ∧ ∀ ls, Reads q content ls →
      ((bracketIssues q content).Pairwise fun i j => i.place < j.place) ∧
      ∀ i ∈ bracketIssues q content, ∃ before c after, ls = before ++ .plain c :: after ∧
        content = before.flatMap Lexeme.text ++ c :: after.flatMap Lexeme.text ∧ IsBracket c ∧
        i.place = placeBehind (before.flatMap Lexeme.counted) ∧
        (i.place = placeBehind (before.flatMap Lexeme.text) ↔
          ∀ run, .literal run ∈ before → '\n' ∉ run) := by
  refine ⟨exists_reads q content, fun ls hls => ⟨hls.pairwise_place_bracketIssues, fun i hi => ?_⟩⟩
  obtain ⟨before, c, after, rfl, hc, hplace⟩ := hls.exists_bracket_of_issue hi
  refine ⟨before, c, after, rfl, ?_, hc, hplace, ?_⟩
  · rw [← hls.flatMap_text, List.flatMap_append, List.flatMap_cons]
    rfl
  · rw [hplace]
    exact placeBehind_counted_eq_iff

/-- A character literal, and a bracket on the next line. -/
def literalText : Text := ['\'', 'x', '\'', '\n', '(']

def literalPieces : List Lexeme := [.literal ['\'', 'x', '\''], .plain '\n', .plain '(']

theorem bracketIssues_standBehind_of_literal :
    Reads ⟨true, false⟩ literalText literalPieces ∧
      (⟨2, 1, .unclosed '('⟩ : Issue) ∈ bracketIssues ⟨true, false⟩ literalText ∧
      ∃ before c after, literalPieces = before ++ .plain c :: after ∧
        literalText = before.flatMap Lexeme.text ++ c :: after.flatMap Lexeme.text ∧
        IsBracket c ∧ toLex (2, 1) = placeBehind (before.flatMap Lexeme.counted) ∧
        (toLex (2, 1) = placeBehind (before.flatMap Lexeme.text) ↔
          ∀ run, .literal run ∈ before → '\n' ∉ run) := by
  have hbody : IsLiteralBody ['x'] := Or.inr ⟨'x', by decide, rfl⟩
  have hreads : Reads ⟨true, false⟩ literalText literalPieces := by
    refine .cons (.literal rfl hbody) ?_
    refine .cons (.plain (isPlain_of_notMem (by decide) _)) ?_
    exact .cons (.plain (isPlain_of_notMem (by decide) _)) .nil
  have hissue : (⟨2, 1, .unclosed '('⟩ : Issue) ∈ bracketIssues ⟨true, false⟩ literalText := by
    decide +kernel
  exact ⟨hreads, hissue, ((bracketIssues_standBehind _ _).2 _ hreads).2 _ hissue⟩

/-- A line feed between two quotes: the bracket behind it is reported in the line before. -/
theorem not_isOnBracket_of_quotedNewline :
    ¬ ∀ i ∈ bracketIssues ⟨true, false⟩ ['\'', '\n', '\'', '('],
      i.IsOnBracket ['\'', '\n', '\'', '('] := by
  decide +kernel

end Outline

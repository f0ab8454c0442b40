import Mathlib.Data.List.Forall2
import Outline.Proofs.Text.Lines
import Outline.Proofs.Text.Pieces

/-!
# The lines of a trimmed text

Trimming is done on the whole text and does not look at lines: it takes away blank lines at both
ends, and white space of the first and of the last line that stay.  A carriage return is white space
and may be a part of a line end; left over from a line end or not, it is white space at the end of
its line.

White space in front of a text is followed character by character, and so is the text that white
space is put behind.  The lines that stay are kept in a list of their own, so that the places of all
others can be counted.

* `IsPadded`: a line with white space around it.
* `exists_lines_append_front`, `exists_lines_append_back`: white space on one side.
* `exists_lines_trim`: the lines of a text by those that it has after trimming.
-/

namespace Outline.Text

theorem isBlank_iff {t : Text} : t.isBlank = true ↔ ∀ c ∈ t, isSpace c = true :=
  List.all_eq_true

/-- A line with white space before and behind it. -/
def IsPadded (l padded : Text) : Prop :=
  ∃ u v, u.isBlank = true ∧ v.isBlank = true ∧ padded = u ++ (l ++ v)

/-- White space at the ends is lost in trimming. -/
theorem IsPadded.trim_eq {l padded : Text} (h : IsPadded l padded) : padded.trim = l.trim := by
  obtain ⟨u, v, hu, hv, rfl⟩ := h
  have hend : ∀ t : Text, trimEnd (t ++ v) = trimEnd t := by
    intro t
    rw [trimEnd, List.reverse_append, List.dropWhile_append_of_pos, trimEnd]
    exact fun c hc => isBlank_iff.mp hv c (List.mem_reverse.mp hc)
  rw [trim, trim, trimStart_append (isBlank_iff.mp hu), trimStart, trimStart, List.dropWhile_append]
  split
  · rename_i hnil
    rw [List.isEmpty_iff.mp hnil, List.dropWhile_eq_nil_iff.mpr (isBlank_iff.mp hv)]
  · exact hend _

/-- The first line and the others. -/
theorem lines_eq_cons {t : Text} (h : t ≠ []) :
    t.lines = t.lines.headD [] :: t.lines.tail := by
  obtain ⟨c, cs, rfl⟩ := List.exists_cons_of_ne_nil h
  obtain ⟨l, ls, hl⟩ := List.exists_cons_of_length_pos (lineCount_pos c cs)
  rw [hl]
  rfl

/-- A line is made of characters of the text. -/
theorem mem_of_mem_line {l : Text} {d : Char} (hd : d ∈ l) : ∀ {t : Text}, l ∈ t.lines → d ∈ t
  | [], h => by simp [lines] at h
  | c :: cs, h => by
    rcases lines_cons_cases c cs with ⟨-, hl⟩ | ⟨-, -, hl⟩ | ⟨-, hl⟩
    · rcases List.mem_cons.mp (hl ▸ h) with rfl | h
      · exact absurd hd List.not_mem_nil
      · exact List.mem_cons_of_mem c (mem_of_mem_line hd h)
    · exact List.mem_cons_of_mem c (mem_of_mem_line hd (hl ▸ h))
    · rcases List.mem_cons.mp (hl ▸ h) with rfl | h
      · rcases List.mem_cons.mp hd with rfl | hd
        · exact List.mem_cons_self
        · cases hcs : lines cs with
          | nil =>
            rw [hcs] at hd
            exact absurd hd List.not_mem_nil
          | cons first rest =>
            have hfirst : first ∈ lines cs := hcs ▸ List.mem_cons_self
            rw [hcs] at hd
            exact List.mem_cons_of_mem c (mem_of_mem_line hd hfirst)
      · exact List.mem_cons_of_mem c (mem_of_mem_line hd (List.mem_of_mem_tail h))

/-- White space in front of a text adds a blank line for each of its line feeds, and stands before
the first line with the rest of it. -/
theorem exists_lines_append_front {t : Text} (hne : t ≠ []) (ht : t.head?.any isSpace = false) :
    ∀ {pre : Text}, pre.isBlank = true → ∃ blank u,
      (∀ l ∈ blank, isBlank l = true) ∧ blank.length = newlines pre ∧ u.isBlank = true ∧
        lines (pre ++ t) = blank ++ (u ++ t.lines.headD []) :: t.lines.tail
  | [], _ => ⟨[], [], by simp, rfl, rfl, lines_eq_cons hne⟩
  | c :: pre, hpre => by
    obtain ⟨hc, hpre⟩ := List.forall_mem_cons.mp (isBlank_iff.mp hpre)
    obtain ⟨blank, u, hblank, hlength, hu, hlines⟩ :=
      exists_lines_append_front hne ht (isBlank_iff.mpr hpre)
    rw [List.cons_append, newlines_cons]
    rcases lines_cons_cases c (pre ++ t) with ⟨rfl, hl⟩ | ⟨rfl, -, hl⟩ | ⟨hn, hl⟩
    · refine ⟨[] :: blank, u, List.forall_mem_cons.mpr ⟨rfl, hblank⟩, ?_, hu, ?_⟩
      · rw [List.length_cons, hlength, if_pos rfl]
      · rw [hl, hlines, List.cons_append]
    · exact ⟨blank, u, hblank, by rw [hlength, if_neg (by decide), Nat.add_zero], hu,
        by rw [hl, hlines]⟩
    · rw [if_neg hn, Nat.add_zero, hl, hlines]
      cases blank with
      | nil => exact ⟨[], c :: u, by simp, hlength, isBlank_iff.mpr
          (List.forall_mem_cons.mpr ⟨hc, isBlank_iff.mp hu⟩), rfl⟩
      | cons b blank =>
        obtain ⟨hb, hblank⟩ := List.forall_mem_cons.mp hblank
        exact ⟨(c :: b) :: blank, u, List.forall_mem_cons.mpr ⟨isBlank_iff.mpr
          (List.forall_mem_cons.mpr ⟨hc, isBlank_iff.mp hb⟩), hblank⟩, hlength, hu, rfl⟩

/-- White space behind a text stands behind its last line with what it has of a line, and adds blank
lines with the rest. -/
theorem exists_lines_append_back {post : Text} (hpost : post.isBlank = true) : ∀ {t : Text},
    t ≠ [] → t.getLast?.any isSpace = false → ∃ padded blank, lines (t ++ post) = padded ++ blank ∧
      List.Forall₂ (fun l m => ∃ v : Text, v.isBlank = true ∧ m = l ++ v) t.lines padded ∧
        ∀ l ∈ blank, isBlank l = true
  | [], hne, _ => absurd rfl hne
  | [c], _, hc => by
    have hc : isSpace c = false := hc
    have hline : ∀ l ∈ lines post, isBlank l = true := fun l hl =>
      isBlank_iff.mpr fun d hd => isBlank_iff.mp hpost d (mem_of_mem_line hd hl)
    have hn : c ≠ '\n' := by
      rintro rfl
      exact absurd hc (by decide)
    have hr : ∀ {rest after : Text}, c = '\r' → rest ≠ '\n' :: after := by
      rintro rest after rfl
      exact absurd hc (by decide)
    have hfirst : isBlank ((lines post).headD []) = true := by
      cases hcs : lines post with
      | nil => rfl
      | cons l ls => exact hline l (hcs ▸ List.mem_cons_self)
    refine ⟨[c :: (lines post).headD []], (lines post).tail, ?_, ?_, fun l hl =>
      hline l (List.mem_of_mem_tail hl)⟩
    · exact lines_cons hn fun _ => hr
    · rw [lines_cons hn fun _ => hr]
      exact .cons ⟨_, hfirst, rfl⟩ .nil
  | c :: d :: t, _, hlast => by
    rw [List.getLast?_cons_cons] at hlast
    obtain ⟨padded, blank, hlines, hpadded, hblank⟩ :=
      exists_lines_append_back hpost (List.cons_ne_nil d t) hlast
    by_cases hn : c = '\n'
    · rw [hn, List.cons_append, lines_newline, lines_newline, hlines]
      exact ⟨[] :: padded, blank, rfl, .cons ⟨[], rfl, rfl⟩ hpadded, hblank⟩
    by_cases hr : c = '\r' ∧ d = '\n'
    · obtain ⟨rfl, rfl⟩ := hr
      refine ⟨padded, blank, ?_, ?_, hblank⟩
      · rw [← hlines]
        exact lines_return_newline (t ++ post)
      · rwa [lines_return_newline]
    · have hfirst : ∀ {rest after : Text}, c = '\r' → d :: rest ≠ '\n' :: after :=
        fun h h' => hr ⟨h, (List.cons.inj h').1⟩
      have happend : lines (c :: d :: t ++ post) =
          (c :: (padded ++ blank).headD []) :: (padded ++ blank).tail := by
        rw [← hlines]
        exact lines_cons hn fun _ => hfirst
      rw [lines_eq_cons (List.cons_ne_nil d t)] at hpadded
      cases hpadded with
      | @cons l m ls ms hm hms =>
        obtain ⟨v, hv, rfl⟩ := hm
        refine ⟨(c :: (lines (d :: t)).headD [] ++ v) :: ms, blank, happend, ?_, hblank⟩
        rw [lines_cons hn fun _ => hfirst]
        exact .cons ⟨v, hv, rfl⟩ hms

/-- A text that is not blank has blank lines, the lines that it has after trimming, each of them
with white space around it, and blank lines again.  There are as many in front as there are line
feeds in the white space in front. -/
theorem exists_lines_trim {t : Text} (h : t.isBlank = false) : ∃ front padded back,
    t.lines = front ++ padded ++ back ∧ front.length = newlines (t.takeWhile isSpace) ∧
      List.Forall₂ IsPadded t.trim.lines padded ∧
        (∀ l ∈ front, isBlank l = true) ∧ ∀ l ∈ back, isBlank l = true := by
  obtain ⟨post, ht, hpost⟩ := exists_trim t
  have hpre : isBlank (t.takeWhile isSpace) = true :=
    isBlank_iff.mpr fun c hc => List.mem_takeWhile_imp hc
  have hne : t.trim ≠ [] := by
    intro hnil
    rw [ht, hnil, List.nil_append, isBlank, List.all_append, ← isBlank, ← isBlank, hpre,
      isBlank_iff.mpr hpost] at h
    exact absurd h (by decide)
  have hhead : (t.trim ++ post).head?.any isSpace = false := by
    rw [any_head?_append hne]
    exact head?_trim t
  obtain ⟨front, u, hfront, hlength, hu, hlines⟩ := exists_lines_append_front
    (List.append_ne_nil_of_left_ne_nil hne post) hhead hpre
  obtain ⟨padded, back, hmiddle, hpadded, hback⟩ :=
    exists_lines_append_back (isBlank_iff.mpr hpost) hne (getLast?_trimEnd (trimStart t))
  rw [← ht, hmiddle] at hlines
  rw [lines_eq_cons hne] at hpadded ⊢
  cases hpadded with
  | @cons l m ls ms hm hms =>
    obtain ⟨v, hv, rfl⟩ := hm
    refine ⟨front, (u ++ (t.trim.lines.headD [] ++ v)) :: ms, back, ?_, hlength, ?_, hfront, hback⟩
    · rw [hlines, List.append_assoc]
      rfl
    · refine .cons ⟨u, v, hu, hv, rfl⟩ (hms.imp fun l m hm => ?_)
      obtain ⟨v, hv, rfl⟩ := hm
      exact ⟨[], v, rfl, hv, rfl⟩

end Outline.Text

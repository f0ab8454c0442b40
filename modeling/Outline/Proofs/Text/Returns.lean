import Outline.Proofs.Text.Lines
import Outline.Proofs.Text.Pieces

/-!
# Line ends of two characters

A line may end in a line feed, or in a carriage return and a line feed.  `Text.withReturns` turns
line ends of the first form into the second one.  This moves characters further back, but puts none
of them into another line: the line feeds stay in their order among the others
(`newlines_withReturns`), and the lines are the same (`lines_withReturns`).

How far a place moves is told by `Text.mirrored`, and what stands before and behind it is moved as a
whole (`take_mirrored`, `drop_mirrored`).  Line ends are white space in both forms and separate
nothing but lines, so trimming and splitting may be done before or after (`trim_withReturns`,
`splitOn_withReturns`).
-/

namespace Outline.Text

/-- A text with a carriage return before each line feed. -/
def withReturns (t : Text) : Text := t.flatMap fun c => if c = '\n' then ['\r', '\n'] else [c]

@[simp] theorem withReturns_nil : withReturns [] = [] := rfl

@[simp] theorem withReturns_newline (cs : Text) :
    withReturns ('\n' :: cs) = '\r' :: '\n' :: withReturns cs := rfl

theorem withReturns_cons {c : Char} (hc : c ≠ '\n') (cs : Text) :
    withReturns (c :: cs) = c :: withReturns cs := by
  rw [withReturns, List.flatMap_cons, if_neg hc]
  rfl

theorem withReturns_append (t u : Text) :
    withReturns (t ++ u) = withReturns t ++ withReturns u :=
  List.flatMap_append

/-- A text without line feeds stays as it is. -/
theorem withReturns_eq_self : ∀ {t : Text}, '\n' ∉ t → withReturns t = t
  | [], _ => rfl
  | c :: cs, h => by
    rw [List.mem_cons, not_or] at h
    rw [withReturns_cons (Ne.symm h.1), withReturns_eq_self h.2]

theorem length_le_withReturns : ∀ t : Text, t.length ≤ (withReturns t).length
  | [] => Nat.le_refl 0
  | c :: cs => by
    have ih := length_le_withReturns cs
    by_cases hc : c = '\n'
    · subst hc
      rw [withReturns_newline, List.length_cons, List.length_cons, List.length_cons]
      omega
    · rw [withReturns_cons hc, List.length_cons, List.length_cons]
      omega

theorem newlines_withReturns : ∀ t : Text, newlines (withReturns t) = newlines t
  | [] => rfl
  | c :: cs => by
    by_cases hc : c = '\n'
    · subst hc
      rw [withReturns_newline, newlines_cons, newlines_cons, newlines_cons,
        newlines_withReturns cs]
      simp
    · rw [withReturns_cons hc, newlines_cons, newlines_cons, newlines_withReturns cs]

/-- The carriage returns that are put in belong to line ends, if there were none before. -/
theorem lines_withReturns : ∀ {t : Text}, '\r' ∉ t → lines (withReturns t) = lines t
  | [], _ => rfl
  | c :: cs, h => by
    rw [List.mem_cons, not_or] at h
    by_cases hc : c = '\n'
    · subst hc
      rw [withReturns_newline, lines_return_newline, lines_newline, lines_newline,
        lines_withReturns h.2]
    · rw [withReturns_cons hc, lines_cons hc fun _ hr => absurd hr.symm h.1,
        lines_cons hc fun _ hr => absurd hr.symm h.1, lines_withReturns h.2]

/-- A text and its form with carriage returns end in the same character. -/
theorem getLast?_withReturns : ∀ t : Text, (withReturns t).getLast? = t.getLast?
  | [] => rfl
  | c :: cs => by
    have ih := getLast?_withReturns cs
    by_cases hc : c = '\n'
    · subst hc
      rw [withReturns_newline, List.getLast?_cons, List.getLast?_cons, List.getLast?_cons, ih]
      rfl
    · rw [withReturns_cons hc, List.getLast?_cons, List.getLast?_cons, ih]

theorem isEmpty_withReturns (t : Text) : (withReturns t).isEmpty = t.isEmpty := by
  cases t with
  | nil => rfl
  | cons c cs =>
    by_cases hc : c = '\n'
    · rw [hc, withReturns_newline]
      rfl
    · rw [withReturns_cons hc]
      rfl

/-! ## Places -/

/-- Where a place of a text lies in the text with carriage returns. -/
def mirrored (t : Text) (index : Nat) : Nat := (withReturns (t.take index)).length

theorem mirrored_append (pre rest : Text) :
    mirrored (pre ++ rest) pre.length = (withReturns pre).length := by
  rw [mirrored, List.take_left]

theorem mirrored_add (t : Text) (i n : Nat) :
    mirrored t (i + n) = mirrored t i + mirrored (t.drop i) n := by
  rw [mirrored, List.take_add, withReturns_append, List.length_append]
  rfl

theorem mirrored_take {i n : Nat} (h : i ≤ n) (t : Text) :
    mirrored (t.take n) i = mirrored t i := by
  rw [mirrored, List.take_take, Nat.min_eq_left h, mirrored]

theorem withReturns_eq_append (t : Text) (i : Nat) :
    withReturns t = withReturns (t.take i) ++ withReturns (t.drop i) := by
  rw [← withReturns_append, List.take_append_drop]

theorem take_mirrored (t : Text) (i : Nat) :
    (withReturns t).take (mirrored t i) = withReturns (t.take i) := by
  rw [withReturns_eq_append t i, mirrored, List.take_left]

theorem drop_mirrored (t : Text) (i : Nat) :
    (withReturns t).drop (mirrored t i) = withReturns (t.drop i) := by
  rw [withReturns_eq_append t i, mirrored, List.drop_left]

/-- A place stays on its line. -/
theorem lineAt_mirrored (t : Text) (i : Nat) :
    (withReturns t).lineAt (mirrored t i) = t.lineAt i := by
  rw [lineAt, lineAt, take_mirrored, newlines_withReturns]

/-! ## Trimming and splitting -/

/-- Characters that are replaced by white space where they are white space, and by other characters
where they are not. -/
theorem dropWhile_isSpace_flatMap {f : Char → Text}
    (hf : ∀ c, f c ≠ [] ∧ ∀ d ∈ f c, isSpace d = isSpace c) : ∀ t : Text,
      (t.flatMap f).dropWhile isSpace = (t.dropWhile isSpace).flatMap f
  | [] => rfl
  | c :: cs => by
    obtain ⟨hne, hspace⟩ := hf c
    rw [List.flatMap_cons]
    by_cases hc : isSpace c = true
    · rw [List.dropWhile_append_of_pos fun d hd => (hspace d hd).trans hc,
        List.dropWhile_cons_of_pos hc, dropWhile_isSpace_flatMap hf cs]
    · obtain ⟨d, ds, hd⟩ := List.exists_cons_of_ne_nil hne
      have hfirst : ¬ isSpace d = true := by rwa [hspace d (hd ▸ List.mem_cons_self)]
      rw [List.dropWhile_cons_of_neg hc, List.flatMap_cons, hd, List.cons_append,
        List.dropWhile_cons_of_neg hfirst]

theorem isSpace_of_mem_lineEnd {c d : Char} (h : d ∈ if c = '\n' then ['\r', '\n'] else [c]) :
    isSpace d = isSpace c := by
  split at h
  · rename_i hc
    subst hc
    rcases List.mem_cons.mp h with rfl | h
    · decide
    · rw [List.mem_singleton.mp h]
  · rw [List.mem_singleton.mp h]

theorem trimStart_withReturns (t : Text) : trimStart (withReturns t) = withReturns (trimStart t) :=
  dropWhile_isSpace_flatMap
    (fun c => ⟨by split <;> exact List.cons_ne_nil _ _, fun _ => isSpace_of_mem_lineEnd⟩) t

theorem trimEnd_withReturns (t : Text) : trimEnd (withReturns t) = withReturns (trimEnd t) := by
  rw [trimEnd, withReturns, List.reverse_flatMap, dropWhile_isSpace_flatMap, List.reverse_flatMap]
  · simp only [Function.comp_def, List.reverse_reverse]
    rfl
  · intro c
    refine ⟨?_, fun d hd => isSpace_of_mem_lineEnd (List.mem_reverse.mp hd)⟩
    rw [Function.comp_apply, Ne, List.reverse_eq_nil_iff]
    split <;> exact List.cons_ne_nil _ _

/-- A line end is white space in both forms. -/
theorem trim_withReturns (t : Text) : trim (withReturns t) = withReturns (trim t) := by
  rw [trim, trimStart_withReturns, trimEnd_withReturns, trim]

/-- Pieces between characters that end no line. -/
theorem splitOn_withReturns {c : Char} (hn : c ≠ '\n') (hr : c ≠ '\r') : ∀ t : Text,
    splitOn c (withReturns t) = (splitOn c t).map withReturns
  | [] => rfl
  | d :: ds => by
    have ih := splitOn_withReturns hn hr ds
    have hhead : ((splitOn c ds).map withReturns).headD [] =
        withReturns ((splitOn c ds).headD []) := by cases splitOn c ds <;> rfl
    by_cases hd : d = '\n'
    · subst hd
      rw [withReturns_newline, splitOn_cons_of_ne (Ne.symm hr), splitOn_cons_of_ne (Ne.symm hn),
        splitOn_cons_of_ne (Ne.symm hn), ih, hhead, List.map_cons, List.map_tail]
      rfl
    · rw [withReturns_cons hd]
      by_cases hdc : d = c
      · rw [hdc, splitOn_cons_self, splitOn_cons_self, ih]
        rfl
      · rw [splitOn_cons_of_ne hdc, splitOn_cons_of_ne hdc, ih, hhead, List.map_cons,
          List.map_tail, withReturns_cons hd]

end Outline.Text

import Outline.Markdown.Document

/-!
# What a reader leaves

Every reader of Markdown takes characters from the front of a text and answers what it leaves, so
what is left is always an end of the text.  Each reader has its lemma here, named after it, and
the lemma of a reader is put together from those of the readers it calls; the loops go by their
rounds.  The last one is `Reading.step_suffix`: what is left after a block is an end of the
text before it.

A margin may pass over blanks only.  So blanks apart, a line is the same before and after
(`dropBlanks_skip`).
-/

namespace Outline.Markdown

/-! ## Line ends -/

theorem afterLineEnd?_suffix {t rest : Text} (h : afterLineEnd? t = some rest) : rest <:+ t := by
  unfold afterLineEnd? at h
  split at h
  · exact Option.some.inj h ▸ List.suffix_refl []
  · rw [← Option.some.inj h]; exact List.suffix_cons _ _
  · rw [← Option.some.inj h]; exact (List.suffix_cons _ _).trans (List.suffix_cons _ _)
  · rw [← Option.some.inj h]; exact List.suffix_cons _ _
  · exact absurd h (by simp)

theorem afterBlankLine?_suffix {t rest : Text} (h : afterBlankLine? t = some rest) :
    rest <:+ t :=
  (afterLineEnd?_suffix h).trans (List.dropWhile_suffix _)

theorem cutLine_suffix (t : Text) : (cutLine t).2 <:+ t := by
  have hdrop := List.dropWhile_suffix (l := t) fun c => !isLineEndChar c
  rw [cutLine]
  cases h : afterLineEnd? (t.dropWhile fun c => !isLineEndChar c) with
  | none => simp only [Option.getD_none]; exact hdrop
  | some rest => simp only [Option.getD_some]; exact (afterLineEnd?_suffix h).trans hdrop

theorem afterLineFeed_suffix (t : Text) : afterLineFeed t <:+ t :=
  (List.drop_suffix _ _).trans (List.dropWhile_suffix _)

/-! ## Margins -/

namespace Margin

theorem skipFrom_suffix : ∀ (n column pending : Nat) (t : Text),
    (skipFrom n column pending t).1.rest <:+ t
  | n, column, pending, t => by
    fun_induction skipFrom n column pending t with
    | case1 => exact List.suffix_refl _
    | case2 n column pending t ih => exact ih.trans (List.suffix_cons _ _)
    | case3 n column pending t width ih => exact ih.trans (List.suffix_cons _ _)
    | case4 => exact List.suffix_refl _

theorem skip_suffix (m : Margin) (n : Nat) : (m.skip n).1.rest <:+ m.rest :=
  skipFrom_suffix _ _ _ _

/-- Only blanks are passed over. -/
theorem dropBlanks_skip (m : Margin) (n : Nat) :
    skipBlanks (m.skip n).1.rest = skipBlanks m.rest := by
  rw [skip]
  fun_induction skipFrom (n - min m.pending n) m.column (m.pending - min m.pending n) m.rest with
  | case1 => rfl
  | case2 n column pending t ih => rw [ih]; rfl
  | case3 n column pending t width ih => rw [ih]; rfl
  | case4 => rfl

theorem advance_suffix (m : Margin) (n : Nat) : (m.advance n).rest <:+ m.rest :=
  List.drop_suffix _ _

theorem quoteMark?_suffix {m after : Margin} (h : m.quoteMark? = some after) :
    after.rest <:+ m.rest := by
  rw [quoteMark?] at h
  split at h
  · rw [← Option.some.inj h]
    exact (skip_suffix _ _).trans (advance_suffix _ _)
  · exact absurd h (by simp)

end Margin

theorem ItemMark.enter_suffix (mark : ItemMark) (outer : Nat) (m : Margin) :
    (mark.enter outer m).1.rest <:+ m.rest := by
  have hmark : ((m.advance mark.width).skip 1).1.rest <:+ m.rest :=
    (Margin.skip_suffix _ _).trans (Margin.advance_suffix _ _)
  rw [enter]
  simp only
  split
  · exact hmark
  · split
    · exact hmark
    · exact (Margin.skip_suffix _ _).trans hmark

theorem afterTaskBox?_suffix {m after : Margin} (h : afterTaskBox? m = some after) :
    after.rest <:+ m.rest := by
  rw [afterTaskBox?] at h
  split at h
  · split at h
    · rw [← Option.some.inj h]
      exact (Margin.advance_suffix _ _).trans (Margin.skip_suffix _ _)
    · exact absurd h (by simp)
  · exact absurd h (by simp)

/-! ## Open containers -/

theorem Frame.continue?_suffix {f : Frame} {m after : Margin} (h : f.continue? m = some after) :
    after.rest <:+ m.rest := by
  rw [continue?] at h
  split at h
  · exact (Margin.quoteMark?_suffix h).trans (Margin.skip_suffix _ _)
  · exact Option.some.inj h ▸ List.suffix_refl _
  · rw [Option.ite_none_right_eq_some] at h
    rw [← Option.some.inj h.2]
    exact List.dropWhile_suffix _
  · simp only at h
    rw [Option.ite_none_right_eq_some] at h
    rw [← Option.some.inj h.2]
    exact Margin.skip_suffix _ _

theorem matchFrames_suffix : ∀ (fs : List Frame) (m : Margin),
    (matchFrames m fs).2.rest <:+ m.rest
  | [], m => List.suffix_refl _
  | f :: fs, m => by
    rw [matchFrames]
    cases h : f.continue? m with
    | none => exact List.suffix_refl _
    | some after => exact (matchFrames_suffix fs after).trans (Frame.continue?_suffix h)

namespace Reading

theorem matchLine_suffix (r : Reading) (t : Text) : (r.matchLine t).2.rest <:+ t :=
  matchFrames_suffix _ (.start t)

theorem inAll?_suffix {r : Reading} {t : Text} {m : Margin} (h : r.inAll? t = some m) :
    m.rest <:+ t := by
  rw [inAll?] at h
  simp only [Option.ite_none_right_eq_some] at h
  rw [← Option.some.inj h.2]
  exact matchLine_suffix r t

/-- The text at the place where the containers of a line have been opened. -/
def placeRest : Margin ⊕ Text → Text
  | .inl m => m.rest
  | .inr rest => rest

/-- Behind the mark of an item there may be the box of a task. -/
theorem itemRest_suffix (m : Margin) :
    (if isBlankLine m.rest then m else (afterTaskBox? m).getD m).rest <:+ m.rest := by
  split
  · exact List.suffix_refl _
  · cases h : afterTaskBox? m with
    | none => exact List.suffix_refl _
    | some after => exact afterTaskBox?_suffix h

theorem openContainers_suffix : ∀ (fuel : Nat) (r : Reading) (m : Margin),
    placeRest (openContainers fuel r m).2 <:+ m.rest
  | 0, r, m => List.suffix_refl _
  | fuel + 1, r, m => by
    have hskip := m.skip_suffix 4
    rw [openContainers]
    by_cases hmissing : (m.skip 4).2 = 0
    · simp only [if_pos hmissing]
      exact List.suffix_refl _
    · simp only [if_neg hmissing]
      cases (if isRule (m.skip 4).1.rest then none else ItemMark.read? (m.skip 4).1.rest) with
      | some mark =>
        have hitem := (itemRest_suffix _).trans
          ((mark.enter_suffix (4 - (m.skip 4).2) (m.skip 4).1).trans hskip)
        simp only
        split
        · rename_i rest hblank
          exact (afterBlankLine?_suffix hblank).trans hitem
        · exact (openContainers_suffix fuel _ _).trans hitem
      | none =>
        cases hquote : (m.skip 4).1.quoteMark? with
        | some after =>
          exact (openContainers_suffix fuel _ after).trans
            ((Margin.quoteMark?_suffix hquote).trans hskip)
        | none => exact List.suffix_refl _

/-! ## Leaves -/

theorem underline?_suffix {t rest : Text} {level : Nat} (h : underline? t = some (level, rest)) :
    rest <:+ t := by
  have key : ∀ (n k : Nat), (afterBlankLine? (t.drop n)).map (fun rest => (k, rest)) =
      some (level, rest) → rest <:+ t := by
    intro n k hk
    obtain ⟨rest', hrest, heq⟩ := Option.map_eq_some_iff.mp hk
    rw [← (Prod.mk.inj heq).2]
    exact (afterBlankLine?_suffix hrest).trans (List.drop_suffix _ _)
  unfold underline? at h
  split at h
  · exact key _ _ h
  · exact key _ _ h
  · exact absurd h (by simp)

/-- The lines of a paragraph stand one after the other: what follows each of them, and what
follows an underline, is an end of the text. -/
structure ParagraphLines.IsIn (p : ParagraphLines) (t : Text) : Prop where
  below : ∀ l ∈ p.lines, l.2 <:+ t
  underline : ∀ level rest, p.underline = some (level, rest) → rest <:+ t

theorem ParagraphLines.IsIn.trans {p : ParagraphLines} {t u : Text} (h : p.IsIn t)
    (hu : t <:+ u) : p.IsIn u :=
  ⟨fun l hl => (h.below l hl).trans hu, fun level rest hr => (h.underline level rest hr).trans hu⟩

theorem ParagraphLines.IsIn.cons {p : ParagraphLines} {t : Text} (h : p.IsIn (cutLine t).2) :
    ParagraphLines.IsIn { p with lines := ((cutLine t).1, (cutLine t).2) :: p.lines } t := by
  refine ⟨fun l hl => ?_, (h.trans (cutLine_suffix t)).underline⟩
  rcases List.mem_cons.mp hl with rfl | hl
  · exact cutLine_suffix t
  · exact (h.trans (cutLine_suffix t)).below l hl

theorem moreLines_isIn (r : Reading) : ∀ (fuel : Nat) (t : Text), (r.moreLines fuel t).IsIn t
  | 0, t => ⟨fun l hl => absurd hl (by simp [moreLines]),
      fun _ _ h => absurd h (by simp [moreLines])⟩
  | fuel + 1, t => by
    have hinner : ((r.matchLine t).2.skip 4).1.rest <:+ t :=
      (Margin.skip_suffix _ _).trans (matchLine_suffix r t)
    have hlevel : ∀ level rest, (if ((r.matchLine t).2.skip 4).2 ≠ 0 ∧ (r.matchLine t).1 = 0 then
        underline? ((r.matchLine t).2.skip 4).1.rest else none) = some (level, rest) →
        rest <:+ t := by
      intro level rest h
      rw [Option.ite_none_right_eq_some] at h
      exact (underline?_suffix h.2).trans hinner
    have hnext : skipSpaces ((r.matchLine t).2.skip 4).1.rest <:+ t :=
      (List.dropWhile_suffix _).trans hinner
    rw [moreLines]
    simp only
    generalize (if ((r.matchLine t).2.skip 4).2 ≠ 0 ∧ (r.matchLine t).1 = 0 then
      underline? ((r.matchLine t).2.skip 4).1.rest else none) = level at hlevel ⊢
    split
    · exact ⟨fun l hl => absurd hl (by simp), hlevel⟩
    · split
      · exact ⟨fun l hl => absurd hl (by simp), fun _ _ h => absurd h (by simp)⟩
      · exact (ParagraphLines.IsIn.cons (moreLines_isIn r fuel _)).trans hnext

theorem paragraphLines_isIn (r : Reading) (t : Text) : (r.paragraphLines t).IsIn t :=
  ParagraphLines.IsIn.cons (moreLines_isIn r _ _)

theorem tableRows_suffix (r : Reading) (columns : Nat) : ∀ (fuel : Nat) (t : Text),
    (r.tableRows columns fuel t).2 <:+ t
  | 0, t => List.suffix_refl _
  | fuel + 1, t => by
    rw [tableRows]
    cases hin : r.inAll? t with
    | none => exact List.suffix_refl _
    | some m =>
      simp only
      split
      · exact List.suffix_refl _
      · exact (tableRows_suffix r columns fuel _).trans ((cutLine_suffix _).trans
          ((List.dropWhile_suffix _).trans (inAll?_suffix hin)))

/-- What follows the last line taken from a paragraph, or its first line. -/
theorem getLast?_below_suffix {ls : List (Text × Text)} {t : Text} (h : ∀ l ∈ ls, l.2 <:+ t) :
    (ls.getLast?.map (·.2)).getD (cutLine t).2 <:+ t := by
  cases hl : ls.getLast? with
  | none => exact cutLine_suffix t
  | some l => exact h l (List.mem_of_getLast? hl)

theorem paragraphLike_suffix (r : Reading) (line : Nat) (t : Text) :
    (r.paragraphLike line t).2 <:+ t := by
  have hlines := paragraphLines_isIn r t
  rw [paragraphLike]
  simp only
  split
  · exact getLast?_below_suffix fun l hl => hlines.below l (List.mem_of_mem_take hl)
  · split
    · exact (tableRows_suffix r _ _ _).trans ((cutLine_suffix _).trans (cutLine_suffix t))
    · split
      · rename_i level rest hu
        exact hlines.underline level rest hu
      · exact getLast?_below_suffix hlines.below

theorem afterFence?_suffix {mark : Char} {least : Nat} {t rest : Text}
    (h : afterFence? mark least t = some rest) : rest <:+ t := by
  rw [afterFence?] at h
  split at h
  · exact absurd h (by simp)
  · exact (afterLineEnd?_suffix h).trans
      ((List.dropWhile_suffix _).trans (List.drop_suffix _ _))

theorem afterFenced_suffix (r : Reading) (mark : Char) (least indent : Nat) :
    ∀ (fuel : Nat) (t : Text), r.afterFenced mark least indent fuel t <:+ t
  | 0, t => List.suffix_refl _
  | fuel + 1, t => by
    rw [afterFenced]
    split
    · exact List.nil_suffix
    · cases hin : r.inAll? t with
      | none => exact List.suffix_refl _
      | some m =>
        have hm : (m.skip indent).1.rest <:+ t :=
          (Margin.skip_suffix _ _).trans (inAll?_suffix hin)
        simp only
        split
        · rename_i rest hfence
          split at hfence
          · exact absurd hfence (by simp)
          · exact (afterFence?_suffix hfence).trans ((Margin.skip_suffix _ _).trans hm)
        · exact (afterFenced_suffix r mark least indent fuel _).trans
            ((afterLineFeed_suffix _).trans hm)

theorem afterIndented_suffix (r : Reading) : ∀ (fuel : Nat) (blank : Bool) (t : Text),
    (r.afterIndented blank fuel t).1 <:+ t
  | 0, blank, t => List.suffix_refl _
  | fuel + 1, blank, t => by
    rw [afterIndented]
    cases hin : r.inAll? t with
    | none => exact List.suffix_refl _
    | some m =>
      simp only
      split
      · exact List.suffix_refl _
      · exact (afterIndented_suffix r fuel _ _).trans ((afterLineFeed_suffix _).trans
          ((Margin.skip_suffix _ _).trans (inAll?_suffix hin)))

theorem afterHtml_suffix (r : Reading) (block : HtmlBlock) : ∀ (fuel : Nat) (t : Text),
    r.afterHtml block fuel t <:+ t
  | 0, t => List.suffix_refl _
  | fuel + 1, t => by
    unfold afterHtml
    simp only
    split
    · exact afterLineFeed_suffix t
    · rename_i m hin
      have hm := (inAll?_suffix hin).trans (afterLineFeed_suffix t)
      split
      · -- the line either closes the block or leaves it open
        split
        · exact afterLineFeed_suffix t
        · exact (afterHtml_suffix r _ fuel _).trans hm
      · split
        · exact afterLineFeed_suffix t
        · exact (afterHtml_suffix r _ fuel _).trans hm

theorem leaf_suffix (r : Reading) (line indent : Nat) (t : Text) :
    (r.leaf line indent t).2 <:+ t := by
  unfold leaf
  simp only
  split
  · exact afterHtml_suffix r _ _ t
  · split
    · exact cutLine_suffix t
    · split
      · exact (cutLine_suffix _).trans (List.drop_suffix _ _)
      · split
        · exact (afterFenced_suffix r _ _ _ _ _).trans (afterLineFeed_suffix t)
        · exact paragraphLike_suffix r line t

/-- What is left after a block is an end of the text before it. -/
theorem step_suffix (total : Nat) (r : Reading) (t : Text) : (r.step total t).2 <:+ t := by
  have hopen := (openContainers_suffix (t.length + 1) (r.popMany (r.matchLine t).1)
    (r.matchLine t).2).trans (matchLine_suffix r t)
  rw [step]
  simp only
  split
  · rename_i rest hplace
    rw [hplace] at hopen
    exact hopen
  · rename_i m hplace
    rw [hplace] at hopen
    have hinner := (m.skip_suffix 4).trans hopen
    split
    · rename_i rest hblank
      exact (afterBlankLine?_suffix hblank).trans hopen
    · split
      · exact (afterIndented_suffix _ _ _ _).trans ((afterLineFeed_suffix _).trans hinner)
      · exact (leaf_suffix _ _ _ _).trans hinner

end Reading

end Outline.Markdown

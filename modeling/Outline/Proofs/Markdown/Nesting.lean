import Mathlib.Data.List.Forall2
import Outline.Markdown.Section

/-!
# Sections mirror the outline

Every section is found on its own: a search from its heading on for one of the same or a higher rank
tells how far it may go, and then blank lines are taken off its end.  So it has to be shown that two
sections never overlap in part.

Before blank lines are taken off this is a matter of the search.  Headings of deeper levels do not
stop it (`governedEnd_append`), and what stops it also stops the search from a heading of a deeper
level (`governedEnd_le_governedEnd`).  Taking off blank lines could only do harm if it took off the
line on which the inner section ends; but that is no blank line, and the lines are taken off one by
one from the end (`le_lastFilledLine`).

The headings may be any that stand on different lines, in order, none of which is blank.

* `ArePlaced`: such headings.
* `MirrorsOutline`: what the sections of headings are.
* `mirrorsOutline_sections`: sections mirror the outline.
-/

namespace Outline.Markdown

/-- Line `n`, counted from one, is there and is not blank. -/
def NotBlankAt (lines : List Text) (n : Nat) : Prop :=
  1 ≤ n ∧ ∃ line, lines[n - 1]? = some line ∧ line.isBlank = false

instance (lines : List Text) (n : Nat) : Decidable (NotBlankAt lines n) :=
  decidable_of_iff (1 ≤ n ∧ (lines[n - 1]?).any (fun line => !line.isBlank) = true) <| by
    rw [NotBlankAt]
    cases lines[n - 1]? <;> simp

theorem NotBlankAt.le_length {lines : List Text} {n : Nat} (h : NotBlankAt lines n) :
    n ≤ lines.length := by
  obtain ⟨hn, line, hline, -⟩ := h
  have hlt := (List.getElem?_eq_some_iff.mp hline).1
  omega

/-- Headings that stand on different lines, in order, none of which is blank. -/
structure ArePlaced (lines : List Text) (hs : List Heading) : Prop where
  increasing : hs.Pairwise fun h next => h.line < next.line
  notBlank : ∀ h ∈ hs, NotBlankAt lines h.line

/-! ## How far a heading governs -/

section GovernedEnd

variable {n : Nat} {h h' : Heading}

theorem governedEnd_cons_of_le {next : Heading} (hlevel : next.level ≤ h.level)
    (later : List Heading) : governedEnd n h (next :: later) = next.line - 1 := by
  have hfirst : (next :: later).find? (fun x => x.level ≤ h.level) = some next :=
    List.find?_cons_of_pos (p := fun x : Heading => x.level ≤ h.level) (decide_eq_true hlevel)
  rw [governedEnd, hfirst]

theorem governedEnd_cons_of_lt {next : Heading} (hlevel : h.level < next.level)
    (later : List Heading) : governedEnd n h (next :: later) = governedEnd n h later := by
  have hlater : (next :: later).find? (fun x => x.level ≤ h.level) =
      later.find? fun x => x.level ≤ h.level :=
    List.find?_cons_of_neg (p := fun x : Heading => x.level ≤ h.level) (by simpa using hlevel)
  rw [governedEnd, hlater, governedEnd]

/-- Headings of deeper levels are governed. -/
theorem governedEnd_append : ∀ {mid : List Heading}, (∀ x ∈ mid, h.level < x.level) →
    ∀ later, governedEnd n h (mid ++ later) = governedEnd n h later
  | [], _, later => rfl
  | x :: mid, hmid, later => by
    obtain ⟨hx, hmid⟩ := List.forall_mem_cons.mp hmid
    rw [List.cons_append, governedEnd_cons_of_lt hx, governedEnd_append hmid]

/-- A heading governs all that comes before the later ones. -/
theorem le_governedEnd {k : Nat} (hn : k ≤ n) : ∀ {later : List Heading},
    (∀ x ∈ later, k < x.line) → k ≤ governedEnd n h later
  | [], _ => hn
  | x :: later, hlater => by
    obtain ⟨hx, hlater⟩ := List.forall_mem_cons.mp hlater
    rcases Nat.lt_or_ge h.level x.level with hlevel | hlevel
    · rw [governedEnd_cons_of_lt hlevel]
      exact le_governedEnd hn hlater
    · rw [governedEnd_cons_of_le hlevel]
      omega

/-- A heading governs nothing from the next one of the same or a higher rank on. -/
theorem governedEnd_le_of_mem {x : Heading} (hlevel : x.level ≤ h.level) :
    ∀ {later : List Heading}, (later.Pairwise fun y next => y.line < next.line) → x ∈ later →
      governedEnd n h later ≤ x.line - 1
  | [], _, hx => absurd hx List.not_mem_nil
  | y :: later, hlater, hx => by
    obtain ⟨hy, hlater⟩ := List.pairwise_cons.mp hlater
    rcases Nat.lt_or_ge h.level y.level with hdeeper | hle
    · rw [governedEnd_cons_of_lt hdeeper]
      refine governedEnd_le_of_mem hlevel hlater ((List.mem_cons.mp hx).resolve_left ?_)
      rintro rfl
      omega
    · rw [governedEnd_cons_of_le hle]
      rcases List.mem_cons.mp hx with rfl | hx
      · exact Nat.le_refl _
      · exact Nat.sub_le_sub_right (Nat.le_of_lt (hy x hx)) 1

/-- Of two headings before the same ones, that of the deeper level governs no more. -/
theorem governedEnd_le_governedEnd (hlevel : h.level ≤ h'.level) : ∀ {later : List Heading},
    (later.Pairwise fun y next => y.line < next.line) → (∀ x ∈ later, x.line ≤ n) →
      governedEnd n h' later ≤ governedEnd n h later
  | [], _, _ => Nat.le_refl _
  | x :: later, hlater, hn => by
    obtain ⟨hx, hlater⟩ := List.pairwise_cons.mp hlater
    obtain ⟨hxn, hn⟩ := List.forall_mem_cons.mp hn
    rcases Nat.lt_or_ge h.level x.level with hdeeper | hle
    · rw [governedEnd_cons_of_lt hdeeper]
      rcases Nat.lt_or_ge h'.level x.level with hdeeper' | hle'
      · rw [governedEnd_cons_of_lt hdeeper']
        exact governedEnd_le_governedEnd hlevel hlater hn
      · have hgoverned := le_governedEnd (h := h) hxn hx
        rw [governedEnd_cons_of_le hle']
        omega
    · refine Nat.le_of_eq ?_
      rw [governedEnd_cons_of_le hle, governedEnd_cons_of_le (Nat.le_trans hle hlevel)]

end GovernedEnd

/-! ## Blank lines at the end -/

section LastFilledLine

variable {lines : List Text} {start : Nat}

theorem lastFilledLine_le : ∀ stop : Nat, lastFilledLine lines start stop ≤ stop
  | 0 => Nat.le_refl 0
  | stop + 1 => by
    rw [lastFilledLine]
    split
    · exact Nat.le_succ_of_le (lastFilledLine_le stop)
    · exact Nat.le_refl _

/-- Going back does not pass over a line that is not blank. -/
theorem le_lastFilledLine {n : Nat} (hn : NotBlankAt lines n) : ∀ {stop : Nat}, n ≤ stop →
    n ≤ lastFilledLine lines start stop
  | 0, hle => hle
  | stop + 1, hle => by
    rw [lastFilledLine]
    split
    · rename_i hblank
      refine le_lastFilledLine hn (Nat.le_of_lt_succ (Nat.lt_of_le_of_ne hle ?_))
      rintro rfl
      obtain ⟨-, line, hline, hl⟩ := hn
      rw [Nat.succ_sub_one] at hline
      rw [hline, Option.any_some, hl] at hblank
      exact absurd hblank.2 Bool.false_ne_true
    · exact hle

/-- Going back ends on a line that is not blank, at the start at the latest. -/
theorem notBlankAt_lastFilledLine (hstart : NotBlankAt lines start) : ∀ {stop : Nat},
    start ≤ stop → stop ≤ lines.length → NotBlankAt lines (lastFilledLine lines start stop)
  | 0, hle, _ => absurd hstart.1 (by omega)
  | stop + 1, hle, hlen => by
    rw [lastFilledLine]
    by_cases heq : start = stop + 1
    · rw [if_neg fun h => Nat.ne_of_lt h.1 heq, ← heq]
      exact hstart
    · have hlt : start < stop + 1 := Nat.lt_of_le_of_ne hle heq
      split
      · exact notBlankAt_lastFilledLine hstart (Nat.le_of_lt_succ hlt) (Nat.le_of_succ_le hlen)
      · rename_i hfilled
        have hline : lines[stop]? = some lines[stop] := List.getElem?_eq_getElem hlen
        refine ⟨Nat.le_add_left 1 stop, lines[stop], hline, Bool.eq_false_iff.mpr fun hblank => ?_⟩
        exact hfilled ⟨hlt, by rw [hline]; exact hblank⟩

end LastFilledLine

/-! ## Sections -/

/-- The section of a heading with others behind it. -/
def sectionOf (lines : List Text) (h : Heading) (later : List Heading) : Section where
  level := h.level
  title := h.title
  start := h.line
  stop := lastFilledLine lines h.line (max (governedEnd lines.length h later) h.line)

theorem getElem?_sectionsOf (lines : List Text) : ∀ (hs : List Heading) (i : Nat),
    (sectionsOf lines hs)[i]? = hs[i]?.map fun h => sectionOf lines h (hs.drop (i + 1))
  | [], i => by rw [sectionsOf]; rfl
  | h :: later, 0 => rfl
  | h :: later, i + 1 => by
    rw [sectionsOf, List.getElem?_cons_succ, List.getElem?_cons_succ, List.drop_succ_cons]
    exact getElem?_sectionsOf lines later i

/-- What a section has from its heading, and where it ends. -/
structure Section.IsOf (lines : List Text) (h : Heading) (s : Section) : Prop where
  level_eq : s.level = h.level
  title_eq : s.title = h.title
  start_eq : s.start = h.line
  start_le_stop : s.start ≤ s.stop
  stop_le : s.stop ≤ lines.length
  notBlank : NotBlankAt lines s.stop

/-- All headings behind heading `i` up to heading `j` are of deeper levels than heading `i`. -/
def Governs (hs : List Heading) (i j : Nat) : Prop :=
  ∀ h ∈ hs[i]?, ∀ x ∈ (hs.take (j + 1)).drop (i + 1), h.level < x.level

/-- There is one section for each heading, and of two sections the later one lies inside of the
earlier one or behind it, as the levels of the headings say. -/
structure MirrorsOutline (lines : List Text) (hs : List Heading) (ss : List Section) : Prop where
  forall₂ : List.Forall₂ (Section.IsOf lines) hs ss
  inside : ∀ i j s s', i < j → ss[i]? = some s → ss[j]? = some s' → Governs hs i j →
    s.start < s'.start ∧ s'.stop ≤ s.stop
  behind : ∀ i j s s', i < j → ss[i]? = some s → ss[j]? = some s' → ¬ Governs hs i j →
    s.stop < s'.start

section Sections

variable {lines : List Text} {h h' : Heading} {hs mid later : List Heading}

theorem ArePlaced.tail (hplaced : ArePlaced lines (h :: later)) : ArePlaced lines later :=
  ⟨hplaced.increasing.of_cons, fun x hx => hplaced.notBlank x (List.mem_cons_of_mem h hx)⟩

theorem ArePlaced.of_append : ∀ {pre : List Heading}, ArePlaced lines (pre ++ later) →
    ArePlaced lines later
  | [], hplaced => hplaced
  | _ :: _, hplaced => ArePlaced.of_append hplaced.tail

theorem ArePlaced.governedEnd_le (hplaced : ArePlaced lines later) :
    governedEnd lines.length h later ≤ lines.length := by
  rw [governedEnd]
  split
  · rename_i next hnext
    have hle := (hplaced.notBlank next (List.mem_of_find?_eq_some hnext)).le_length
    omega
  · exact Nat.le_refl _

/-- The first section. -/
theorem ArePlaced.isOf_sectionOf (hplaced : ArePlaced lines (h :: later)) :
    (sectionOf lines h later).IsOf lines h := by
  have hstart : NotBlankAt lines h.line := hplaced.notBlank h List.mem_cons_self
  have hle : h.line ≤ max (governedEnd lines.length h later) h.line := Nat.le_max_right _ _
  have hlength : max (governedEnd lines.length h later) h.line ≤ lines.length :=
    Nat.max_le.mpr ⟨hplaced.tail.governedEnd_le, hstart.le_length⟩
  have hstop := notBlankAt_lastFilledLine hstart hle hlength
  exact ⟨rfl, rfl, rfl, le_lastFilledLine hstart hle, hstop.le_length, hstop⟩

theorem ArePlaced.forall₂_sectionsOf : ∀ {hs : List Heading}, ArePlaced lines hs →
    List.Forall₂ (Section.IsOf lines) hs (sectionsOf lines hs)
  | [], _ => .nil
  | _ :: _, hplaced => .cons hplaced.isOf_sectionOf (forall₂_sectionsOf hplaced.tail)

/-- A section ends where a later heading of a deeper level ends or behind it, if there are only
headings of deeper levels between the two. -/
theorem ArePlaced.stop_le_stop (hplaced : ArePlaced lines (h :: (mid ++ h' :: later)))
    (hmid : ∀ x ∈ mid, h.level < x.level) (hlevel : h.level < h'.level) :
    (sectionOf lines h' later).stop ≤ (sectionOf lines h (mid ++ h' :: later)).stop := by
  have hrest : ArePlaced lines (h' :: later) := hplaced.tail.of_append
  obtain ⟨hbehind, hincreasing⟩ := List.pairwise_cons.mp hrest.increasing
  have hgoverned : governedEnd lines.length h (mid ++ h' :: later) =
      governedEnd lines.length h later := by
    rw [governedEnd_append hmid, governedEnd_cons_of_lt hlevel]
  have hend : governedEnd lines.length h' later ≤ governedEnd lines.length h later :=
    governedEnd_le_governedEnd (Nat.le_of_lt hlevel) hincreasing
      fun x hx => (hrest.tail.notBlank x hx).le_length
  have hline : h'.line ≤ governedEnd lines.length h later :=
    le_governedEnd (hrest.notBlank h' List.mem_cons_self).le_length hbehind
  refine le_lastFilledLine hrest.isOf_sectionOf.notBlank ?_
  calc (sectionOf lines h' later).stop
      ≤ max (governedEnd lines.length h' later) h'.line := lastFilledLine_le _
    _ ≤ governedEnd lines.length h later := Nat.max_le.mpr ⟨hend, hline⟩
    _ = governedEnd lines.length h (mid ++ h' :: later) := hgoverned.symm
    _ ≤ max (governedEnd lines.length h (mid ++ h' :: later)) h.line := Nat.le_max_left _ _

/-- A section ends before the next heading of the same or a higher rank. -/
theorem ArePlaced.stop_lt_line (hplaced : ArePlaced lines (h :: later)) {x : Heading}
    (hx : x ∈ later) (hlevel : x.level ≤ h.level) : (sectionOf lines h later).stop < x.line := by
  obtain ⟨hbehind, hincreasing⟩ := List.pairwise_cons.mp hplaced.increasing
  have hline := hbehind x hx
  have hend := governedEnd_le_of_mem (n := lines.length) hlevel hincreasing hx
  have hstop : (sectionOf lines h later).stop ≤
      max (governedEnd lines.length h later) h.line := lastFilledLine_le _
  omega

/-- The headings behind one up to another are those between the two, and the other. -/
theorem drop_eq_append {i j : Nat} (hij : i < j) (hj : hs[j]? = some h') :
    hs.drop (i + 1) = (hs.take j).drop (i + 1) ++ h' :: hs.drop (j + 1) ∧
      (hs.take (j + 1)).drop (i + 1) = (hs.take j).drop (i + 1) ++ [h'] := by
  obtain ⟨hlt, rfl⟩ := List.getElem?_eq_some_iff.mp hj
  have hle : i + 1 ≤ (hs.take j).length := by
    rw [List.length_take]
    omega
  constructor
  · conv_lhs => rw [← List.take_append_drop j hs, List.drop_eq_getElem_cons hlt]
    rw [List.drop_append_of_le_length hle]
  · rw [List.take_add_one, hj, Option.toList_some, List.drop_append_of_le_length hle]

/-- Two headings with what is between and behind them. -/
theorem ArePlaced.of_getElem? (hplaced : ArePlaced lines hs) {i j : Nat} (hij : i < j)
    (hi : hs[i]? = some h) (hj : hs[j]? = some h') :
    ArePlaced lines (h :: ((hs.take j).drop (i + 1) ++ h' :: hs.drop (j + 1))) := by
  obtain ⟨hlt, rfl⟩ := List.getElem?_eq_some_iff.mp hi
  rw [← (drop_eq_append hij hj).1, ← List.drop_eq_getElem_cons hlt]
  have hwhole : ArePlaced lines (hs.take i ++ hs.drop i) := by rwa [List.take_append_drop]
  exact hwhole.of_append

theorem ArePlaced.inside (hplaced : ArePlaced lines hs) {i j : Nat} (hij : i < j)
    (hi : hs[i]? = some h) (hj : hs[j]? = some h') (hgoverns : Governs hs i j) :
    h.line < h'.line ∧ (sectionOf lines h' (hs.drop (j + 1))).stop ≤
      (sectionOf lines h (hs.drop (i + 1))).stop := by
  have hsplit := hplaced.of_getElem? hij hi hj
  obtain ⟨hdrop, hupto⟩ := drop_eq_append hij hj
  have hdeeper := hgoverns h hi
  rw [hupto, List.forall_mem_append] at hdeeper
  rw [hdrop]
  refine ⟨(List.pairwise_cons.mp hsplit.increasing).1 h' ?_, ?_⟩
  · exact List.mem_append_right _ List.mem_cons_self
  · exact hsplit.stop_le_stop hdeeper.1 (hdeeper.2 h' List.mem_cons_self)

theorem ArePlaced.behind (hplaced : ArePlaced lines hs) {i j : Nat} (hij : i < j)
    (hi : hs[i]? = some h) (hj : hs[j]? = some h') (hgoverns : ¬ Governs hs i j) :
    (sectionOf lines h (hs.drop (i + 1))).stop < h'.line := by
  have hsplit := hplaced.of_getElem? hij hi hj
  obtain ⟨hdrop, hupto⟩ := drop_eq_append hij hj
  -- one of the headings up to the other is not deeper, and it stands no later than the other
  obtain ⟨x, hx, hlevel⟩ : ∃ x ∈ (hs.take (j + 1)).drop (i + 1), x.level ≤ h.level := by
    by_contra hnone
    refine hgoverns fun y hy x hx => ?_
    obtain rfl : h = y := Option.some.inj (hi.symm.trans hy)
    by_contra hle
    exact hnone ⟨x, hx, Nat.le_of_not_lt hle⟩
  rw [hupto, List.mem_append, List.mem_singleton] at hx
  rw [hdrop]
  rcases hx with hx | rfl
  · have hlt := hsplit.stop_lt_line (List.mem_append_left _ hx) hlevel
    have hline := (List.pairwise_append.mp hsplit.tail.increasing).2.2 x hx h' List.mem_cons_self
    exact Nat.lt_trans hlt hline
  · exact hsplit.stop_lt_line (List.mem_append_right _ List.mem_cons_self) hlevel

end Sections

/-- Sections mirror the outline: whatever headings a text is taken to have, if they stand on
different lines, in order, none of which is blank, there is one section for each of them, from its
line to a line that is not blank, and of two sections the later one lies inside of the earlier one
if all headings behind the earlier one up to the later one are of deeper levels, and behind it if
not.  The sections of a text are those of the headings that are read in it, by any reader. -/
theorem mirrorsOutline_sections (t : Text) :
    (∀ hs, ArePlaced t.lines hs → MirrorsOutline t.lines hs (sectionsOf t.lines hs)) ∧
      ∀ reader, sections t reader = sectionsOf t.lines (reader t) := by
  refine ⟨fun hs hplaced => ?_, fun _ => rfl⟩
  have hheading : ∀ {i s}, (sectionsOf t.lines hs)[i]? = some s →
      ∃ h, hs[i]? = some h ∧ sectionOf t.lines h (hs.drop (i + 1)) = s := by
    intro i s hs
    rwa [getElem?_sectionsOf, Option.map_eq_some_iff] at hs
  refine ⟨hplaced.forall₂_sectionsOf, ?_, ?_⟩
  · intro i j s s' hij hs hs' hgoverns
    obtain ⟨h, hi, rfl⟩ := hheading hs
    obtain ⟨h', hj, rfl⟩ := hheading hs'
    exact hplaced.inside hij hi hj hgoverns
  · intro i j s s' hij hs hs' hgoverns
    obtain ⟨h, hi, rfl⟩ := hheading hs
    obtain ⟨h', hj, rfl⟩ := hheading hs'
    exact hplaced.behind hij hi hj hgoverns

/-- A text with a chapter, an appendix, and a part of the chapter with blank lines behind it. -/
def chapterText : Text := "# A\n\nx\n\n## B\n\ny\n\n# C\n".toList

theorem mirrorsOutline_of_chapter : ArePlaced chapterText.lines (headings chapterText) ∧
    MirrorsOutline chapterText.lines (headings chapterText) (sections chapterText) ∧
      (sections chapterText).map (fun s => (s.start, s.stop)) = [(1, 7), (5, 7), (9, 9)] := by
  have hplaced : ArePlaced chapterText.lines (headings chapterText) :=
    ⟨by decide +kernel, by decide +kernel⟩
  have hmirrors := (mirrorsOutline_sections chapterText).1 _ hplaced
  exact ⟨hplaced, hmirrors, by decide +kernel⟩

end Outline.Markdown

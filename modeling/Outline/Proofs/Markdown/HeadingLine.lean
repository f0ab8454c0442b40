import Outline.Markdown.Section
import Outline.Proofs.Markdown.Rest
import Outline.Proofs.Text.Lines

/-!
# Headings stand on lines with a character

A heading takes its line number from the line feeds that are left behind it.  What is left is an
end of the text (`Reading.step_suffix`), so the number is that of the line feeds before it; and a
leaf only begins at a character that ends no line, so the line is there and not empty
(`isFilled_of_mem_headings`).

The blocks that are read move between frames before they become the document, and none of these
moves makes or changes a heading.  `Reading.Headed` says that the lines of all headings read so
far have some property; each move keeps it, and only `Reading.leaf` has to establish it for a new
heading.

Sections ask no more of their headings than this, so headings may be found in any other way that has
it (`FindsFilledLines`).  Where only places are counted, it is enough that the line of a heading is
that of a place at all (`FindsPlaces`).

* `Reading.headed_step`, `Reading.headed_run`: what one block keeps, and what a whole reading keeps.
* `isFilled_of_mem_sections`: a section begins and ends on lines with a character.
-/

namespace Outline.Markdown

variable {P : Nat → Prop}

/-! ## Headings of blocks -/

/-- The lines of the headings in a block have a property. -/
def Block.Headed (P : Nat → Prop) (b : Block) : Prop :=
  ∀ labels, ∀ h ∈ b.headings labels, P h.line

theorem mem_headingsIn {labels : List Label} {h : Heading} : ∀ {bs : List Block},
    h ∈ headingsIn labels bs ↔ ∃ b ∈ bs, h ∈ b.headings labels
  | [] => by simp [headingsIn]
  | b :: bs => by
    rw [headingsIn, List.mem_append, mem_headingsIn]
    simp only [List.mem_cons, exists_eq_or_imp]

theorem Block.headed_heading {level line : Nat} {content : Text} (h : P line) :
    (Block.heading level line content).Headed P := by
  intro labels x hx
  rw [headings, List.mem_singleton] at hx
  rw [hx]
  exact h

/-- Whether a block is neither a heading nor a container. -/
def Block.isPlain : Block → Bool
  | .paragraph _ | .code | .html | .rule | .table _ => true
  | _ => false

theorem Block.headed_plain {b : Block} (hb : b.isPlain = true) : b.Headed P := by
  intro labels x hx
  have hnone : b.headings labels = [] := by
    cases b <;> simp_all [isPlain, headings]
  rw [hnone] at hx
  exact absurd hx List.not_mem_nil

/-- Closing a container keeps the headings in it. -/
theorem Frame.headed_close {f : Frame} (h : ∀ b ∈ f.blocks, b.Headed P) : f.close.Headed P := by
  intro labels x hx
  have hin : x ∈ headingsIn labels f.blocks.reverse := by
    rw [close] at hx
    split at hx <;> exact (by rw [Block.headings] at hx; exact hx)
  obtain ⟨b, hb, hxb⟩ := mem_headingsIn.mp hin
  exact h b (List.mem_reverse.mp hb) labels x hxb

/-! ## Headings of a reading -/

namespace Reading

/-- The lines of the headings read so far have a property. -/
structure Headed (P : Nat → Prop) (r : Reading) : Prop where
  blocks : ∀ b ∈ r.blocks, b.Headed P
  frames : ∀ f ∈ r.frames, ∀ b ∈ f.blocks, b.Headed P

variable {r : Reading}

theorem headed_empty : Headed P {} :=
  ⟨fun _ h => absurd h List.not_mem_nil, fun _ h => absurd h List.not_mem_nil⟩

theorem headed_add (h : r.Headed P) {b : Block} (hb : b.Headed P) : (r.add b).Headed P := by
  obtain ⟨frames, blocks, lastBlank, freshItem, labels⟩ := r
  cases frames with
  | nil => exact ⟨List.forall_mem_cons.mpr ⟨hb, h.blocks⟩, h.frames⟩
  | cons f fs =>
    obtain ⟨hf, hfs⟩ := List.forall_mem_cons.mp h.frames
    exact ⟨h.blocks, List.forall_mem_cons.mpr ⟨List.forall_mem_cons.mpr ⟨hb, hf⟩, hfs⟩⟩

theorem headed_push (h : r.Headed P) (holder : Holder) : (r.push holder).Headed P :=
  ⟨h.blocks, List.forall_mem_cons.mpr ⟨fun _ hb => absurd hb List.not_mem_nil, h.frames⟩⟩

theorem headed_pop (h : r.Headed P) : r.pop.Headed P := by
  obtain ⟨frames, blocks, lastBlank, freshItem, labels⟩ := r
  cases frames with
  | nil => exact h
  | cons f fs =>
    obtain ⟨hf, hfs⟩ := List.forall_mem_cons.mp h.frames
    have hrest : Headed P ⟨fs, blocks, lastBlank, freshItem, labels⟩ := ⟨h.blocks, hfs⟩
    exact headed_add hrest (Frame.headed_close hf)

theorem headed_popMany : ∀ (n : Nat) {r : Reading}, r.Headed P → (r.popMany n).Headed P
  | 0, _, h => h
  | n + 1, _, h => headed_popMany n (headed_pop h)

theorem headed_leaveFreshItem (h : r.Headed P) : r.leaveFreshItem.Headed P := by
  rw [leaveFreshItem]
  split
  · exact ⟨(headed_pop h).blocks, (headed_pop h).frames⟩
  · exact ⟨h.blocks, h.frames⟩

theorem headed_leaveList (h : r.Headed P) : r.leaveList.Headed P := by
  rw [leaveList]
  split
  · exact headed_pop h
  · exact h

theorem blocks_loosen (f : Frame) : f.loosen.blocks = f.blocks := by
  rw [Frame.loosen]
  split <;> rfl

theorem headed_noteBlank (h : r.Headed P) : r.noteBlank.Headed P := by
  rw [noteBlank]
  split
  · exact h
  · refine ⟨h.blocks, ?_⟩
    have hframes := h.frames
    simp only
    split
    · rename_i f g fs hf
      rw [hf, List.forall_mem_cons, List.forall_mem_cons] at hframes
      rw [List.forall_mem_cons, List.forall_mem_cons, blocks_loosen]
      exact hframes
    · exact hframes

theorem headed_beforeBlock (h : r.Headed P) : r.beforeBlock.Headed P :=
  headed_noteBlank (headed_leaveList (headed_leaveFreshItem h))

theorem headed_beforeItem (h : r.Headed P) (marker : Char) : (r.beforeItem marker).Headed P := by
  have hleave := headed_leaveFreshItem h
  rw [beforeItem]
  simp only
  generalize r.leaveFreshItem = r at hleave
  -- a new list is opened in what the innermost containers leave
  have hfresh : ∀ q : Reading, q.Headed P → Headed P
      { (if q.frames.isEmpty then q else q.leaveFreshItem.leaveList.noteBlank).push
          (.list marker true) with lastBlank := false } := by
    intro q hq
    split
    · have hb := headed_push hq (.list marker true)
      exact ⟨hb.blocks, hb.frames⟩
    · have hb := headed_push (headed_beforeBlock hq) (.list marker true)
      exact ⟨hb.blocks, hb.frames⟩
  split
  · rename_i f fs hf
    split
    · split
      · split
        · have hframes := hleave.frames
          rw [hf, List.forall_mem_cons] at hframes
          exact ⟨hleave.blocks,
            List.forall_mem_cons.mpr ⟨by rw [blocks_loosen]; exact hframes.1, hframes.2⟩⟩
        · exact hleave
      · exact hfresh _ hleave
    · exact hfresh _ hleave
  · exact hfresh _ hleave

theorem headed_afterBlank (h : r.Headed P) : r.afterBlank.Headed P := by
  obtain ⟨frames, blocks, lastBlank, freshItem, labels⟩ := r
  cases frames with
  | nil => exact ⟨h.blocks, h.frames⟩
  | cons f fs =>
    rw [afterBlank]
    simp only
    split
    · exact h
    · split
      · exact ⟨h.blocks, List.forall_mem_cons.mpr (List.forall_mem_cons.mp h.frames)⟩
      · exact ⟨h.blocks, h.frames⟩
    · exact ⟨h.blocks, h.frames⟩

theorem headed_openContainers : ∀ (fuel : Nat) {r : Reading} (m : Margin), r.Headed P →
    (openContainers fuel r m).1.Headed P
  | 0, _, _, h => h
  | fuel + 1, r, m, h => by
    rw [openContainers]
    by_cases hmissing : (m.skip 4).2 = 0
    · simp only [if_pos hmissing]
      exact h
    · simp only [if_neg hmissing]
      cases (if isRule (m.skip 4).1.rest then none else ItemMark.read? (m.skip 4).1.rest) with
      | some mark =>
        have hitem := headed_push (headed_beforeItem h mark.marker)
          (.item (some (mark.enter (4 - (m.skip 4).2) (m.skip 4).1).2))
        simp only
        split
        · exact ⟨hitem.blocks, hitem.frames⟩
        · exact headed_openContainers fuel _ hitem
      | none =>
        cases (m.skip 4).1.quoteMark? with
        | some after =>
          exact headed_openContainers fuel after (headed_push (headed_beforeBlock h) .quote)
        | none => exact h

theorem headed_paragraphLike (h : r.Headed P) {line : Nat} (hline : P line) (t : Text) :
    (r.paragraphLike line t).1.Headed P := by
  rw [paragraphLike]
  simp only
  split
  · exact ⟨h.blocks, h.frames⟩
  · split
    · exact headed_add h (Block.headed_plain rfl)
    · split
      · exact headed_add h (Block.headed_heading hline)
      · exact headed_add h (Block.headed_plain rfl)

/-- A leaf that becomes a heading stands on the line it is given. -/
theorem headed_leaf (h : r.Headed P) {line : Nat} (hline : P line) (indent : Nat) (t : Text) :
    (r.leaf line indent t).1.Headed P := by
  unfold leaf
  simp only
  split
  · exact headed_add h (Block.headed_plain rfl)
  · split
    · exact headed_add h (Block.headed_plain rfl)
    · split
      · exact headed_add h (Block.headed_heading hline)
      · split
        · exact headed_add h (Block.headed_plain rfl)
        · exact headed_paragraphLike h hline t

/-! ## Reading a document -/

/-- A carriage return ends a line, whatever follows it. -/
theorem afterLineEnd?_return (t : Text) :
    afterLineEnd? ('\r' :: t) = some (if t.head? = some '\n' then t.tail else t) := by
  cases t with
  | nil => rfl
  | cons d ds =>
    by_cases hd : d = '\n'
    · subst hd
      rfl
    · rw [List.head?_cons, if_neg (by simpa using hd), afterLineEnd?]
      exact fun rest h => hd (List.cons.inj h).1

/-- Where a line is not blank, behind its margin stands a character that ends no line. -/
theorem exists_char_of_not_blank {m : Margin} (h : afterBlankLine? m.rest = none) (n : Nat) :
    ∃ c rest, (m.skip n).1.rest = c :: rest ∧ c ≠ '\n' ∧ c ≠ '\r' := by
  rw [afterBlankLine?, ← m.dropBlanks_skip n] at h
  cases hrest : (m.skip n).1.rest with
  | nil =>
    rw [hrest] at h
    exact absurd h (by simp [skipBlanks, afterLineEnd?])
  | cons c rest =>
    refine ⟨c, rest, rfl, ?_, ?_⟩
    · rintro rfl
      rw [hrest] at h
      exact absurd h (by simp [skipBlanks, isBlankChar, afterLineEnd?])
    · rintro rfl
      rw [hrest, skipBlanks, List.dropWhile_cons_of_neg (by decide), afterLineEnd?_return] at h
      exact absurd h (by simp)

/-- One more block of a text, from an end of it on. -/
theorem headed_step {text t : Text} (ht : t <:+ text) (h : r.Headed (IsFilled text.lines)) :
    (r.step text.newlines t).1.Headed (IsFilled text.lines) := by
  have hopen := headed_openContainers (t.length + 1) (r.matchLine t).2
    (headed_popMany (r.matchLine t).1 h)
  have hplace := (openContainers_suffix (t.length + 1) (r.popMany (r.matchLine t).1)
    (r.matchLine t).2).trans ((matchLine_suffix r t).trans ht)
  rw [step]
  simp only
  generalize openContainers (t.length + 1) (r.popMany (r.matchLine t).1) (r.matchLine t).2 =
    opened at hopen hplace ⊢
  obtain ⟨r, place⟩ := opened
  cases place with
  | inr rest => exact hopen
  | inl m =>
    simp only
    split
    · exact headed_afterBlank hopen
    · rename_i hblank
      have hbefore := headed_beforeBlock hopen
      split
      · have hcode := headed_add hbefore (b := .code) (Block.headed_plain rfl)
        exact ⟨hcode.blocks, hcode.frames⟩
      · refine headed_leaf hbefore ?_ _ _
        -- the line feeds before the place are those of the text less those left
        obtain ⟨c, rest, hrest, hn, hr⟩ := exists_char_of_not_blank hblank 4
        obtain ⟨pre, hpre⟩ := (m.skip_suffix 4).trans hplace
        rw [hrest] at hpre
        obtain ⟨l, hl, hc⟩ := Text.exists_line_of_eq_append hn hr rest pre
        rw [hpre] at hl
        have hline : text.newlines + 1 - Text.newlines (m.skip 4).1.rest =
            Text.newlines pre + 1 := by
          rw [← hpre, hrest, Text.newlines_append]
          omega
        rw [hline]
        exact ⟨Nat.le_add_left 1 _, l, hl, List.ne_nil_of_mem hc⟩

theorem headed_run {text : Text} : ∀ (fuel : Nat) {r : Reading} {t : Text}, t <:+ text →
    r.Headed (IsFilled text.lines) →
    (run text.newlines fuel r t).Headed (IsFilled text.lines)
  | 0, _, _, _, h => by rw [run]; exact h
  | fuel + 1, r, [], _, h => by rw [run]; exact h
  | fuel + 1, r, c :: t, ht, h => by
    rw [run]
    · exact headed_run fuel ((step_suffix _ r (c :: t)).trans ht) (headed_step ht h)
    · exact List.cons_ne_nil c t

end Reading

/-- A heading stands on a line that is there and not empty. -/
theorem isFilled_of_mem_headings {text : Text} {h : Heading} (hh : h ∈ headings text) :
    IsFilled text.lines h.line := by
  have hrun : Reading.Headed (IsFilled text.lines) _ :=
    Reading.headed_run (text.length + 1) (List.suffix_refl text) Reading.headed_empty
  obtain ⟨b, hb, hhb⟩ := mem_headingsIn.mp hh
  exact (Reading.headed_popMany _ hrun).blocks b (List.mem_reverse.mp hb) _ h hhb

/-! ## Sections -/

/-- The line before the next heading, or the last line, is a line of the text. -/
theorem governedEnd_le {lines : List Text} {h : Heading} {later : List Heading}
    (hlater : ∀ next ∈ later, IsFilled lines next.line) :
    governedEnd lines.length h later ≤ lines.length := by
  rw [governedEnd]
  split
  · rename_i next hnext
    have := (hlater next (List.mem_of_find?_eq_some hnext)).le_length
    omega
  · exact Nat.le_refl _

/-- Going back over blank lines ends at the start at the latest. -/
theorem start_le_lastFilledLine (lines : List Text) {start : Nat} : ∀ {stop : Nat}, start ≤ stop →
    start ≤ lastFilledLine lines start stop
  | 0, hle => hle
  | stop + 1, hle => by
    rw [lastFilledLine]
    split
    · exact start_le_lastFilledLine lines (by omega)
    · exact hle

/-- Going back over blank lines ends on a line with a character. -/
theorem isFilled_lastFilledLine {lines : List Text} {start : Nat} (hstart : IsFilled lines start) :
    ∀ {stop : Nat}, start ≤ stop → stop ≤ lines.length →
      IsFilled lines (lastFilledLine lines start stop)
  | 0, hle, _ => by
    have := hstart.1
    omega
  | stop + 1, hle, hlen => by
    rw [lastFilledLine]
    split
    · exact isFilled_lastFilledLine hstart (by omega) (by omega)
    · rename_i hc
      by_cases heq : start = stop + 1
      · exact heq ▸ hstart
      · have hlt : stop < lines.length := hlen
        refine ⟨Nat.le_add_left 1 stop, lines[stop], List.getElem?_eq_getElem hlt, ?_⟩
        intro hnil
        refine hc ⟨by omega, ?_⟩
        rw [List.getElem?_eq_getElem hlt, Option.any_some, hnil]
        rfl

/-- A section begins with a heading and ends no earlier. -/
theorem exists_heading_of_mem_sectionsOf {lines : List Text} {s : Section} :
    ∀ {hs : List Heading}, s ∈ sectionsOf lines hs → ∃ h ∈ hs, s.start = h.line ∧ s.start ≤ s.stop
  | [], hmem => absurd hmem (by simp [sectionsOf])
  | h :: later, hmem => by
    rw [sectionsOf, List.mem_cons] at hmem
    rcases hmem with rfl | hmem
    · exact ⟨h, List.mem_cons_self, rfl, start_le_lastFilledLine lines (Nat.le_max_right _ _)⟩
    · obtain ⟨found, hfound, hstart⟩ := exists_heading_of_mem_sectionsOf hmem
      exact ⟨found, List.mem_cons_of_mem h hfound, hstart⟩

theorem isFilled_of_mem_sectionsOf {lines : List Text} {s : Section} : ∀ {hs : List Heading},
    (∀ h ∈ hs, IsFilled lines h.line) → s ∈ sectionsOf lines hs →
    IsFilled lines s.start ∧ IsFilled lines s.stop
  | [], _, hmem => absurd hmem (by simp [sectionsOf])
  | h :: later, hfilled, hmem => by
    obtain ⟨hh, hlater⟩ := List.forall_mem_cons.mp hfilled
    rw [sectionsOf, List.mem_cons] at hmem
    rcases hmem with rfl | hmem
    · have hend := governedEnd_le (h := h) hlater
      have hlast := isFilled_lastFilledLine hh
        (Nat.le_max_right (governedEnd lines.length h later) h.line)
        (Nat.max_le.mpr ⟨hend, hh.le_length⟩)
      exact ⟨hh, hlast⟩
    · exact isFilled_of_mem_sectionsOf hlater hmem

/-! ## Readers of headings -/

/-- Headings are found on lines of a text that are there and not empty. -/
def FindsFilledLines (reader : Text → List Heading) (text : Text) : Prop :=
  ∀ h ∈ reader text, IsFilled text.lines h.line

/-- The line of each heading is that of some place in a text; a place behind the end counts as the
end. -/
def FindsPlaces (reader : Text → List Heading) (text : Text) : Prop :=
  ∀ h ∈ reader text, ∃ index, text.lineAt index = h.line

theorem findsFilledLines_headings (text : Text) : FindsFilledLines headings text :=
  fun _ hh => isFilled_of_mem_headings hh

section

variable {reader : Text → List Heading} {text : Text} {s : Section}

theorem FindsFilledLines.findsPlaces (hreader : FindsFilledLines reader text) :
    FindsPlaces reader text := by
  intro h hh
  have hfilled := hreader h hh
  have hle : h.line ≤ text.lineCount := hfilled.le_length
  refine Text.exists_lineAt_eq hfilled.1 (Nat.le_trans hle ?_)
  rw [Text.length_lines]
  split
  · exact Nat.le_refl _
  · exact Nat.le_succ _

theorem FindsPlaces.one_le_line (hreader : FindsPlaces reader text) {h : Heading}
    (hh : h ∈ reader text) : 1 ≤ h.line := by
  obtain ⟨index, hindex⟩ := hreader h hh
  rw [← hindex, Text.lineAt]
  exact Nat.le_add_left 1 _

/-- A section begins and ends on lines with a character, where its heading is found on one. -/
theorem isFilled_of_mem_sections (hreader : FindsFilledLines reader text)
    (h : s ∈ sections text reader) :
    s.start ≤ s.stop ∧ IsFilled text.lines s.start ∧ IsFilled text.lines s.stop := by
  obtain ⟨-, -, -, hle⟩ := exists_heading_of_mem_sectionsOf h
  exact ⟨hle, isFilled_of_mem_sectionsOf hreader h⟩

theorem one_le_of_mem_sections (hreader : FindsPlaces reader text)
    (h : s ∈ sections text reader) : 1 ≤ s.start ∧ 1 ≤ s.stop := by
  obtain ⟨heading, hheading, hstart, hle⟩ := exists_heading_of_mem_sectionsOf h
  have hone := hreader.one_le_line hheading
  omega

end

/-- A paragraph, and a heading with a line under it. -/
def noteText : Text := "a\n# B\nc\n".toList

/-- Knows the heading of the note. -/
def noteHeadings (_ : Text) : List Heading := [⟨1, "B", 2⟩]

theorem findsFilledLines_noteHeadings : FindsFilledLines noteHeadings noteText := by
  intro h hh
  rw [noteHeadings, List.mem_singleton] at hh
  rw [hh]
  exact ⟨Nat.le_succ 1, "# B".toList, rfl, by decide⟩

end Outline.Markdown

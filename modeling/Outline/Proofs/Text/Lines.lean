import Outline.Structure.Location
import Outline.Text.Lines

/-!
# Lines and line feeds

A place in a text is named in two ways: by the line feeds before it, which is how a match gets its
line number, and by an index into the list of lines.  The two agree wherever there is a character
that ends no line (`exists_split_line`), and the same holds for a text that was put together from
lines again (`exists_split_line_of_joinLines`); in both, what stands before the character in its
line is what follows the last line feed before it.

Lines that are joined and split again need not be the same lines: a carriage return at the end of
a line is kept, and joining sets a line feed after it.  Nor need they be as many: an empty last
line is lost.  What survives is the number of lines, if the last one is not empty
(`lineCount_joinLines`).  So a run of lines is told by its text exactly when it ends in a line
with a character, which is what `IsFilled` says and `lineCount_linesOf` uses.

* `length_lines`: the number of lines, from the line feeds and the last character.
* `newline_notMem_of_mem_lines`: no line has a line feed in it.
* `Location.linesOf`: the lines of a location.
-/

namespace Outline

namespace Text

/-! ## Splitting -/

theorem lines_newline (cs : Text) : lines ('\n' :: cs) = [] :: lines cs := by
  rw [lines]

theorem lines_return_newline (cs : Text) :
    lines ('\r' :: '\n' :: cs) = lines ('\n' :: cs) := by
  rw [lines, lines]

/-- A character that ends no line stands in the first line. -/
theorem lines_cons {c : Char} {cs : Text} (hc : c ≠ '\n')
    (hcs : ∀ rest, c = '\r' → cs ≠ '\n' :: rest) :
    lines (c :: cs) = (c :: (lines cs).headD []) :: (lines cs).tail := by
  rw [lines.eq_4 c cs hc (fun rest hr hn => hcs rest hr hn)]
  cases lines cs with
  | nil => rfl
  | cons l ls => rfl

/-- The three shapes of a text that is not empty: a line feed, a line feed after a carriage
return, and a character of the first line. -/
theorem lines_cons_cases (c : Char) (cs : Text) :
    (c = '\n' ∧ lines (c :: cs) = [] :: lines cs) ∨
    (c = '\r' ∧ (∃ rest, cs = '\n' :: rest) ∧ lines (c :: cs) = lines cs) ∨
    (c ≠ '\n' ∧ lines (c :: cs) = (c :: (lines cs).headD []) :: (lines cs).tail) := by
  by_cases hn : c = '\n'
  · exact Or.inl ⟨hn, hn ▸ lines_newline cs⟩
  · by_cases hr : ∃ rest, c = '\r' ∧ cs = '\n' :: rest
    · obtain ⟨rest, rfl, rfl⟩ := hr
      exact Or.inr (Or.inl ⟨rfl, ⟨rest, rfl⟩, lines_return_newline rest⟩)
    · exact Or.inr (Or.inr ⟨hn, lines_cons hn fun rest h h' => hr ⟨rest, h, h'⟩⟩)

/-- No line has a line feed in it. -/
theorem newline_notMem_of_mem_lines : ∀ {t l : Text}, l ∈ t.lines → '\n' ∉ l
  | [], l, h => by simp [lines] at h
  | c :: cs, l, h => by
    rcases lines_cons_cases c cs with ⟨-, hl⟩ | ⟨-, -, hl⟩ | ⟨hc, hl⟩
    · rw [hl, List.mem_cons] at h
      rcases h with rfl | h
      · exact List.not_mem_nil
      · exact newline_notMem_of_mem_lines h
    · exact newline_notMem_of_mem_lines (hl ▸ h)
    · rw [hl, List.mem_cons] at h
      rcases h with rfl | h
      · rw [List.mem_cons, not_or]
        refine ⟨Ne.symm hc, ?_⟩
        cases hcs : lines cs with
        | nil => exact List.not_mem_nil
        | cons first rest =>
          have hfirst : first ∈ lines cs := by rw [hcs]; exact List.mem_cons_self
          exact newline_notMem_of_mem_lines hfirst
      · exact newline_notMem_of_mem_lines (List.mem_of_mem_tail h)

theorem newlines_cons (c : Char) (cs : Text) :
    newlines (c :: cs) = newlines cs + if c = '\n' then 1 else 0 := by
  rw [newlines, newlines, List.count_cons]
  simp only [beq_iff_eq]

theorem newlines_append (t u : Text) : newlines (t ++ u) = newlines t + newlines u :=
  List.count_append

theorem newlines_eq_zero {t : Text} (h : '\n' ∉ t) : newlines t = 0 :=
  List.count_eq_zero.mpr h

/-- Whether a text ends inside a line: in a character other than a line feed. -/
def endsInLine (t : Text) : Bool := t.getLast?.any (· != '\n')

theorem endsInLine_cons_cons (c d : Char) (t : Text) :
    endsInLine (c :: d :: t) = endsInLine (d :: t) := by
  rw [endsInLine, endsInLine, List.getLast?_cons_cons]

/-- A text that is not empty has a line. -/
theorem lineCount_pos (c : Char) (cs : Text) : 1 ≤ lineCount (c :: cs) := by
  rw [lineCount]
  rcases lines_cons_cases c cs with ⟨-, h⟩ | ⟨-, ⟨rest, rfl⟩, h⟩ | ⟨-, h⟩
  · rw [h, List.length_cons]
    exact Nat.le_add_left 1 _
  · rw [h, lines_newline, List.length_cons]
    exact Nat.le_add_left 1 _
  · rw [h, List.length_cons]
    exact Nat.le_add_left 1 _

/-- There is a line for every line feed, and one more if the text does not end in one. -/
theorem length_lines : ∀ t : Text,
    t.lineCount = newlines t + if endsInLine t then 1 else 0
  | [] => rfl
  | c :: cs => by
    have ih := length_lines cs
    rw [lineCount] at ih ⊢
    rw [newlines_cons]
    rcases lines_cons_cases c cs with ⟨rfl, hl⟩ | ⟨rfl, ⟨rest, rfl⟩, hl⟩ | ⟨hc, hl⟩
    · rw [hl, List.length_cons, ih, if_pos rfl]
      cases cs with
      | nil => rfl
      | cons d ds => rw [endsInLine_cons_cons, Nat.add_right_comm]
    · rw [hl, ih, endsInLine_cons_cons, if_neg (show '\r' ≠ '\n' by decide), Nat.add_zero]
    · rw [hl, List.length_cons, List.length_tail, if_neg hc]
      cases cs with
      | nil => simp [lines, newlines, endsInLine, hc]
      | cons d ds =>
        have hpos : 1 ≤ (lines (d :: ds)).length := lineCount_pos d ds
        rw [endsInLine_cons_cons, Nat.add_zero (newlines _), ← ih]
        omega

/-! ## Places -/

/-- Every line up to the last line feed, and the one behind it, is that of some place. -/
theorem exists_lineAt_eq : ∀ {t : Text} {line : Nat}, 1 ≤ line → line ≤ newlines t + 1 →
    ∃ index, t.lineAt index = line
  | [], line, hone, hle => ⟨0, Nat.le_antisymm hone hle⟩
  | c :: cs, line, hone, hle => by
    have hnext : ∀ index, lineAt (c :: cs) (index + 1) =
        lineAt cs index + if c = '\n' then 1 else 0 := by
      intro index
      rw [lineAt, lineAt, List.take_succ_cons, newlines_cons, Nat.add_right_comm]
    have hfeed : (if c = '\n' then 1 else 0) ≤ 1 := by split <;> decide
    rw [newlines_cons] at hle
    generalize (if c = '\n' then 1 else 0) = feed at hnext hfeed hle
    by_cases hfirst : line = 1
    · exact ⟨0, hfirst.symm⟩
    · obtain ⟨index, hindex⟩ : ∃ index, lineAt cs index = line - feed :=
        exists_lineAt_eq (by omega) (by omega)
      refine ⟨index + 1, ?_⟩
      rw [hnext, hindex]
      omega

/-- What a text has behind its last line feed. -/
def lastPart : Text → Text
  | [] => []
  | c :: cs => if newlines (c :: cs) = 0 then c :: cs else lastPart cs

theorem lastPart_eq_self {t : Text} (h : newlines t = 0) : lastPart t = t := by
  cases t with
  | nil => rfl
  | cons c cs => rw [lastPart, if_pos h]

theorem lastPart_cons {c : Char} {cs : Text} (h : newlines (c :: cs) ≠ 0) :
    lastPart (c :: cs) = lastPart cs := by
  rw [lastPart, if_neg h]

theorem lastPart_append_newline (t : Text) : ∀ s : Text, lastPart (s ++ '\n' :: t) = lastPart t
  | [] => lastPart_cons (by rw [newlines_cons, if_pos rfl]; exact Nat.succ_ne_zero _)
  | c :: s => by
    have hpos : newlines (c :: (s ++ '\n' :: t)) ≠ 0 := by
      rw [newlines_cons, newlines_append, newlines_cons, if_pos rfl]
      omega
    rw [List.cons_append, lastPart_cons hpos, lastPart_append_newline t s]

/-- At the front of a text and just after a line feed, a line begins. -/
theorem lastPart_eq_nil {t : Text} (h : ∀ c, t.getLast? = some c → c = '\n') :
    lastPart t = [] := by
  rcases List.eq_nil_or_concat t with rfl | ⟨s, c, rfl⟩
  · rfl
  · rw [List.concat_eq_append] at h ⊢
    rw [h c List.getLast?_concat, lastPart_append_newline]
    rfl

/-- A character that ends no line stands in the line whose number is that of the line feeds before
it, behind what follows the last of these. -/
theorem exists_split_line {c : Char} (hn : c ≠ '\n') (hr : c ≠ '\r') (post : Text) :
    ∀ pre : Text, ∃ v, (lines (pre ++ c :: post))[newlines pre]? = some (lastPart pre ++ c :: v)
  | [] => by
    rw [List.nil_append, lines_cons hn fun _ h => absurd h hr]
    exact ⟨_, rfl⟩
  | d :: pre => by
    obtain ⟨v, hv⟩ := exists_split_line hn hr post pre
    refine ⟨v, ?_⟩
    rw [List.cons_append]
    rcases lines_cons_cases d (pre ++ c :: post) with ⟨rfl, h⟩ | ⟨rfl, ⟨rest, hrest⟩, h⟩ | ⟨hd, h⟩
    · rw [h, newlines_cons, if_pos rfl, List.getElem?_cons_succ, hv]
      exact congrArg some (congrArg (· ++ c :: v) (lastPart_append_newline pre []).symm)
    · cases pre with
      | nil => exact absurd (List.cons.inj hrest).1 hn
      | cons e es =>
        have hpos : newlines ('\r' :: e :: es) ≠ 0 := by
          rw [newlines_cons, newlines_cons, if_pos (List.cons.inj hrest).1]
          omega
        rw [h, lastPart_cons hpos, newlines_cons, if_neg (by decide), Nat.add_zero, hv]
    · rw [h, newlines_cons, if_neg hd, Nat.add_zero]
      cases hk : newlines pre with
      | zero =>
        have hline : newlines (d :: pre) = 0 := by rw [newlines_cons, hk, if_neg hd]
        rw [hk, ← List.head?_eq_getElem?] at hv
        rw [List.getElem?_cons_zero, List.headD_eq_head?_getD, hv, lastPart_eq_self hk,
          lastPart_eq_self hline]
        rfl
      | succ k =>
        have hline : newlines (d :: pre) ≠ 0 := by
          rw [newlines_cons, hk]
          omega
        rw [hk] at hv
        rw [List.getElem?_cons_succ, List.getElem?_tail, hv, lastPart_cons hline]

theorem exists_line_of_eq_append {c : Char} (hn : c ≠ '\n') (hr : c ≠ '\r') (post pre : Text) :
    ∃ l, (lines (pre ++ c :: post))[newlines pre]? = some l ∧ c ∈ l := by
  obtain ⟨v, hv⟩ := exists_split_line hn hr post pre
  exact ⟨_, hv, List.mem_append_right _ List.mem_cons_self⟩

/-! ## Joining -/

@[simp] theorem joinLines_nil : joinLines [] = [] := rfl

@[simp] theorem joinLines_singleton (l : Text) : joinLines [l] = l := by
  rw [joinLines, List.intercalate_singleton]

theorem joinLines_cons_cons (l m : Text) (ls : List Text) :
    joinLines (l :: m :: ls) = l ++ '\n' :: joinLines (m :: ls) := by
  rw [joinLines, List.intercalate_cons_cons, List.append_assoc]
  rfl

theorem mem_joinLines_of_mem {c : Char} {l : Text} (hc : c ∈ l) :
    ∀ {ls : List Text}, l ∈ ls → c ∈ joinLines ls
  | [], h => absurd h List.not_mem_nil
  | [m], h => by
    rw [joinLines_singleton, ← List.mem_singleton.mp h]
    exact hc
  | m :: n :: ls, h => by
    rw [joinLines_cons_cons]
    rcases List.mem_cons.mp h with rfl | h
    · exact List.mem_append_left _ hc
    · exact List.mem_append_right m (List.mem_cons_of_mem '\n' (mem_joinLines_of_mem hc h))

/-- Joining sets a line feed between each two lines. -/
theorem newlines_joinLines_cons (l : Text) : ∀ ls : List Text, (∀ m ∈ l :: ls, '\n' ∉ m) →
    newlines (joinLines (l :: ls)) = ls.length
  | [], h => by
    rw [joinLines_singleton]
    exact newlines_eq_zero (h l List.mem_cons_self)
  | m :: ls, h => by
    have ih := newlines_joinLines_cons m ls fun k hk => h k (List.mem_cons_of_mem l hk)
    rw [joinLines_cons_cons, newlines_append, newlines_cons, ih, if_pos rfl,
      newlines_eq_zero (h l List.mem_cons_self), Nat.zero_add, List.length_cons]

/-- The last character of joined lines is that of the last line, unless it has none. -/
theorem getLast?_joinLines {last : Text} (hlast : last ≠ []) :
    ∀ {ls : List Text}, ls.getLast? = some last → (joinLines ls).getLast? = last.getLast?
  | [], h => by simp at h
  | [l], h => by
    rw [List.getLast?_singleton, Option.some_inj] at h
    rw [joinLines_singleton, h]
  | l :: m :: ls, h => by
    rw [List.getLast?_cons_cons] at h
    have hne : last.getLast? ≠ none := fun hn => hlast (List.getLast?_eq_none_iff.mp hn)
    have ih := getLast?_joinLines hlast h
    obtain ⟨c, hc⟩ := Option.ne_none_iff_exists'.mp hne
    rw [joinLines_cons_cons, List.getLast?_append, List.getLast?_cons, ih, hc]
    rfl

/-- Lines that are joined are as many lines as before, if the last of them is not empty. -/
theorem lineCount_joinLines {ls : List Text} {last : Text} (hls : ∀ l ∈ ls, '\n' ∉ l)
    (hlast : ls.getLast? = some last) (hne : last ≠ []) :
    (joinLines ls).lineCount = ls.length := by
  obtain ⟨c, hc⟩ := Option.ne_none_iff_exists'.mp
    fun hn => hne (List.getLast?_eq_none_iff.mp hn)
  have hcn : c ≠ '\n' := by
    rintro rfl
    exact hls last (List.mem_of_getLast? hlast) (List.mem_of_getLast? hc)
  cases ls with
  | nil => simp at hlast
  | cons l ls =>
    rw [length_lines, newlines_joinLines_cons l ls hls, endsInLine,
      getLast?_joinLines hne hlast, hc]
    simp [hcn]

/-- A character of joined lines, other than a line feed, stands in the line whose number is that
of the line feeds before it, behind what follows the last of these. -/
theorem exists_split_line_of_joinLines {c : Char} (hn : c ≠ '\n') :
    ∀ {ls : List Text} {pre post : Text}, (∀ l ∈ ls, '\n' ∉ l) →
      joinLines ls = pre ++ c :: post →
        ∃ v, ls[newlines pre]? = some (lastPart pre ++ c :: v)
  | [], pre, post, _, h => by simp at h
  | [l], pre, post, hls, h => by
    rw [joinLines_singleton] at h
    have hl := hls l List.mem_cons_self
    rw [h, List.mem_append, not_or] at hl
    have hpre := newlines_eq_zero hl.1
    exact ⟨post, by rw [hpre, lastPart_eq_self hpre, h]; rfl⟩
  | l :: m :: ls, pre, post, hls, h => by
    rw [joinLines_cons_cons] at h
    have hl := hls l List.mem_cons_self
    rcases List.append_eq_append_iff.mp h with ⟨as, hpre, has⟩ | ⟨as, hl', has⟩
    · -- the place lies behind the first line
      cases as with
      | nil => exact absurd (List.cons.inj has).1 (Ne.symm hn)
      | cons d ds =>
        obtain ⟨rfl, hds⟩ := List.cons.inj has
        obtain ⟨v, hv⟩ := exists_split_line_of_joinLines hn
          (fun k hk => hls k (List.mem_cons_of_mem l hk)) hds
        refine ⟨v, ?_⟩
        rw [hpre, lastPart_append_newline, newlines_append, newlines_cons, newlines_eq_zero hl,
          if_pos rfl, Nat.zero_add, List.getElem?_cons_succ, hv]
    · cases as with
      | nil => exact absurd (List.cons.inj has).1 hn
      | cons d ds =>
        obtain ⟨rfl, -⟩ := List.cons.inj has
        rw [hl', List.mem_append, not_or] at hl
        have hpre := newlines_eq_zero hl.1
        exact ⟨ds, by rw [hpre, lastPart_eq_self hpre, hl']; rfl⟩

theorem exists_line_of_joinLines {c : Char} (hn : c ≠ '\n') {ls : List Text} {pre post : Text}
    (hls : ∀ l ∈ ls, '\n' ∉ l) (h : joinLines ls = pre ++ c :: post) :
    ∃ l, ls[newlines pre]? = some l ∧ c ∈ l := by
  obtain ⟨v, hv⟩ := exists_split_line_of_joinLines hn hls h
  exact ⟨_, hv, List.mem_append_right _ List.mem_cons_self⟩

end Text

/-! ## Runs of lines -/

/-- Line `n`, counted from one, is there and is not empty. -/
def IsFilled (lines : List Text) (n : Nat) : Prop :=
  1 ≤ n ∧ ∃ line, lines[n - 1]? = some line ∧ line ≠ []

theorem IsFilled.le_length {lines : List Text} {n : Nat} (h : IsFilled lines n) :
    n ≤ lines.length := by
  obtain ⟨hn, line, hline, -⟩ := h
  have := (List.getElem?_eq_some_iff.mp hline).1
  omega

theorem IsFilled.min {lines : List Text} {m n : Nat} (hm : IsFilled lines m)
    (hn : IsFilled lines n) : IsFilled lines (min m n) := by
  rcases Nat.le_total m n with hle | hle
  · rw [Nat.min_eq_left hle]
    exact hm
  · rw [Nat.min_eq_right hle]
    exact hn

namespace Location

@[simp] theorem start_clamped (start stop : Nat) : (clamped start stop).start = max start 1 := rfl

@[simp] theorem stop_clamped (start stop : Nat) :
    (clamped start stop).stop = max stop (max start 1) := rfl

/-- Lines that are in order are left as they are. -/
theorem clamped_eq_self (l : Location) : clamped l.start l.stop = l := by
  have h1 := l.one_le_start
  have h2 := l.start_le_stop
  ext
  · rw [start_clamped]
    omega
  · rw [stop_clamped]
    omega

/-- The lines of a location. -/
def linesOf (l : Location) (lines : List Text) : List Text :=
  (lines.drop (l.start - 1)).take l.lineCount

theorem one_le_lineCount (l : Location) : 1 ≤ l.lineCount := Nat.le_add_left 1 _

theorem length_linesOf {l : Location} {lines : List Text} (h : l.stop ≤ lines.length) :
    (l.linesOf lines).length = l.lineCount := by
  have h1 := l.one_le_start
  have h2 := l.start_le_stop
  rw [linesOf, List.length_take, List.length_drop, lineCount]
  omega

theorem mem_of_mem_linesOf {l : Location} {lines : List Text} {line : Text}
    (h : line ∈ l.linesOf lines) : line ∈ lines :=
  List.mem_of_mem_drop (List.mem_of_mem_take h)

/-- The line of a location at an index, counted from zero. -/
theorem getElem?_linesOf {l : Location} {lines : List Text} {i : Nat} {line : Text}
    (h : (l.linesOf lines)[i]? = some line) :
    i < l.lineCount ∧ lines[l.start - 1 + i]? = some line := by
  rw [linesOf, List.getElem?_take] at h
  split at h
  · rename_i hi
    exact ⟨hi, by rw [← h, List.getElem?_drop]⟩
  · exact absurd h (by simp)

theorem getLast?_linesOf {l : Location} {lines : List Text} (h : l.stop ≤ lines.length) :
    (l.linesOf lines).getLast? = lines[l.stop - 1]? := by
  have h1 := l.one_le_start
  have h2 := l.start_le_stop
  rw [List.getLast?_eq_getElem?, length_linesOf h, linesOf,
    List.getElem?_take_of_lt (by have := l.one_le_lineCount; omega), List.getElem?_drop, lineCount]
  congr 1
  omega

/-- The text of a location that ends in a line with a character has as many lines as the
location. -/
theorem lineCount_linesOf {l : Location} {t : Text} (h : IsFilled t.lines l.stop) :
    (Text.joinLines (l.linesOf t.lines)).lineCount = l.lineCount := by
  obtain ⟨-, last, hlast, hne⟩ := id h
  rw [← getLast?_linesOf h.le_length] at hlast
  rw [Text.lineCount_joinLines
    (fun _ hm => Text.newline_notMem_of_mem_lines (mem_of_mem_linesOf hm)) hlast hne,
    length_linesOf h.le_length]

end Location

/-- Lines cut out by number are those of the location with the same ends. -/
theorem sliceLines_eq_linesOf (lines : List Text) {start : Nat} (h : 1 ≤ start) (stop : Nat) :
    sliceLines lines (start - 1) (stop - 1) =
      Text.joinLines ((Location.clamped start stop).linesOf lines) := by
  have hstart : max start 1 = start := by omega
  have hcount : max (stop - 1) (start - 1) + 1 - (start - 1) = max stop start - start + 1 := by
    omega
  rw [sliceLines, Location.linesOf, Location.lineCount, Location.clamped]
  simp only [hstart, hcount]

end Outline

import Outline.Language.BlockEnd
import Outline.Proofs.Markdown.HeadingLine

/-!
# Lines and block ends without a place out of range

Subtraction of natural numbers stops at zero, and taking more of a list than there is takes what
there is, so a computation with places in a text always gives a result, also when a place in it
is wrong.  The strict form of a computation makes this visible: a difference below zero, an index
behind the end and a range that is not inside the list give `none`, and so does everything built
upon them.  A strict form that equals `some` of the plain one says two things at once: none of
its places is ever out of range, and the plain form computes what it seems to.

This module has the strict form of the steps (`sub?`, `range?`, and `l[i]?` of the library) and of
the line arithmetic that everything else is built upon.  Each bound comes from somewhere else: the
scans clamp the line they begin on, a blank line that ends a construct comes after its first line,
and the line of a heading is at least one because it is the line of a place in the text.

* `lineAt?_eq`, `sliceLines?_eq`: places and lines, for all arguments.
* `blockEnd?_eq`: the end of a construct, for all arguments.
* `sections?_eq`: the sections of a Markdown text.
-/

namespace Outline.Strict

variable {α β : Type}

/-! ## Steps -/

/-- The difference of two numbers, if it is not below zero. -/
def sub? (a b : Nat) : Option Nat := if b ≤ a then some (a - b) else none

theorem sub?_of_le {a b : Nat} (h : b ≤ a) : sub? a b = some (a - b) := if_pos h

/-- The entries of a list from one place up to another, if both are places of the list and in
order. -/
def range? (l : List α) (start stop : Nat) : Option (List α) :=
  if start ≤ stop ∧ stop ≤ l.length then some ((l.drop start).take (stop - start)) else none

theorem range?_of_le {l : List α} {start stop : Nat} (hle : start ≤ stop)
    (hstop : stop ≤ l.length) : range? l start stop = some ((l.drop start).take (stop - start)) :=
  if_pos ⟨hle, hstop⟩

theorem range?_zero {l : List α} {stop : Nat} (h : stop ≤ l.length) :
    range? l 0 stop = some (l.take stop) :=
  range?_of_le (Nat.zero_le stop) h

theorem range?_length {l : List α} {start : Nat} (h : start ≤ l.length) :
    range? l start l.length = some (l.drop start) := by
  rw [range?_of_le h (Nat.le_refl _), List.take_of_length_le (Nat.le_of_eq List.length_drop)]

/-- The strict form fails where the plain one stops at the border. -/
example : sub? 0 1 = none ∧ range? ['a'] 0 2 = none ∧ range? ['a'] 1 0 = none := by decide

/-- A list of steps that all give a result. -/
theorem mapM_eq_some {f : α → Option β} {g : α → β} :
    ∀ {l : List α}, (∀ a ∈ l, f a = some (g a)) → l.mapM f = some (l.map g)
  | [], _ => rfl
  | a :: l, h => by
    obtain ⟨hhead, htail⟩ := List.forall_mem_cons.mp h
    rw [List.mapM_cons, hhead, mapM_eq_some htail]
    rfl

/-- The entries that the steps for a list give. -/
def flatMap? (f : α → Option (List β)) (l : List α) : Option (List β) :=
  (l.mapM f).map List.flatten

theorem flatMap?_eq {f : α → Option (List β)} {g : α → List β} {l : List α}
    (h : ∀ a ∈ l, f a = some (g a)) : flatMap? f l = some (l.flatMap g) := by
  rw [flatMap?, mapM_eq_some h]
  rfl

/-- The entries that the steps for a list give where they give one. -/
def filterMap? (f : α → Option (Option β)) (l : List α) : Option (List β) :=
  (l.mapM f).map (List.filterMap id)

theorem filterMap?_eq {f : α → Option (Option β)} {g : α → Option β} {l : List α}
    (h : ∀ a ∈ l, f a = some (g a)) : filterMap? f l = some (l.filterMap g) := by
  rw [filterMap?, mapM_eq_some h, Option.map_some, List.filterMap_map, Function.id_comp]

/-- Keeping some entries and changing them is one step for each. -/
theorem map_filter (f : α → β) (p : α → Bool) (l : List α) :
    (l.filter p).map f = l.filterMap fun a => if p a then some (f a) else none := by
  rw [← List.filterMap_eq_map, List.filterMap_filter]
  rfl

/-! ## Lines -/

/-- The line of a place: what stands before the place is cut off, at the end of the text at the
latest. -/
def lineAt? (t : Text) (index : Nat) : Option Nat := do
  let before ← range? t 0 (min index t.length)
  return Text.newlines before + 1

@[simp] theorem lineAt?_eq (t : Text) (index : Nat) : lineAt? t index = some (t.lineAt index) := by
  have htake : t.take (min index t.length) = t.take index := by
    rw [List.take_eq_take_iff, Nat.min_assoc, Nat.min_self]
  rw [lineAt?, range?_zero (Nat.min_le_right _ _), htake]
  rfl

/-- The lines from one to another, both counted from zero and the last one moved into the list. -/
def sliceLines? (lines : List Text) (start stop : Nat) : Option Text :=
  if lines.isEmpty ∨ lines.length ≤ start then some []
  else do
    let last ← sub? lines.length 1
    let piece ← range? lines start (max (min stop last) start + 1)
    return Text.joinLines piece

@[simp] theorem sliceLines?_eq (lines : List Text) (start stop : Nat) :
    sliceLines? lines start stop = some (sliceLines lines start stop) := by
  rw [sliceLines?, sliceLines]
  split
  case isTrue h =>
    have hstart : lines.length ≤ start := by
      rcases h with h | h
      · rw [List.isEmpty_iff.mp h]
        exact Nat.zero_le start
      · exact h
    rw [List.drop_eq_nil_of_le hstart, List.take_nil]
    rfl
  case isFalse h =>
    have hstart : start < lines.length := Nat.lt_of_not_le fun hle => h (Or.inr hle)
    -- the plain form asks for more lines than there are where this one stops at the last
    have htake : (lines.drop start).take (max (min stop (lines.length - 1)) start + 1 - start) =
        (lines.drop start).take (max stop start + 1 - start) := by
      rw [List.take_eq_take_iff, List.length_drop]
      omega
    rw [sub?_of_le (by omega)]
    simp only [Option.bind_eq_bind, Option.bind_some]
    rw [range?_of_le (by omega) (by omega), htake]
    rfl

/-! ## Block ends -/

/-- The end of a brace block among the lines from index `i` on.  The line before a blank one is
asked for only behind the line `start` on which the block begins. -/
def braceScan? (start i : Nat) (b : BraceCount) : List Text → Option (Option Nat)
  | [] => some none
  | line :: rest =>
    if !b.opened && decide (start < i) && line.isBlank then (sub? i 1).map some
    else
      let b := b.scan line
      if b.opened && b.balance ≤ 0 then some (some i)
      else if !b.opened && endsInSemicolon line then some (some i)
      else braceScan? start (i + 1) b rest

theorem braceScan?_eq (start : Nat) : ∀ (lines : List Text) {i : Nat} (b : BraceCount),
    start ≤ i → braceScan? start i b lines = some (braceScan i (decide (i = start)) b lines)
  | [], _, _, _ => rfl
  | line :: rest, i, b, h => by
    have hfirst : (!decide (i = start)) = decide (start < i) := by
      rw [← decide_not, decide_eq_decide]
      omega
    have hnext : decide (i + 1 = start) = false := decide_eq_false (by omega)
    have ih := braceScan?_eq start rest (b.scan line) (Nat.le_succ_of_le h)
    rw [hnext] at ih
    rw [braceScan?, braceScan, hfirst]
    split
    case isTrue hblank =>
      -- the blank line is behind `start`, so there is a line before it
      simp only [Bool.and_eq_true, decide_eq_true_eq] at hblank
      rw [sub?_of_le (by omega)]
      rfl
    case isFalse =>
      simp only
      split
      · rfl
      split
      · rfl
      exact ih

/-- The end of an indented block, whose first line is looked up. -/
def indentationBlockEnd? (lines : List Text) (start : Nat) : Option Nat := do
  let header ← lines[start]?
  return indentationScan (indentWidth header) (start + 1) (bracketDelta header) start
    (lines.drop (start + 1))

theorem indentationBlockEnd?_eq {lines : List Text} {start : Nat} (h : start < lines.length) :
    indentationBlockEnd? lines start = some (indentationBlockEnd lines start) := by
  rw [indentationBlockEnd?, indentationBlockEnd, List.getElem?_eq_getElem h,
    List.drop_eq_getElem_cons h]
  rfl

/-- The line before the first blank line behind `start`, or the last line, which is found before
it is known whether it is needed. -/
def blankLineEnd? (lines : List Text) (start : Nat) : Option Nat := do
  let last ← sub? lines.length 1
  match (lines.drop (start + 1)).findIdx? Text.isBlank with
  | some k => sub? (start + 1 + k) 1
  | none => return last

theorem blankLineEnd?_eq {lines : List Text} {start : Nat} (h : start < lines.length) :
    blankLineEnd? lines start = some (blankLineEnd lines start) := by
  rw [blankLineEnd?, sub?_of_le (by omega), blankLineEnd, List.takeWhile_eq_take_findIdx_not]
  simp only [Option.bind_eq_bind, Option.bind_some, Bool.not_not]
  cases hk : (lines.drop (start + 1)).findIdx? Text.isBlank with
  | some k =>
    obtain ⟨hlt, hidx⟩ := List.findIdx?_eq_some_iff_findIdx_eq.mp hk
    simp only [hidx]
    rw [sub?_of_le (by omega), List.length_take]
    congr 1
    omega
  | none =>
    have hidx := List.findIdx_eq_length.mpr (List.findIdx?_eq_none_iff.mp hk)
    rw [hidx, List.take_length, List.length_drop]
    exact congrArg some (by omega)

/-- The last line of a construct. -/
def blockEnd? (lines : List Text) (start : Nat) (style : BlockStyle) : Option Nat :=
  if lines.isEmpty then some 0
  else do
    let last ← sub? lines.length 1
    let start := min start last
    match style with
    | .braces =>
      match ← braceScan? start start .zero (lines.drop start) with
      | some stop => return stop
      | none => blankLineEnd? lines start
    | .indentation | .document => indentationBlockEnd? lines start
    | .endKeyword =>
      match endKeywordBlockEnd? lines start with
      | some stop => return stop
      | none => blankLineEnd? lines start
    | .markdown => blankLineEnd? lines start

@[simp] theorem blockEnd?_eq (lines : List Text) (start : Nat) (style : BlockStyle) :
    blockEnd? lines start style = some (blockEnd lines start style) := by
  rw [blockEnd?, blockEnd]
  split
  case isTrue => rfl
  case isFalse h =>
    have hpos : 0 < lines.length := List.length_pos_iff.mpr fun hnil => h (by rw [hnil]; rfl)
    have hlt : min start (lines.length - 1) < lines.length := by omega
    have hbrace := braceScan?_eq (min start (lines.length - 1))
      (lines.drop (min start (lines.length - 1))) .zero (Nat.le_refl _)
    rw [decide_eq_true rfl, ← braceBlockEnd?] at hbrace
    rw [sub?_of_le hpos]
    simp only [Option.bind_eq_bind, Option.bind_some]
    cases style with
    | braces =>
      simp only [hbrace, Option.bind_some]
      cases braceBlockEnd? lines (min start (lines.length - 1)) with
      | some stop => rfl
      | none => exact blankLineEnd?_eq hlt
    | endKeyword =>
      cases endKeywordBlockEnd? lines (min start (lines.length - 1)) with
      | some stop => rfl
      | none => exact blankLineEnd?_eq hlt
    | indentation => exact indentationBlockEnd?_eq hlt
    | document => exact indentationBlockEnd?_eq hlt
    | markdown => exact blankLineEnd?_eq hlt

/-! ## Sections -/

/-- The line before the next heading of the same or a higher rank, or the last line. -/
def governedEnd? (lineCount : Nat) (h : Markdown.Heading) (later : List Markdown.Heading) :
    Option Nat :=
  match later.find? fun next => next.level ≤ h.level with
  | some next => sub? next.line 1
  | none => some lineCount

/-- The last line up to `stop` that is not blank; the line before `stop` is looked at only while
`stop` is behind `start`. -/
def lastFilledLine? (lines : List Text) (start : Nat) : Nat → Option Nat
  | 0 => some 0
  | stop + 1 =>
    if start < stop + 1 then do
      -- the index of the line, and the end that is tried next
      let before ← sub? (stop + 1) 1
      if (lines[before]?).any Text.isBlank then lastFilledLine? lines start stop
      else return stop + 1
    else some (stop + 1)

theorem lastFilledLine?_eq (lines : List Text) (start : Nat) : ∀ stop : Nat,
    lastFilledLine? lines start stop = some (Markdown.lastFilledLine lines start stop)
  | 0 => rfl
  | stop + 1 => by
    rw [lastFilledLine?, Markdown.lastFilledLine]
    by_cases hstart : start < stop + 1
    · rw [if_pos hstart, sub?_of_le (Nat.le_add_left 1 stop), lastFilledLine?_eq lines start stop]
      simp only [Option.bind_eq_bind, Option.bind_some, Nat.add_sub_cancel, hstart, true_and]
      split
      · rfl
      · rfl
    · rw [if_neg hstart, if_neg fun h => hstart h.1]

/-- The section of the heading at a place in the list of all headings; the later ones are cut off
behind it. -/
def sectionAt? (lines : List Text) (all : List Markdown.Heading) (h : Markdown.Heading)
    (place : Nat) : Option Markdown.Section := do
  let later ← range? all (place + 1) all.length
  let next ← governedEnd? lines.length h later
  let stop ← lastFilledLine? lines h.line (max next h.line)
  return ⟨h.level, h.title, h.line, stop⟩

/-- The sections of a Markdown text. -/
def sections? (t : Text) (reader : Text → List Markdown.Heading) :
    Option (List Markdown.Section) :=
  (reader t).zipIdx.mapM fun (h, place) => sectionAt? t.lines (reader t) h place

theorem sectionAt?_eq {lines : List Text} {before later : List Markdown.Heading}
    (h : Markdown.Heading) (hlater : ∀ next ∈ later, 1 ≤ next.line) :
    sectionAt? lines (before ++ h :: later) h before.length = some ⟨h.level, h.title, h.line,
      Markdown.lastFilledLine lines h.line
        (max (Markdown.governedEnd lines.length h later) h.line)⟩ := by
  have hdrop : (before ++ h :: later).drop (before.length + 1) = later := by
    rw [← List.drop_drop, List.drop_left, List.drop_one, List.tail_cons]
  have hgoverned : governedEnd? lines.length h later =
      some (Markdown.governedEnd lines.length h later) := by
    rw [governedEnd?, Markdown.governedEnd]
    cases hnext : later.find? fun next => next.level ≤ h.level with
    | some next => exact sub?_of_le (hlater next (List.mem_of_find?_eq_some hnext))
    | none => rfl
  rw [sectionAt?, range?_length (by simp), hdrop]
  simp only [Option.bind_eq_bind, Option.bind_some, hgoverned, lastFilledLine?_eq]
  rfl

/-- The sections one after the other: the headings before the ones that are left are those that
were passed. -/
theorem mapM_sectionAt?_eq (lines : List Text) : ∀ (rest before : List Markdown.Heading),
    (∀ h ∈ rest, 1 ≤ h.line) →
    ((rest.zipIdx before.length).mapM fun (h, place) =>
      sectionAt? lines (before ++ rest) h place) = some (Markdown.sectionsOf lines rest)
  | [], _, _ => rfl
  | h :: later, before, hline => by
    obtain ⟨-, hlater⟩ := List.forall_mem_cons.mp hline
    -- the heading moves over to those that were passed
    have ih := mapM_sectionAt?_eq lines later (before ++ [h]) hlater
    rw [List.length_append, List.length_singleton, List.append_assoc, List.singleton_append] at ih
    rw [List.zipIdx_cons, List.mapM_cons, ih]
    simp only [sectionAt?_eq h hlater]
    rfl

theorem sections?_eq {t : Text} {reader : Text → List Markdown.Heading}
    (hreader : Markdown.FindsPlaces reader t) :
    sections? t reader = some (Markdown.sections t reader) :=
  mapM_sectionAt?_eq t.lines (reader t) [] fun _ => hreader.one_le_line

end Outline.Strict

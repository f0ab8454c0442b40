import Mathlib.Logic.Basic
import Outline.Check.Bracket
import Outline.Proofs.Text.Lines

/-!
# Code, comments and quotes

Only brackets in code are matched; those in comments, in strings and in character literals are text
like any other.  What belongs to what is said here by a grammar, without a scan: `Lexeme.Stands`
tells for each sort of piece which characters it consists of, and on what the piece behind it may
begin where that matters.  A line comment ends before the line feed.  A string ends at its mark, or
before a line feed, or with the text; a backslash in it belongs to the next character, except that
a line feed cannot be escaped in this way, since the string ends there, unless its marks are
backquotes.  Every text is read into such pieces (`exists_reads`).

The scan of `bracketsFrom` goes by single characters and remembers what it is inside of.  One piece
after the other it comes back to code just where the piece ends (`Lexeme.Stands.bracketsAfter_eq`),
so that it finds the brackets among the pieces (`Reads.brackets_eq`).  The lemmas keep the text that
has been passed rather than a line and a column; a character that is passed over without a look
counts as one of the same line, even if it is a line feed (`inRow`).

* `Lexeme`, `Lexeme.Stands`, `Reads`: the grammar.
* `bracketsAfter`: the scan behind a given text.
* `placedBrackets`: the brackets among the pieces, with their places.
-/

namespace Outline

open Text

/-! ## Pieces of a text -/

/-- A piece of a text: a character of code, or several characters that belong together. -/
inductive Lexeme where
  | plain (c : Char)
  | comment (run : Text)
  | quoted (run : Text)
  | literal (run : Text)
  deriving DecidableEq, Repr

/-- A bracket of one of the three sorts. -/
def IsBracket (c : Char) : Prop := isOpening c = true ∨ isClosing c = true

instance (c : Char) : Decidable (IsBracket c) := inferInstanceAs (Decidable (_ ∨ _))

namespace Lexeme

/-- The characters of a piece. -/
def text : Lexeme → Text
  | .plain c => [c]
  | .comment run | .quoted run | .literal run => run

/-- The bracket that a piece of code is. -/
def bracket? : Lexeme → Option Char
  | .plain c => if IsBracket c then some c else none
  | _ => none

end Lexeme

/-- A character that begins a string. -/
def IsMark (q : QuoteRules) (c : Char) : Prop :=
  c = '"' ∨ c = '\x60' ∨ (c = '\'' ∧ q.charLiterals = false)

/-- What a string consists of behind its first mark, when `rest` comes behind it. -/
inductive QuotedRun (mark : Char) : (run rest : Text) → Prop
  | closed {rest : Text} : QuotedRun mark [mark] rest
  | cut {slash rest : Text} (hslash : slash = [] ∨ slash = ['\\'])
      (hrest : rest = [] ∨ rest.head? = some '\n' ∧ mark ≠ '\x60') : QuotedRun mark slash rest
  | escape {c : Char} {run rest : Text} (hline : c ≠ '\n' ∨ mark = '\x60')
      (h : QuotedRun mark run rest) : QuotedRun mark ('\\' :: c :: run) rest
  | char {c : Char} {run rest : Text} (hmark : c ≠ mark) (hslash : c ≠ '\\')
      (hline : c ≠ '\n' ∨ mark = '\x60') (h : QuotedRun mark run rest) :
      QuotedRun mark (c :: run) rest

/-- The inside of a character literal: one character, or a backslash and one. -/
def IsLiteralBody (body : Text) : Prop :=
  (∃ c, body = ['\\', c]) ∨ ∃ c, c ≠ '\\' ∧ body = [c]

/-- What begins a line comment. -/
def IsCommentMark (q : QuoteRules) (mark : Text) : Prop :=
  mark = ['/', '/'] ∨ (mark = ['#'] ∧ q.hashComments = true)

/-- A character that stands for itself: it begins neither a comment, nor a string, nor a character
literal. -/
structure IsPlain (q : QuoteRules) (c : Char) (rest : Text) : Prop where
  slash : c = '/' → rest.head? ≠ some '/' ∧ rest.head? ≠ some '*'
  hash : c = '#' → q.hashComments = false
  mark : ¬ IsMark q c
  quote : c = '\'' → ∀ body after, IsLiteralBody body → rest ≠ body ++ '\'' :: after

theorem isPlain_of_notMem {q : QuoteRules} {c : Char}
    (h : c ∉ ['/', '#', '"', '\x60', '\'']) (rest : Text) : IsPlain q c rest := by
  simp only [List.mem_cons, List.not_mem_nil, or_false, not_or] at h
  obtain ⟨hslash, hhash, hdouble, hback, hquote⟩ := h
  refine ⟨fun hc => absurd hc hslash, fun hc => absurd hc hhash, ?_, fun hc => absurd hc hquote⟩
  rintro (hc | hc | ⟨hc, -⟩)
  · exact hdouble hc
  · exact hback hc
  · exact hquote hc

/-- The pieces that a text can begin with, when `rest` comes behind them. -/
inductive Lexeme.Stands (q : QuoteRules) : Lexeme → Text → Prop
  | lineComment {mark body rest : Text} (hmark : IsCommentMark q mark) (hbody : '\n' ∉ body)
      (hrest : rest = [] ∨ rest.head? = some '\n') : Stands q (.comment (mark ++ body)) rest
  | blockComment {body rest : Text} (hbody : ¬ ['*', '/'] <:+: body) :
      Stands q (.comment ('/' :: '*' :: (body ++ ['*', '/']))) rest
  | openComment {body : Text} (hbody : ¬ ['*', '/'] <:+: body) :
      Stands q (.comment ('/' :: '*' :: body)) []
  | quoted {mark : Char} {run rest : Text} (hmark : IsMark q mark)
      (hrun : QuotedRun mark run rest) : Stands q (.quoted (mark :: run)) rest
  | literal {body rest : Text} (hq : q.charLiterals = true) (hbody : IsLiteralBody body) :
      Stands q (.literal ('\'' :: (body ++ ['\'']))) rest
  | plain {c : Char} {rest : Text} (h : IsPlain q c rest) : Stands q (.plain c) rest

/-- A text is read into pieces. -/
inductive Reads (q : QuoteRules) : Text → List Lexeme → Prop
  | nil : Reads q [] []
  | cons {l : Lexeme} {rest : Text} {ls : List Lexeme} (hl : l.Stands q rest)
      (hls : Reads q rest ls) : Reads q (l.text ++ rest) (l :: ls)

theorem Reads.flatMap_text {q : QuoteRules} {content : Text} {ls : List Lexeme}
    (h : Reads q content ls) : ls.flatMap Lexeme.text = content := by
  induction h with
  | nil => rfl
  | cons _ _ ih => rw [List.flatMap_cons, ih]

/-! ## Every text can be read -/

section Existence

variable {q : QuoteRules}

/-- A comment goes on to its first end, or to the end of the text. -/
theorem exists_blockComment (t : Text) : ∃ run rest, t = run ++ rest ∧
    (Lexeme.comment ('/' :: '*' :: run)).Stands q rest := by
  by_cases h : ['*', '/'] <:+: t
  · have hfirst : ∃ body rest, t = body ++ ['*', '/'] ++ rest ∧ ¬ ['*', '/'] <:+: body := by
      induction t with
      | nil => exact absurd (List.infix_nil.mp h) (by decide)
      | cons c cs ih =>
        by_cases hpre : ['*', '/'] <+: c :: cs
        · obtain ⟨rest, hrest⟩ := hpre
          exact ⟨[], rest, hrest.symm, by simp⟩
        · obtain ⟨body, rest, rfl, hbody⟩ := ih ((List.infix_cons_iff.mp h).resolve_left hpre)
          refine ⟨c :: body, rest, rfl, fun hmem => ?_⟩
          rcases List.infix_cons_iff.mp hmem with hmem | hmem
          · refine hpre (hmem.trans ?_)
            rw [List.append_assoc, ← List.cons_append]
            exact List.prefix_append _ _
          · exact hbody hmem
    obtain ⟨body, rest, rfl, hbody⟩ := hfirst
    exact ⟨_, rest, rfl, .blockComment hbody⟩
  · exact ⟨t, [], (List.append_nil t).symm, .openComment h⟩

/-- A string goes on to its mark, to the end of its line or to the end of the text. -/
theorem exists_quotedRun (mark : Char) : ∀ t : Text, ∃ run rest,
    t = run ++ rest ∧ QuotedRun mark run rest
  | [] => ⟨[], [], rfl, .cut (Or.inl rfl) (Or.inl rfl)⟩
  | c :: cs => by
    have hcut : ∀ d : Char, ¬ (d ≠ '\n' ∨ mark = '\x60') → d = '\n' ∧ mark ≠ '\x60' := by
      intro d hd
      rwa [not_or, not_not] at hd
    by_cases hmark : c = mark
    · exact ⟨[mark], cs, by rw [hmark]; rfl, .closed⟩
    · by_cases hslash : c = '\\'
      · subst hslash
        cases cs with
        | nil => exact ⟨['\\'], [], rfl, .cut (Or.inr rfl) (Or.inl rfl)⟩
        | cons d ds =>
          by_cases hline : d ≠ '\n' ∨ mark = '\x60'
          · obtain ⟨run, rest, rfl, hrun⟩ := exists_quotedRun mark ds
            exact ⟨'\\' :: d :: run, rest, rfl, .escape hline hrun⟩
          · obtain ⟨rfl, hback⟩ := hcut d hline
            exact ⟨['\\'], _, rfl, .cut (Or.inr rfl) (Or.inr ⟨rfl, hback⟩)⟩
      · by_cases hline : c ≠ '\n' ∨ mark = '\x60'
        · obtain ⟨run, rest, rfl, hrun⟩ := exists_quotedRun mark cs
          exact ⟨c :: run, rest, rfl, .char hmark hslash hline hrun⟩
        · obtain ⟨rfl, hback⟩ := hcut c hline
          exact ⟨[], _, rfl, .cut (Or.inl rfl) (Or.inr ⟨rfl, hback⟩)⟩

/-- A line comment goes on to the next line feed. -/
theorem exists_lineComment {mark : Text} (hmark : IsCommentMark q mark) (t : Text) :
    ∃ run rest, t = run ++ rest ∧ (Lexeme.comment (mark ++ run)).Stands q rest := by
  refine ⟨t.takeWhile (· != '\n'), t.dropWhile (· != '\n'), ?_, .lineComment hmark ?_ ?_⟩
  · rw [List.takeWhile_append_dropWhile]
  · intro hmem
    have hall := List.all_eq_true.mp (List.all_takeWhile (p := (· != '\n')) (l := t)) _ hmem
    exact absurd hall (by decide)
  · have hhead := List.head?_dropWhile_not (· != '\n') t
    cases h : t.dropWhile (· != '\n') with
    | nil => exact Or.inl rfl
    | cons c cs =>
      rw [h] at hhead
      exact Or.inr (by simpa using hhead)

theorem Lexeme.Stands.text_ne_nil {l : Lexeme} {rest : Text} (h : l.Stands q rest) :
    l.text ≠ [] := by
  cases h with
  | lineComment hmark =>
    rcases hmark with rfl | ⟨rfl, -⟩
    · exact List.cons_ne_nil _ _
    · exact List.cons_ne_nil _ _
  | _ => exact List.cons_ne_nil _ _

/-- Every text that is not empty begins with a piece. -/
theorem exists_stands (q : QuoteRules) (c : Char) (cs : Text) : ∃ l : Lexeme, ∃ rest,
    c :: cs = l.text ++ rest ∧ l.Stands q rest := by
  by_cases hslash : c = '/' ∧ (cs.head? = some '/' ∨ cs.head? = some '*')
  · obtain ⟨rfl, hnext⟩ := hslash
    rcases hnext with hnext | hnext
    · obtain ⟨t, rfl⟩ := List.head?_eq_some_iff.mp hnext
      obtain ⟨run, rest, rfl, hl⟩ := exists_lineComment (q := q) (Or.inl rfl) t
      exact ⟨_, rest, rfl, hl⟩
    · obtain ⟨t, rfl⟩ := List.head?_eq_some_iff.mp hnext
      obtain ⟨run, rest, rfl, hl⟩ := exists_blockComment (q := q) t
      exact ⟨_, rest, rfl, hl⟩
  · by_cases hhash : c = '#' ∧ q.hashComments = true
    · obtain ⟨rfl, hq⟩ := hhash
      obtain ⟨run, rest, rfl, hl⟩ := exists_lineComment (q := q) (Or.inr ⟨rfl, hq⟩) cs
      exact ⟨_, rest, rfl, hl⟩
    · by_cases hmark : IsMark q c
      · obtain ⟨run, rest, rfl, hrun⟩ := exists_quotedRun c cs
        exact ⟨_, rest, rfl, .quoted hmark hrun⟩
      · by_cases hquote : c = '\'' ∧ ∃ body after, IsLiteralBody body ∧ cs = body ++ '\'' :: after
        · obtain ⟨rfl, body, after, hbody, rfl⟩ := hquote
          have hq : q.charLiterals = true :=
            eq_true_of_ne_false fun hq => hmark (Or.inr (Or.inr ⟨rfl, hq⟩))
          exact ⟨_, after, by simp [Lexeme.text], .literal hq hbody⟩
        · refine ⟨.plain c, cs, rfl, .plain ⟨fun hc => ?_, fun hc => ?_,
            hmark, fun hc body after hbody hcs => ?_⟩⟩
          · rw [Ne, Ne, ← not_or]
            exact fun hnext => hslash ⟨hc, hnext⟩
          · exact eq_false_of_ne_true fun hq => hhash ⟨hc, hq⟩
          · exact hquote ⟨hc, body, after, hbody, hcs⟩

theorem exists_reads (q : QuoteRules) : ∀ t : Text, ∃ ls, Reads q t ls
  | [] => ⟨[], .nil⟩
  | c :: cs => by
    obtain ⟨l, rest, htext, hl⟩ := exists_stands q c cs
    have hlength : rest.length < cs.length + 1 := by
      have h := congrArg List.length htext
      have hpos := List.length_pos_iff.mpr hl.text_ne_nil
      rw [List.length_append, List.length_cons] at h
      omega
    obtain ⟨ls, hls⟩ := exists_reads q rest
    exact ⟨l :: ls, htext ▸ .cons hl hls⟩
termination_by t => t.length

end Existence

/-! ## The scan behind a text -/

namespace Text

/-- A text without line feeds goes on in the same line. -/
theorem lastPart_append {u : Text} (hu : newlines u = 0) : ∀ t : Text,
    lastPart (t ++ u) = lastPart t ++ u
  | [] => lastPart_eq_self hu
  | c :: t => by
    have hcount : newlines (c :: t ++ u) = newlines (c :: t) := by
      rw [newlines_append, hu, Nat.add_zero]
    by_cases h : newlines (c :: t) = 0
    · rw [lastPart_eq_self h, lastPart_eq_self (hcount.trans h)]
    · rw [List.cons_append, lastPart_cons (hcount ▸ h), lastPart_cons h, lastPart_append hu t]

theorem newlines_singleton {c : Char} (hc : c ≠ '\n') : newlines [c] = 0 :=
  newlines_eq_zero fun h => hc (List.mem_singleton.mp h).symm

end Text

/-- The brackets that count in a text with another text before it. -/
def bracketsAfter (q : QuoteRules) (state : ScanState) (skip : Nat) (pre t : Text) :
    List Bracket :=
  bracketsFrom q state skip (newlines pre + 1) (lastPart pre).length t

/-- A bracket behind a text. -/
def Bracket.behind (pre : Text) (mark : Char) : Bracket :=
  ⟨mark, newlines pre + 1, (lastPart pre).length + 1⟩

/-- A character as it is counted when it is passed over: a line feed does not end the line then. -/
def inRow (c : Char) : Char := if c = '\n' then ' ' else c

theorem inRow_ne_newline (c : Char) : inRow c ≠ '\n' := by
  rw [inRow]
  split
  · decide
  · assumption

theorem inRow_eq_self {c : Char} (hc : c ≠ '\n') : inRow c = c := if_neg hc

section Scan

variable (q : QuoteRules) (state : ScanState)

theorem bracketsAfter_nil (pre : Text) : bracketsAfter q state 0 pre [] = [] := by
  rw [bracketsAfter, bracketsFrom]

/-- Characters that are passed over without a look. -/
theorem bracketsAfter_skip (t : Text) : ∀ pre run : Text,
    bracketsAfter q state run.length pre (run ++ t) =
      bracketsAfter q state 0 (pre ++ run.map inRow) t
  | pre, [] => by rw [List.map_nil, List.append_nil]; rfl
  | pre, c :: run => by
    have hc := inRow_ne_newline c
    have ih := bracketsAfter_skip t (pre ++ [inRow c]) run
    rw [List.append_assoc, List.singleton_append] at ih
    rw [List.map_cons, ← ih, bracketsAfter, bracketsAfter, List.length_cons, List.cons_append,
      bracketsFrom, newlines_append, newlines_singleton hc, lastPart_append (newlines_singleton hc),
      List.length_append]
    rfl

/-- One character. -/
theorem bracketsAfter_cons (pre : Text) (c : Char) (t : Text) :
    bracketsAfter q state 0 pre (c :: t) =
      (if state = .code ∧ IsBracket c then [Bracket.behind pre c] else []) ++
        bracketsAfter q (state.step q c t).1 (state.step q c t).2 (pre ++ [c]) t := by
  have hmore : bracketsAfter q (state.step q c t).1 (state.step q c t).2 (pre ++ [c]) t =
      if c = '\n' then
        bracketsFrom q (state.step q c t).1 (state.step q c t).2 (newlines pre + 1 + 1) 0 t
      else bracketsFrom q (state.step q c t).1 (state.step q c t).2 (newlines pre + 1)
        ((lastPart pre).length + 1) t := by
    rw [bracketsAfter, newlines_append]
    split
    · rename_i hc
      subst hc
      rw [lastPart_append_newline]
      rfl
    · rename_i hc
      rw [newlines_singleton hc, lastPart_append (newlines_singleton hc), List.length_append]
      rfl
  rw [hmore, bracketsAfter, bracketsFrom]
  by_cases h : state = .code ∧ IsBracket c
  · rw [if_pos h]
    exact if_pos h
  · rw [if_neg h]
    exact if_neg h

/-- A character that is not a bracket of code, with nothing passed over behind it. -/
theorem bracketsAfter_cons_of_step {next : ScanState} {pre : Text} {c : Char} {t : Text}
    (hc : ¬ (state = .code ∧ IsBracket c)) (hstep : state.step q c t = (next, 0)) :
    bracketsAfter q state 0 pre (c :: t) = bracketsAfter q next 0 (pre ++ [c]) t := by
  rw [bracketsAfter_cons, if_neg hc, hstep, List.nil_append]

/-- A character that is not a bracket of code, with one character passed over behind it. -/
theorem bracketsAfter_cons_cons_of_step {next : ScanState} {pre : Text} {c d : Char} {t : Text}
    (hc : ¬ (state = .code ∧ IsBracket c)) (hstep : state.step q c (d :: t) = (next, 1))
    (hd : d ≠ '\n') : bracketsAfter q state 0 pre (c :: d :: t) =
      bracketsAfter q next 0 (pre ++ [c, d]) t := by
  have hskip := bracketsAfter_skip q next t (pre ++ [c]) [d]
  rw [List.map_singleton, inRow_eq_self hd, List.append_assoc] at hskip
  rw [bracketsAfter_cons, if_neg hc, hstep, List.nil_append]
  exact hskip

end Scan

/-! ## Piece by piece -/

section Pieces

variable {q : QuoteRules} {pre : Text}

/-- What a line feed ends is left at the line feed, or with the text. -/
theorem bracketsAfter_lineEnd {state : ScanState} (hstate : state ≠ .code) {t : Text}
    (ht : t = [] ∨ t.head? = some '\n' ∧ ∀ rest, state.step q '\n' rest = (.code, 0)) (pre : Text) :
    bracketsAfter q state 0 pre t = bracketsAfter q .code 0 pre t := by
  rcases ht with rfl | ⟨ht, hstep⟩
  · rw [bracketsAfter_nil, bracketsAfter_nil]
  · obtain ⟨rest, rfl⟩ := List.head?_eq_some_iff.mp ht
    rw [bracketsAfter_cons_of_step q state (fun h => hstate h.1) (hstep rest),
      bracketsAfter_cons_of_step q .code (by decide) rfl]

theorem bracketsAfter_lineComment {t : Text} (ht : t = [] ∨ t.head? = some '\n') :
    ∀ {pre run : Text}, '\n' ∉ run → bracketsAfter q .lineComment 0 pre (run ++ t) =
      bracketsAfter q .code 0 (pre ++ run) t
  | pre, [], _ => by
    rw [List.nil_append, List.append_nil]
    exact bracketsAfter_lineEnd (by simp) (ht.imp_right fun h => ⟨h, fun _ => rfl⟩) pre
  | pre, c :: run, h => by
    rw [List.mem_cons, not_or] at h
    have hstep : ScanState.lineComment.step q c (run ++ t) = (.lineComment, 0) := by
      rw [ScanState.step, if_neg (Ne.symm h.1)]
    rw [List.cons_append, bracketsAfter_cons_of_step q .lineComment (by simp) hstep,
      bracketsAfter_lineComment ht h.2, List.append_assoc, List.singleton_append]

/-- A comment without an end in it goes on. -/
theorem bracketsAfter_blockComment {t : Text} (ht : t.head? ≠ some '/') :
    ∀ {pre body : Text}, ¬ ['*', '/'] <:+: body →
      bracketsAfter q .blockComment 0 pre (body ++ t) =
        bracketsAfter q .blockComment 0 (pre ++ body) t
  | pre, [], _ => by rw [List.nil_append, List.append_nil]
  | pre, c :: body, h => by
    have hstep : ScanState.blockComment.step q c (body ++ t) = (.blockComment, 0) := by
      rw [ScanState.step, if_neg]
      rintro ⟨rfl, hnext⟩
      cases body with
      | nil => exact ht hnext
      | cons d body =>
        rw [List.cons_append, List.head?_cons, Option.some_inj] at hnext
        exact h ⟨[], body, by rw [hnext]; rfl⟩
    rw [List.cons_append, bracketsAfter_cons_of_step q .blockComment (by simp) hstep,
      bracketsAfter_blockComment ht fun hin => h (List.infix_cons_iff.mpr (Or.inr hin)),
      List.append_assoc, List.singleton_append]

theorem IsMark.ne (h : IsMark q c) : c ≠ '\\' ∧ c ≠ '\n' ∧ c ≠ '/' ∧ c ≠ '#' ∧ ¬ IsBracket c := by
  rcases h with rfl | rfl | ⟨rfl, -⟩
  · decide
  · decide
  · decide

/-- A character of a string, if no backslash comes before the next one. -/
theorem step_quoted {mark c : Char} {t : Text} (hmark : c ≠ mark)
    (hslash : c = '\\' → t = [] ∨ t.head? = some '\n') (hline : c ≠ '\n' ∨ mark = '\x60') :
    (ScanState.quoted mark).step q c t = (.quoted mark, 0) := by
  rw [ScanState.step, if_neg, if_neg]
  · rintro (h | ⟨h, hback⟩)
    · exact hmark h
    · exact hline.elim (fun hn => hn h) hback
  · rintro ⟨hc, hnext⟩
    rcases hslash hc with rfl | ht
    · exact absurd hnext (by decide)
    · rw [ht] at hnext
      exact absurd hnext (by decide)

/-- A string comes back to code where it ends. -/
theorem bracketsAfter_quotedRun {mark : Char} (hmark : IsMark q mark) {run t : Text}
    (h : QuotedRun mark run t) : ∀ pre : Text,
      bracketsAfter q (.quoted mark) 0 pre (run ++ t) = bracketsAfter q .code 0 (pre ++ run) t := by
  have hcode : ∀ c, ¬ (ScanState.quoted mark = .code ∧ IsBracket c) := by simp
  obtain ⟨hmarkslash, -⟩ := hmark.ne
  induction h with
  | closed =>
    intro pre
    refine bracketsAfter_cons_of_step q (.quoted mark) (hcode mark) ?_
    rw [ScanState.step, if_neg fun h => hmarkslash h.1, if_pos (Or.inl rfl)]
  | @cut slash rest hrun hrest =>
    intro pre
    have hend : ∀ pre, bracketsAfter q (.quoted mark) 0 pre rest =
        bracketsAfter q .code 0 pre rest := by
      refine bracketsAfter_lineEnd (by simp) (hrest.imp_right fun ⟨hhead, hback⟩ => ⟨hhead, ?_⟩)
      intro cs
      rw [ScanState.step, if_neg fun h => absurd h.1 (by decide), if_pos (Or.inr ⟨rfl, hback⟩)]
    rcases hrun with rfl | rfl
    · rw [List.nil_append, List.append_nil, hend]
    · -- before the line feed, or at the end of the text, nothing is passed over
      have hstep := step_quoted (q := q) hmarkslash.symm (fun _ => hrest.imp_right And.left)
        (Or.inl (by decide))
      rw [List.singleton_append, bracketsAfter_cons_of_step q (.quoted mark) (hcode _) hstep, hend]
  | @escape c run rest hline _ ih =>
    intro pre
    by_cases hc : c = '\n'
    · subst hc
      have hback : mark = '\x60' := hline.resolve_left fun hn => hn rfl
      have hfirst := step_quoted (q := q) (t := '\n' :: (run ++ rest)) hmarkslash.symm
        (fun _ => Or.inr rfl) (Or.inl (by decide))
      have hsecond : (ScanState.quoted mark).step q '\n' (run ++ rest) = (.quoted mark, 0) :=
        step_quoted (by rw [hback]; decide) (fun h => absurd h (by decide)) (Or.inr hback)
      rw [List.cons_append, List.cons_append,
        bracketsAfter_cons_of_step q (.quoted mark) (hcode _) hfirst,
        bracketsAfter_cons_of_step q (.quoted mark) (hcode _) hsecond, ih]
      simp only [List.append_assoc, List.cons_append, List.nil_append]
    · have hstep :
          (ScanState.quoted mark).step q '\\' (c :: (run ++ rest)) = (.quoted mark, 1) := by
        rw [ScanState.step, if_pos ⟨rfl, by simpa using hc⟩]
      rw [List.cons_append, List.cons_append,
        bracketsAfter_cons_cons_of_step q (.quoted mark) (hcode _) hstep hc, ih]
      simp only [List.append_assoc, List.cons_append, List.nil_append]
  | @char c run rest hne hc hline _ ih =>
    intro pre
    have hstep := step_quoted (q := q) (t := run ++ rest) hne (fun h => absurd h hc) hline
    rw [List.cons_append, bracketsAfter_cons_of_step q (.quoted mark) (hcode c) hstep, ih,
      List.append_assoc, List.singleton_append]

/-- A character literal passes over its inside and its second quote. -/
theorem charLiteralRest_of_body {body : Text} (h : IsLiteralBody body) (rest : Text) :
    charLiteralRest (body ++ '\'' :: rest) = (body ++ ['\'']).length := by
  rcases h with ⟨c, rfl⟩ | ⟨c, hc, rfl⟩
  · rfl
  · simp [charLiteralRest, hc]

/-- Where no character literal begins, nothing is passed over. -/
theorem charLiteralRest_eq_zero {t : Text}
    (h : ∀ body after, IsLiteralBody body → t ≠ body ++ '\'' :: after) : charLiteralRest t = 0 := by
  rw [charLiteralRest.eq_def]
  split
  · rename_i c after
    exact absurd rfl (h ['\\', c] after (Or.inl ⟨c, rfl⟩))
  · rfl
  · rename_i c after hescape hslash
    refine absurd rfl (h [c] after (Or.inr ⟨c, fun hc => ?_, rfl⟩))
    exact hslash hc
  · rfl

/-- At a character that begins nothing longer the scan stays in code. -/
theorem IsPlain.step_code {c : Char} {rest : Text} (hc : IsPlain q c rest) :
    ScanState.code.step q c rest = (.code, 0) := by
  have hquote : ¬ (c = '"' ∨ c = '\x60') := fun h =>
    hc.mark (h.imp_right fun h => Or.inl h)
  rw [ScanState.step, if_neg fun h => (hc.slash h.1).1 h.2,
    if_neg fun h => (hc.slash h.1).2 h.2,
    if_neg fun h => Bool.false_ne_true ((hc.hash h.1).symm.trans h.2), if_neg hquote]
  split
  · rename_i hchar
    have hq : q.charLiterals = true :=
      eq_true_of_ne_false fun hq => hc.mark (Or.inr (Or.inr ⟨hchar, hq⟩))
    rw [if_pos hq, charLiteralRest_eq_zero (hc.quote hchar)]
  · rfl

/-- A line comment is left where its line ends. -/
theorem bracketsAfter_commentMark {mark body rest : Text} (hmark : IsCommentMark q mark)
    (hbody : '\n' ∉ body) (hrest : rest = [] ∨ rest.head? = some '\n') (pre : Text) :
    bracketsAfter q .code 0 pre (mark ++ body ++ rest) =
      bracketsAfter q .code 0 (pre ++ (mark ++ body)) rest := by
  rcases hmark with rfl | ⟨rfl, hq⟩
  · have hstep : ScanState.code.step q '/' ('/' :: (body ++ rest)) = (.lineComment, 0) := by
      simp [ScanState.step]
    -- the second slash is looked at as a character of the comment
    have hbody : '\n' ∉ '/' :: body := by simpa using hbody
    refine (bracketsAfter_cons_of_step q .code (by decide) hstep).trans ?_
    refine (bracketsAfter_lineComment hrest hbody).trans ?_
    rw [List.append_assoc]
    rfl
  · have hstep : ScanState.code.step q '#' (body ++ rest) = (.lineComment, 0) := by
      simp [ScanState.step, hq]
    refine (bracketsAfter_cons_of_step q .code (by decide) hstep).trans ?_
    refine (bracketsAfter_lineComment hrest hbody).trans ?_
    rw [List.append_assoc]

/-- A block comment goes on as long as there is no end in it. -/
theorem bracketsAfter_blockMark {body t : Text} (ht : t.head? ≠ some '/')
    (hbody : ¬ ['*', '/'] <:+: body) (pre : Text) :
    bracketsAfter q .code 0 pre ('/' :: '*' :: (body ++ t)) =
      bracketsAfter q .blockComment 0 (pre ++ '/' :: '*' :: body) t := by
  have hopen : ScanState.code.step q '/' ('*' :: (body ++ t)) = (.blockComment, 1) := by
    simp [ScanState.step]
  rw [bracketsAfter_cons_cons_of_step q .code (by decide) hopen (by decide),
    bracketsAfter_blockComment ht hbody, List.append_assoc]
  rfl

/-- A block comment is left behind its end. -/
theorem bracketsAfter_blockEnd (pre rest : Text) :
    bracketsAfter q .blockComment 0 pre ('*' :: '/' :: rest) =
      bracketsAfter q .code 0 (pre ++ ['*', '/']) rest := by
  have hclose : ScanState.blockComment.step q '*' ('/' :: rest) = (.code, 1) := by
    simp [ScanState.step]
  exact bracketsAfter_cons_cons_of_step q .blockComment (by simp) hclose (by decide)

/-- A string is left where it ends. -/
theorem bracketsAfter_mark {mark : Char} (hmark : IsMark q mark) {run rest : Text}
    (hrun : QuotedRun mark run rest) (pre : Text) :
    bracketsAfter q .code 0 pre (mark :: (run ++ rest)) =
      bracketsAfter q .code 0 (pre ++ mark :: run) rest := by
  have hstep : ScanState.code.step q mark (run ++ rest) = (.quoted mark, 0) := by
    rcases hmark with rfl | rfl | ⟨rfl, hq⟩
    · simp [ScanState.step]
    · simp [ScanState.step]
    · simp [ScanState.step, hq]
  have hbracket := hmark.ne.2.2.2.2
  rw [bracketsAfter_cons_of_step q .code (fun h => hbracket h.2) hstep,
    bracketsAfter_quotedRun hmark hrun, List.append_assoc]
  rfl

/-- A character literal is passed over. -/
theorem bracketsAfter_literal (hq : q.charLiterals = true) {body : Text}
    (hbody : IsLiteralBody body) (pre rest : Text) :
    bracketsAfter q .code 0 pre ('\'' :: (body ++ '\'' :: rest)) =
      bracketsAfter q .code 0 (pre ++ '\'' :: (body ++ ['\'']).map inRow) rest := by
  have hstep : ScanState.code.step q '\'' (body ++ '\'' :: rest) =
      (.code, (body ++ ['\'']).length) := by
    simp [ScanState.step, hq, charLiteralRest_of_body hbody]
  have hskip := bracketsAfter_skip q .code rest (pre ++ ['\'']) (body ++ ['\''])
  rw [List.append_assoc, List.singleton_append, List.append_assoc] at hskip
  rw [bracketsAfter_cons, if_neg (by decide), hstep]
  exact hskip

/-- The characters that a piece moves the place by: a character literal is passed over. -/
def Lexeme.counted : Lexeme → Text
  | .literal run => run.map inRow
  | l => l.text

/-- The scan finds the bracket that a piece is, and is in code again behind the piece. -/
theorem Lexeme.Stands.bracketsAfter_eq {l : Lexeme} {rest : Text} (h : l.Stands q rest)
    (pre : Text) : bracketsAfter q .code 0 pre (l.text ++ rest) =
      (l.bracket?.map (Bracket.behind pre)).toList ++
        bracketsAfter q .code 0 (pre ++ l.counted) rest := by
  cases h with
  | lineComment hmark hbody hrest => exact bracketsAfter_commentMark hmark hbody hrest pre
  | @blockComment body rest hbody =>
    have hend : (['*', '/'] ++ rest).head? ≠ some '/' := by simp
    have hassoc : (Lexeme.comment ('/' :: '*' :: (body ++ ['*', '/']))).text ++ rest =
        '/' :: '*' :: (body ++ (['*', '/'] ++ rest)) := by
      simp [Lexeme.text]
    rw [hassoc, bracketsAfter_blockMark hend hbody]
    refine (bracketsAfter_blockEnd _ rest).trans ?_
    rw [List.append_assoc]
    rfl
  | @openComment body hbody =>
    refine (bracketsAfter_blockMark (by decide) hbody pre).trans ?_
    rw [bracketsAfter_nil, bracketsAfter_nil]
    rfl
  | quoted hmark hrun => exact bracketsAfter_mark hmark hrun pre
  | @literal body rest hq hbody =>
    have hassoc : (Lexeme.literal ('\'' :: (body ++ ['\'']))).text ++ rest =
        '\'' :: (body ++ '\'' :: rest) := by
      simp [Lexeme.text]
    rw [hassoc]
    exact bracketsAfter_literal hq hbody pre rest
  | @plain c rest hc =>
    rw [Lexeme.text, List.singleton_append, bracketsAfter_cons, hc.step_code, Lexeme.bracket?]
    by_cases hbracket : IsBracket c
    · rw [if_pos ⟨rfl, hbracket⟩, if_pos hbracket]
      rfl
    · rw [if_neg fun h => hbracket h.2, if_neg hbracket]
      rfl

/-- The brackets among the pieces, with their places in a text that begins with `pre`. -/
def placedBrackets (pre : Text) : List Lexeme → List Bracket
  | [] => []
  | l :: ls => (l.bracket?.map (Bracket.behind pre)).toList ++ placedBrackets (pre ++ l.counted) ls

theorem Reads.bracketsAfter_eq {content : Text} {ls : List Lexeme} (h : Reads q content ls)
    (pre : Text) : bracketsAfter q .code 0 pre content = placedBrackets pre ls := by
  induction h generalizing pre with
  | nil => exact bracketsAfter_nil q .code pre
  | cons hl _ ih => rw [hl.bracketsAfter_eq, ih, placedBrackets]

/-- The brackets that count are those among the pieces of the text. -/
theorem Reads.brackets_eq {content : Text} {ls : List Lexeme} (h : Reads q content ls) :
    brackets q content = placedBrackets [] ls :=
  h.bracketsAfter_eq []

end Pieces

end Outline

import Outline.Proofs.Check.Lexeme

/-!
# Balanced brackets

Brackets are balanced if they can be put together from pairs: an opening bracket, a balanced word,
the closing bracket of the same sort, and a balanced word again.  The check does not look for such
pairs.  It keeps a stack of the brackets that are open, takes one off for every bracket that closes,
whether the two fit together or not, and reports what does not fit.

No report is lost on the way, so a check without reports has taken off a fitting bracket each time.
With brackets open, what remains of the text then closes them one after the other, with balanced
words between (`ClosesAll`); with none open it is balanced itself (`matchBrackets_eq_nil_iff`).
Which brackets of a text count is a matter of the pieces it is read into, so the two meet in
`bracketIssues_eq_nil_iff`.

* `IsBalanced`: balanced words of brackets.
* `codeBrackets`: the brackets among the pieces of a text.
-/

namespace Outline

/-! ## Words of brackets -/

/-- The three sorts of brackets. -/
def bracketPairs : List (Char × Char) := [('(', ')'), ('[', ']'), ('\x7b', '\x7d')]

/-- A word of brackets that is put together from pairs. -/
inductive IsBalanced : List Char → Prop
  | nil : IsBalanced []
  | pair {opening closing : Char} {inner rest : List Char}
      (h : (opening, closing) ∈ bracketPairs) (hinner : IsBalanced inner)
      (hrest : IsBalanced rest) : IsBalanced (opening :: (inner ++ closing :: rest))

/-- A word that closes brackets, the first of them first, with balanced words before, between and
behind. -/
def ClosesAll : (opened word : List Char) → Prop
  | [], word => IsBalanced word
  | o :: opened, word => ∃ inner closing rest, word = inner ++ closing :: rest ∧
      (o, closing) ∈ bracketPairs ∧ IsBalanced inner ∧ ClosesAll opened rest

/-- A pair may be put before a word that closes brackets. -/
theorem ClosesAll.cons_pair {opening closing : Char} {inner : List Char}
    (h : (opening, closing) ∈ bracketPairs) (hinner : IsBalanced inner) :
    ∀ {opened rest : List Char}, ClosesAll opened rest →
      ClosesAll opened (opening :: (inner ++ closing :: rest))
  | [], _, hrest => IsBalanced.pair h hinner hrest
  | _ :: _, _, ⟨first, c, rest, hword, hc, hfirst, hrest⟩ =>
    ⟨opening :: (inner ++ closing :: first), c, rest, by rw [hword]; simp, hc,
      IsBalanced.pair h hinner hfirst, hrest⟩

theorem mem_bracketPairs_of_isOpening {c : Char} (h : isOpening c = true) :
    (c, closerOf c) ∈ bracketPairs := by
  have hc : c = '(' ∨ c = '[' ∨ c = '\x7b' := by simpa [isOpening, or_assoc] using h
  rcases hc with rfl | rfl | rfl
  · decide
  · decide
  · decide

theorem isOpening_of_mem_bracketPairs {opening closing : Char}
    (h : (opening, closing) ∈ bracketPairs) :
    isOpening opening = true ∧ isOpening closing = false ∧ closerOf opening = closing := by
  simp only [bracketPairs, List.mem_cons, List.not_mem_nil, or_false, Prod.mk.injEq] at h
  rcases h with ⟨rfl, rfl⟩ | ⟨rfl, rfl⟩ | ⟨rfl, rfl⟩
  · decide
  · decide
  · decide

/-! ## The stack of open brackets -/

section Stack

variable {b : Bracket} {bs opened : List Bracket}

theorem matchBrackets_cons_of_isOpening (h : isOpening b.mark = true) :
    matchBrackets opened (b :: bs) = matchBrackets (b :: opened) bs := by
  rw [matchBrackets.eq_def]
  exact if_pos h

theorem matchBrackets_cons_of_closer {o : Bracket} (h : isOpening b.mark = false)
    (hcloser : closerOf o.mark = b.mark) :
    matchBrackets (o :: opened) (b :: bs) = matchBrackets opened bs := by
  rw [matchBrackets.eq_def]
  simp only [h, if_neg Bool.false_ne_true, if_pos hcloser]

/-- A bracket that does not open is reported, unless it closes the innermost open one. -/
theorem exists_closer_of_matchBrackets (h : isOpening b.mark = false)
    (hnil : matchBrackets opened (b :: bs) = []) : ∃ o outer, opened = o :: outer ∧
      closerOf o.mark = b.mark ∧ matchBrackets outer bs = [] := by
  rw [matchBrackets.eq_def] at hnil
  simp only [h, if_neg Bool.false_ne_true] at hnil
  cases opened with
  | nil => exact absurd hnil (List.cons_ne_nil _ _)
  | cons o outer =>
    simp only at hnil
    split at hnil
    · rename_i hcloser
      exact ⟨o, outer, rfl, hcloser, hnil⟩
    · exact absurd hnil (List.cons_ne_nil _ _)

/-- Without a report, the open brackets have been closed. -/
theorem closesAll_of_matchBrackets : ∀ {bs opened : List Bracket},
    (∀ o ∈ opened, isOpening o.mark = true) → matchBrackets opened bs = [] →
      ClosesAll (opened.map Bracket.mark) (bs.map Bracket.mark)
  | [], opened, _, h => by
    rw [matchBrackets, List.map_eq_nil_iff, List.reverse_eq_nil_iff] at h
    rw [h]
    exact IsBalanced.nil
  | b :: bs, opened, hopened, h => by
    cases hb : isOpening b.mark with
    | true =>
      rw [matchBrackets_cons_of_isOpening hb] at h
      obtain ⟨inner, closing, rest, hword, hpair, hinner, hrest⟩ :=
        closesAll_of_matchBrackets (List.forall_mem_cons.mpr ⟨hb, hopened⟩) h
      rw [List.map_cons, hword]
      exact hrest.cons_pair hpair hinner
    | false =>
      obtain ⟨o, outer, rfl, hcloser, hnil⟩ := exists_closer_of_matchBrackets hb h
      obtain ⟨ho, houter⟩ := List.forall_mem_cons.mp hopened
      refine ⟨[], b.mark, bs.map Bracket.mark, rfl, ?_, .nil,
        closesAll_of_matchBrackets houter hnil⟩
      exact hcloser ▸ mem_bracketPairs_of_isOpening ho

/-- A balanced word leaves the stack as it is. -/
theorem matchBrackets_append_of_isBalanced {word : List Char} (h : IsBalanced word) :
    ∀ {bs : List Bracket}, bs.map Bracket.mark = word → ∀ opened after,
      matchBrackets opened (bs ++ after) = matchBrackets opened after := by
  induction h with
  | nil =>
    intro bs hbs opened after
    rw [List.map_eq_nil_iff.mp hbs, List.nil_append]
  | @pair opening closing inner rest hpair _ _ ihinner ihrest =>
    intro bs hbs opened after
    obtain ⟨hopening, hclosing, hcloser⟩ := isOpening_of_mem_bracketPairs hpair
    obtain ⟨o, tail, rfl, rfl, htail⟩ := List.map_eq_cons_iff.mp hbs
    obtain ⟨innerBrackets, tail, rfl, hinner, htail⟩ := List.map_eq_append_iff.mp htail
    obtain ⟨c, restBrackets, rfl, rfl, hrest⟩ := List.map_eq_cons_iff.mp htail
    rw [List.cons_append, List.append_assoc, List.cons_append,
      matchBrackets_cons_of_isOpening hopening, ihinner hinner,
      matchBrackets_cons_of_closer hclosing hcloser, ihrest hrest]

/-- There is nothing to report about brackets exactly when they are balanced. -/
theorem matchBrackets_eq_nil_iff :
    matchBrackets [] bs = [] ↔ IsBalanced (bs.map Bracket.mark) := by
  constructor
  · exact closesAll_of_matchBrackets fun o ho => absurd ho List.not_mem_nil
  · intro h
    have hmatch := matchBrackets_append_of_isBalanced h rfl [] []
    rw [List.append_nil] at hmatch
    rw [hmatch, matchBrackets]
    rfl

end Stack

/-! ## The brackets of a text -/

/-- The brackets among the pieces of a text. -/
def codeBrackets (ls : List Lexeme) : List Char := ls.filterMap Lexeme.bracket?

theorem map_mark_placedBrackets : ∀ (pre : Text) (ls : List Lexeme),
    (placedBrackets pre ls).map Bracket.mark = codeBrackets ls
  | _, [] => rfl
  | pre, l :: ls => by
    have ih := map_mark_placedBrackets (pre ++ l.counted) ls
    rw [codeBrackets] at ih ⊢
    rw [placedBrackets, List.map_append, ih]
    cases h : l.bracket? with
    | none => rw [List.filterMap_cons_none h]; rfl
    | some c => rw [List.filterMap_cons_some h]; rfl

theorem Reads.bracketIssues_eq_nil_iff {q : QuoteRules} {content : Text} {ls : List Lexeme}
    (h : Reads q content ls) : bracketIssues q content = [] ↔ IsBalanced (codeBrackets ls) := by
  have hsort : bracketIssues q content = [] ↔ matchBrackets [] (brackets q content) = [] := by
    rw [bracketIssues, ← List.length_eq_zero_iff, List.length_mergeSort, List.length_eq_zero_iff]
  rw [hsort, matchBrackets_eq_nil_iff, h.brackets_eq, map_mark_placedBrackets]

/-- Every text can be read into code, comments, strings and character literals, and however it is
read, there is nothing to report about its brackets exactly when those of the code are balanced. -/
theorem bracketIssues_nil_iff_isBalanced (q : QuoteRules) (content : Text) :
    (∃ ls, Reads q content ls) ∧
      ∀ ls, Reads q content ls → (bracketIssues q content = [] ↔ IsBalanced (codeBrackets ls)) :=
  ⟨exists_reads q content, fun _ h => h.bracketIssues_eq_nil_iff⟩

/-- Two brackets of code, with one in a string between them and one in a comment behind. -/
def hiddenText : Text := ['(', '"', ']', '"', ')', '/', '/', '[']

def hiddenPieces : List Lexeme :=
  [.plain '(', .quoted ['"', ']', '"'], .plain ')', .comment ['/', '/', '[']]

theorem bracketIssues_nil_iff_of_hidden :
    Reads ⟨false, false⟩ hiddenText hiddenPieces ∧
      (bracketIssues ⟨false, false⟩ hiddenText = [] ↔ IsBalanced (codeBrackets hiddenPieces)) ∧
      IsBalanced (codeBrackets hiddenPieces) := by
  have hrun : QuotedRun '"' [']', '"'] [')', '/', '/', '['] :=
    .char (by decide) (by decide) (Or.inl (by decide)) .closed
  have hcomment : (Lexeme.comment (['/', '/'] ++ ['['])).Stands ⟨false, false⟩ [] :=
    .lineComment (Or.inl rfl) (by decide) (Or.inl rfl)
  have hreads : Reads ⟨false, false⟩ hiddenText hiddenPieces := by
    refine .cons (.plain (isPlain_of_notMem (by decide) _)) (.cons (.quoted (Or.inl rfl) hrun) ?_)
    exact .cons (.plain (isPlain_of_notMem (by decide) _)) (.cons hcomment .nil)
  refine ⟨hreads, (bracketIssues_nil_iff_isBalanced ⟨false, false⟩ hiddenText).2 _ hreads, ?_⟩
  exact IsBalanced.pair (by decide) .nil .nil

end Outline

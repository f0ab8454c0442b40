import Outline.Check.Report
import Outline.Proofs.Check.Balance
import Outline.Proofs.Language.Rules

/-!
# Texts without quotes

In a text without quotes and number signs there are no strings, and nothing begins a comment but a
slash with another slash or a star behind it (`Reads.isSlashed`).  The scan looks for these two in
every language, also in one where they are operators, so that the brackets behind them are not
counted.

What that comes to is a matter of words: from a word of brackets a balanced part may be taken out
anywhere (`isBalanced_append_iff`).  So if the brackets of each comment are balanced on their own,
the check finds fault with the text exactly when its brackets are not balanced; and the rest is said
by the brackets that are left (`isValid_iff_of_unquoted`).

* `bracketWord`: the brackets of a text, wherever they stand.
* `IsUnquoted`: texts without quotes and number signs.
-/

namespace Outline

/-! ## Words of brackets -/

/-- The brackets of a text. -/
def bracketWord (t : Text) : List Char := t.filter fun c => IsBracket c

theorem bracketWord_append (t u : Text) : bracketWord (t ++ u) = bracketWord t ++ bracketWord u :=
  List.filter_append ..

/-- Where two rests are treated alike with any brackets open, they are so behind other brackets. -/
theorem matchBrackets_append_congr {s t : List Bracket}
    (h : ∀ opened, matchBrackets opened s = matchBrackets opened t) :
    ∀ bs opened : List Bracket, matchBrackets opened (bs ++ s) = matchBrackets opened (bs ++ t)
  | [], opened => h opened
  | b :: bs, opened => by
    rw [List.cons_append, List.cons_append, matchBrackets.eq_def,
      matchBrackets.eq_def opened (b :: (bs ++ t))]
    simp only [matchBrackets_append_congr h bs]

/-- A balanced part may be taken out of a word, or put into it. -/
theorem isBalanced_append_iff {word : List Char} (hword : IsBalanced word) (u v : List Char) :
    IsBalanced (u ++ (word ++ v)) ↔ IsBalanced (u ++ v) := by
  -- the same word with some places
  let place (w : List Char) : List Bracket := w.map fun c => ⟨c, 0, 0⟩
  have hplace : ∀ w, (place w).map Bracket.mark = w := by
    intro w
    rw [List.map_map]
    exact List.map_id w
  have hnil : ∀ w, IsBalanced w ↔ matchBrackets [] (place w) = [] := by
    intro w
    rw [matchBrackets_eq_nil_iff, hplace]
  have hskip : ∀ opened, matchBrackets opened (place word ++ place v) =
      matchBrackets opened (place v) :=
    fun opened => matchBrackets_append_of_isBalanced hword (hplace word) opened (place v)
  have happend : ∀ w w', place (w ++ w') = place w ++ place w' := fun w w' => List.map_append
  rw [hnil, hnil, happend, happend, happend, matchBrackets_append_congr hskip]

/-! ## Pieces -/

theorem codeBrackets_cons_plain (c : Char) (ls : List Lexeme) :
    codeBrackets (.plain c :: ls) = bracketWord [c] ++ codeBrackets ls := by
  rw [codeBrackets, codeBrackets, bracketWord]
  by_cases hc : IsBracket c
  · have hbracket : (Lexeme.plain c).bracket? = some c := if_pos hc
    rw [List.filterMap_cons_some hbracket, List.filter_cons, if_pos (decide_eq_true hc)]
    rfl
  · have hbracket : (Lexeme.plain c).bracket? = none := if_neg hc
    rw [List.filterMap_cons_none hbracket, List.filter_cons, if_neg (by simpa using hc)]
    rfl

/-- If the brackets of each comment are balanced on their own, the comments play no part. -/
theorem isBalanced_codeBrackets_iff : ∀ {ls : List Lexeme},
    (∀ l ∈ ls, (∃ c, l = .plain c) ∨ ∃ run, l = .comment run ∧ IsBalanced (bracketWord run)) →
      ∀ u, IsBalanced (u ++ bracketWord (ls.flatMap Lexeme.text)) ↔
        IsBalanced (u ++ codeBrackets ls)
  | [], _, u => Iff.rfl
  | l :: ls, h, u => by
    obtain ⟨hl, hls⟩ := List.forall_mem_cons.mp h
    rw [List.flatMap_cons, bracketWord_append]
    rcases hl with ⟨c, rfl⟩ | ⟨run, rfl, hrun⟩
    · have ih := isBalanced_codeBrackets_iff hls (u ++ bracketWord [c])
      rw [List.append_assoc, List.append_assoc] at ih
      rw [codeBrackets_cons_plain]
      exact ih
    · have ih := isBalanced_codeBrackets_iff hls u
      rw [codeBrackets, List.filterMap_cons_none rfl]
      exact (isBalanced_append_iff hrun u _).trans ih

/-- A text without quotes and number signs. -/
def IsUnquoted (t : Text) : Prop := ∀ c ∈ ['"', '\'', '\x60', '#'], c ∉ t

instance (t : Text) : Decidable (IsUnquoted t) :=
  List.decidableBAll (fun c => c ∉ t) _

/-- A piece that is a character of code, or a comment that a slash begins. -/
def Lexeme.IsSlashed : Lexeme → Prop
  | .plain _ => True
  | .comment run => ['/', '/'] <+: run ∨ ['/', '*'] <+: run
  | .quoted _ | .literal _ => False

section Pieces

variable {q : QuoteRules} {content : Text} {ls : List Lexeme}

theorem Lexeme.Stands.isSlashed {l : Lexeme} {rest : Text} (h : l.Stands q rest)
    (hl : IsUnquoted l.text) : l.IsSlashed := by
  cases h with
  | @lineComment mark body _ hmark _ _ =>
    rcases hmark with rfl | ⟨rfl, -⟩
    · exact Or.inl (List.prefix_append _ _)
    · exact absurd List.mem_cons_self (hl '#' (by decide))
  | blockComment _ => exact Or.inr ⟨_, rfl⟩
  | openComment _ => exact Or.inr ⟨_, rfl⟩
  | quoted hmark _ =>
    refine absurd List.mem_cons_self (hl _ ?_)
    rcases hmark with rfl | rfl | ⟨rfl, -⟩
    · decide
    · decide
    · decide
  | literal _ _ => exact absurd List.mem_cons_self (hl '\'' (by decide))
  | plain _ => trivial

/-- A text without quotes and number signs has no strings and no other comments. -/
theorem Reads.isSlashed (h : Reads q content ls) (hcontent : IsUnquoted content) :
    ∀ l ∈ ls, l.IsSlashed := by
  induction h with
  | nil => exact fun l hl => absurd hl List.not_mem_nil
  | cons hl _ ih =>
    refine List.forall_mem_cons.mpr ⟨hl.isSlashed ?_, ih ?_⟩
    · exact fun c hc hmem => hcontent c hc (List.mem_append_left _ hmem)
    · exact fun c hc hmem => hcontent c hc (List.mem_append_right _ hmem)

/-- The brackets of code are balanced exactly when all brackets are, if those of each comment are
balanced on their own. -/
theorem Reads.isBalanced_iff (h : Reads q content ls) (hcontent : IsUnquoted content)
    (hcomments : ∀ run, .comment run ∈ ls → IsBalanced (bracketWord run)) :
    IsBalanced (codeBrackets ls) ↔ IsBalanced (bracketWord content) := by
  have hpieces : ∀ l ∈ ls, (∃ c, l = .plain c) ∨
      ∃ run, l = .comment run ∧ IsBalanced (bracketWord run) := by
    intro l hl
    have hslashed := h.isSlashed hcontent l hl
    cases l with
    | plain c => exact Or.inl ⟨c, rfl⟩
    | comment run => exact Or.inr ⟨run, rfl, hcomments run hl⟩
    | quoted _ => exact absurd hslashed id
    | literal _ => exact absurd hslashed id
  have hword := isBalanced_codeBrackets_iff hpieces []
  rw [h.flatMap_text] at hword
  exact hword.symm

/-- Without a slash before another one or before a star there are no comments. -/
theorem Reads.comment_notMem (h : Reads q content ls) (hcontent : IsUnquoted content)
    (hline : ¬ ['/', '/'] <:+: content) (hblock : ¬ ['/', '*'] <:+: content) (run : Text) :
    .comment run ∉ ls := by
  intro hmem
  have hinfix : run <:+: content := by
    obtain ⟨before, after, rfl⟩ := List.append_of_mem hmem
    rw [← h.flatMap_text, List.flatMap_append, List.flatMap_cons, ← List.append_assoc]
    exact List.infix_append _ _ _
  rcases h.isSlashed hcontent _ hmem with hpre | hpre
  · exact hline (hpre.isInfix.trans hinfix)
  · exact hblock (hpre.isInfix.trans hinfix)

end Pieces

/-! ## Python -/

theorem quoteRules_of_python {language : String} (h : (rulesOf language).name = "python") :
    (rulesOf language).blockStyle ≠ .markdown ∧ (rulesOf language).charLiterals = false ∧
      (rulesOf language).hashComments = true := by
  have hentries : ∀ e ∈ entries, e.rules.name = "python" → e.rules.blockStyle ≠ .markdown ∧
      e.rules.charLiterals = false ∧ e.rules.hashComments = true := by decide
  rcases rulesOf_cases language with hr | ⟨e, he, hr⟩
  · rw [hr] at h
    exact absurd h (by decide)
  · rw [hr] at h ⊢
    exact hentries e he h

theorem isValid_checkSyntax_iff {language : String} (h : (rulesOf language).name = "python")
    (content : Text) : (checkSyntax none content language).isValid = true ↔
      bracketIssues ⟨false, true⟩ content = [] := by
  obtain ⟨hstyle, hliterals, hhash⟩ := quoteRules_of_python h
  have hreport : checkSyntax none content language =
      ⟨.text, bracketIssues ⟨false, true⟩ content⟩ := by
    rw [checkSyntax]
    simp only [treeOf?, if_neg hstyle, hliterals, hhash]
  rw [hreport, Report.isValid, List.isEmpty_iff]

/-- A Python text without quotes and number signs is read into code and into what the scan takes for
comments: from two slashes to the end of the line, and from a slash and a star to a star and a
slash.  It passes the check exactly when the brackets of the code are balanced.  This is so exactly
when all its brackets are, if in each of these comments they are balanced on their own, and so in
particular if there is no slash before another one or before a star. -/
theorem isValid_iff_of_unquoted {content : Text} {language : String}
    (hlanguage : (rulesOf language).name = "python") (hcontent : IsUnquoted content) :
    (∃ ls, Reads ⟨false, true⟩ content ls) ∧
      (∀ ls, Reads ⟨false, true⟩ content ls → (∀ l ∈ ls, l.IsSlashed) ∧
        ((checkSyntax none content language).isValid = true ↔ IsBalanced (codeBrackets ls)) ∧
        ((∀ run, .comment run ∈ ls → IsBalanced (bracketWord run)) →
          ((checkSyntax none content language).isValid = true ↔
            IsBalanced (bracketWord content)))) ∧
      (¬ ['/', '/'] <:+: content → ¬ ['/', '*'] <:+: content →
        ((checkSyntax none content language).isValid = true ↔
          IsBalanced (bracketWord content))) := by
  have hvalid : ∀ ls, Reads ⟨false, true⟩ content ls →
      ((checkSyntax none content language).isValid = true ↔ IsBalanced (codeBrackets ls)) :=
    fun ls hls => (isValid_checkSyntax_iff hlanguage content).trans hls.bracketIssues_eq_nil_iff
  obtain ⟨pieces, hpieces⟩ := exists_reads ⟨false, true⟩ content
  refine ⟨⟨pieces, hpieces⟩, fun ls hls => ⟨hls.isSlashed hcontent, hvalid ls hls, ?_⟩, ?_⟩
  · exact fun hcomments => (hvalid ls hls).trans (hls.isBalanced_iff hcontent hcomments)
  · intro hline hblock
    refine (hvalid pieces hpieces).trans (hpieces.isBalanced_iff hcontent fun run hrun => ?_)
    exact absurd hrun (hpieces.comment_notMem hcontent hline hblock run)

/-- Brackets on both sides of two slashes. -/
def slashText : Text := ['(', 'a', ')', '/', '/', '[', ']']

def slashPieces : List Lexeme :=
  [.plain '(', .plain 'a', .plain ')', .comment ['/', '/', '[', ']']]

theorem isValid_iff_of_slash : (rulesOf "py").name = "python" ∧ IsUnquoted slashText ∧
    ((checkSyntax none slashText "py").isValid = true ↔ IsBalanced (bracketWord slashText)) := by
  have hname : (rulesOf "py").name = "python" := by decide +kernel
  have hunquoted : IsUnquoted slashText := by decide
  have hcomment : (Lexeme.comment (['/', '/'] ++ ['[', ']'])).Stands ⟨false, true⟩ [] :=
    .lineComment (Or.inl rfl) (by decide) (Or.inl rfl)
  have hreads : Reads ⟨false, true⟩ slashText slashPieces := by
    refine .cons (.plain (isPlain_of_notMem (by decide) _)) ?_
    refine .cons (.plain (isPlain_of_notMem (by decide) _)) ?_
    exact .cons (.plain (isPlain_of_notMem (by decide) _)) (.cons hcomment .nil)
  refine ⟨hname, hunquoted, ((isValid_iff_of_unquoted hname hunquoted).2.1 _ hreads).2.2 ?_⟩
  intro run hrun
  obtain rfl : run = ['/', '/', '[', ']'] := by simpa [slashPieces] using hrun
  exact IsBalanced.pair (by decide) .nil .nil

/-- A division with the remainder dropped, between brackets. -/
def divisionText : Text := "x = (a // b)\n".toList

/-- The closing bracket stands behind two slashes, so that the opening one is reported. -/
theorem isValid_ne_isBalanced_of_division : IsUnquoted divisionText ∧
    IsBalanced (bracketWord divisionText) ∧
      (checkSyntax none divisionText "python").isValid = false := by
  have hword : bracketWord divisionText = ['(', ')'] := by decide +kernel
  refine ⟨by decide +kernel, ?_, by decide +kernel⟩
  rw [hword]
  exact IsBalanced.pair (by decide) .nil .nil

end Outline

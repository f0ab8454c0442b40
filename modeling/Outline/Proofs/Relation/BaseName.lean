import Outline.Proofs.Pattern.Erase
import Outline.Proofs.Text.Pieces
import Outline.Proofs.Text.Space
import Outline.Relation.Heritage

/-!
# The name of a base

A base is written as a name with white space around it, and perhaps arguments behind it.  Reading
the name back takes three steps: the white space at the ends is trimmed, words about access are
erased, and what stands before the first bracket is taken apart at the separators of a path.  An
identifier goes through all of them unchanged (`baseName_append`, `pieceBase?_append`), unless it is
itself a word about access with white space behind it.
-/

namespace Outline

open Pattern Attempt

/-! ## Identifiers -/

/-- Whether a character may stand in an identifier. -/
def isNameChar (c : Char) : Bool := isWord c || c == '$'

/-- A text that begins as a name does and has no other characters than a name. -/
structure IsIdentifier (t : Text) : Prop where
  begins : beginsName t = true
  chars : ∀ c ∈ t, isNameChar c = true

theorem isSpace_eq_false_of_isNameChar {c : Char} (h : isNameChar c = true) :
    isSpace c = false := by
  cases hspace : isSpace c with
  | false => rfl
  | true =>
    rw [isNameChar, isWord_eq_false_of_isSpace hspace, Bool.false_or, beq_iff_eq] at h
    rw [h] at hspace
    exact absurd hspace (by decide)

theorem IsIdentifier.ne_nil {t : Text} (h : IsIdentifier t) : t ≠ [] := by
  rintro rfl
  exact absurd h.begins (by decide)

theorem IsIdentifier.notMem {t : Text} (h : IsIdentifier t) {c : Char}
    (hc : isNameChar c = false) : c ∉ t := by
  intro hmem
  rw [h.chars c hmem] at hc
  exact absurd hc (by decide)

theorem IsIdentifier.any_eq_false {t : Text} (h : IsIdentifier t) {p : Char → Bool}
    (hp : ∀ c, isNameChar c = true → p c = false) : t.any p = false := by
  rw [List.any_eq_false]
  intro c hc hpc
  rw [hp c (h.chars c hc)] at hpc
  exact absurd hpc (by decide)

theorem IsIdentifier.head?_any {t : Text} (h : IsIdentifier t) (rest : Text) {p : Char → Bool}
    (hp : ∀ c, isNameChar c = true → p c = false) :
    (t ++ rest).head?.any p = false := by
  obtain ⟨c, cs, rfl⟩ := List.exists_cons_of_ne_nil h.ne_nil
  exact hp c (h.chars c List.mem_cons_self)

theorem IsIdentifier.getLast?_any {t : Text} (h : IsIdentifier t) :
    t.getLast?.any isSpace = false := by
  rw [List.getLast?_eq_some_getLast h.ne_nil]
  exact isSpace_eq_false_of_isNameChar (h.chars _ (List.getLast_mem h.ne_nil))

/-! ## What stands behind a name -/

/-- Whether a character opens arguments. -/
def opensArguments (c : Char) : Bool := c == '<' || c == '[' || c == '('

/-- What may stand behind the name of a base: white space up to an opening bracket or to the end. -/
def EndsName (t : Text) : Prop := ∀ c ∈ t.takeWhile fun c => !opensArguments c, isSpace c = true

theorem EndsName.of_append {t u : Text} (h : EndsName (t ++ u)) : EndsName t := by
  intro c hc
  refine h c ?_
  rw [List.takeWhile_append]
  split
  · exact List.mem_append_left _ ((List.takeWhile_prefix _).subset hc)
  · exact hc

theorem endsName_append {gap t : Text} (hgap : ∀ c ∈ gap, isSpace c = true)
    (ht : ∀ c, t.head? = some c → opensArguments c = true) : EndsName (gap ++ t) := by
  intro c hc
  have hplain : ∀ c ∈ gap, (!opensArguments c) = true := by
    intro c hc
    rw [Bool.not_eq_true']
    cases hopens : opensArguments c with
    | false => rfl
    | true =>
      have hspace : isSpace c = false := by
        simp only [opensArguments, Bool.or_eq_true, beq_iff_eq] at hopens
        rcases hopens with (rfl | rfl) | rfl <;> decide
      rw [hgap c hc] at hspace
      exact absurd hspace (by decide)
  rw [List.takeWhile_append_of_pos hplain] at hc
  rcases List.mem_append.mp hc with hc | hc
  · exact hgap c hc
  · cases t with
    | nil => exact absurd hc List.not_mem_nil
    | cons d ds =>
      rw [List.takeWhile_cons_of_neg (by rw [ht d rfl]; decide)] at hc
      exact absurd hc List.not_mem_nil

/-- No name goes on there. -/
theorem EndsName.head?_any {t : Text} (h : EndsName t) : t.head?.any isNameChar = false := by
  cases t with
  | nil => rfl
  | cons c cs =>
    rw [List.head?_cons, Option.any_some]
    cases hopens : opensArguments c with
    | true =>
      simp only [opensArguments, Bool.or_eq_true, beq_iff_eq] at hopens
      rcases hopens with (rfl | rfl) | rfl <;> decide
    | false =>
      have hspace : isSpace c = true := h c (by
        rw [List.takeWhile_cons_of_pos (by rw [hopens]; rfl)]
        exact List.mem_cons_self)
      cases hname : isNameChar c with
      | false => rfl
      | true => rw [isSpace_eq_false_of_isNameChar hname] at hspace; exact absurd hspace (by decide)

/-! ## Reading the name -/

section Reading

variable {pre name rest : Text}

theorem IsIdentifier.trim_append (hname : IsIdentifier name)
    (hpre : ∀ c ∈ pre, isSpace c = true) :
    Text.trim (pre ++ (name ++ rest)) = name ++ rest.trimEnd := by
  rw [Text.trim, Text.trimStart_append hpre,
    Text.trimStart_eq_self (hname.head?_any rest fun c => isSpace_eq_false_of_isNameChar),
    Text.trimEnd_append hname.getLast?_any]

/-- The name of a base is what stands before its arguments. -/
theorem baseName_append (hname : IsIdentifier name) (hrest : EndsName rest) :
    baseName (name ++ rest) = name := by
  have hplain : ∀ c ∈ name, (!(c == '<' || c == '[' || c == '(')) = true := by
    intro c hc
    have hne : ∀ d, isNameChar d = false → (c == d) = false := fun d hd =>
      beq_eq_false_iff_ne.mpr fun hcd => hname.notMem hd (hcd ▸ hc)
    rw [hne '<' (by decide), hne '[' (by decide), hne '(' (by decide)]
    rfl
  have hsplit : Text.splitWhere (fun c => c == '.' || c == ':' || c == '\\') name = [name] := by
    refine Text.splitWhere_eq_singleton fun c hc => ?_
    have hne : ∀ d, isNameChar d = false → (c == d) = false := fun d hd =>
      beq_eq_false_iff_ne.mpr fun hcd => hname.notMem hd (hcd ▸ hc)
    rw [hne '.' (by decide), hne ':' (by decide), hne '\\' (by decide)]
    rfl
  have htrim : ∀ {t : Text}, (∀ c ∈ t, isSpace c = true) → Text.trim (name ++ t) = name := by
    intro t ht
    have htext : Text.trim ([] ++ (name ++ t)) = name ++ t.trimEnd :=
      hname.trim_append fun c hc => absurd hc List.not_mem_nil
    rw [Text.trimEnd_eq_nil ht, List.append_nil] at htext
    exact htext
  have hself := htrim (t := []) (by simp)
  rw [List.append_nil] at hself
  have hhead : Text.trim (name ++ rest.takeWhile fun c => !(c == '<' || c == '[' || c == '(')) =
      name := htrim hrest
  simp only [baseName]
  rw [List.takeWhile_append_of_pos hplain, hhead, hsplit]
  have hfind : ([name].reverse.find? fun part => !part.isEmpty) = some name := by
    rw [List.reverse_singleton, List.find?_cons_of_pos]
    rw [List.isEmpty_eq_false_iff.mpr hname.ne_nil]
    rfl
  rw [hfind, Option.getD_some, hself]

/-- The words about access that may stand before a base. -/
def accessNames : List String := ["public", "private", "protected", "virtual", "internal", "open"]

theorem all_isNameChar_accessNames : ∀ s ∈ accessNames, s.toList.all isNameChar = true := by
  decide

/-- An identifier is not erased as a word about access, unless it is one and stands alone. -/
theorem eraseFirst_accessWords (hname : IsIdentifier name) (hrest : EndsName rest)
    (haccess : (∃ s ∈ accessNames, name = s.toList) → rest.head?.any isSpace = false) :
    accessWords.eraseFirst (name ++ rest) = name ++ rest := by
  refine eraseFirst_eq_self fun w a b ha hab => ?_
  simp only [accessWords, takes_chain_cons_iff, textStart, takes_anchor_iff, many1, takes_seq_iff,
    spaces1, space, takes_char_iff] at hab
  obtain ⟨_, ⟨hstart, rfl⟩, _, ⟨_, ⟨c, hword, _, ⟨d, ⟨ch, hch, hspace⟩, -⟩, -⟩, -⟩, -⟩ := hab
  obtain ⟨s, hs, hskips⟩ := takes_words_iff.mp hword
  have hw : w = [] := by
    rw [Anchor.holds, ha.before_eq] at hstart
    cases w with
    | nil => rfl
    | cons c w => rw [List.getLast?_cons] at hstart; exact absurd hstart (by simp)
  subst hw
  rw [Skips.nil_iff.mp ha] at hskips
  have hsplit : name ++ rest = s.toList ++ c.rest := hskips.rest_eq
  have hcrest : c.rest = ch :: d.rest := hspace.rest_eq
  have hstop : c.rest.head?.any isNameChar = false := by
    rw [hcrest, List.head?_cons, Option.any_some]
    cases h : isNameChar ch with
    | false => rfl
    | true => rw [isSpace_eq_false_of_isNameChar h] at hch; exact absurd hch (by decide)
  have hs' := List.all_eq_true.mp (all_isNameChar_accessNames s hs)
  have heq : name = s.toList := by
    have htake := congrArg (List.takeWhile isNameChar) hsplit
    rwa [Text.takeWhile_append_stop hname.chars hrest.head?_any,
      Text.takeWhile_append_stop hs' hstop] at htake
  have hrest' : rest = c.rest := List.append_cancel_left (heq ▸ hsplit)
  have hnone := haccess ⟨s, hs, heq⟩
  rw [hrest', hcrest, List.head?_cons, Option.any_some, hch] at hnone
  exact absurd hnone (by decide)

/-- The base that a piece of a list names, if it begins like a name. -/
def pieceBase? (piece : Text) : Option Base :=
  let part := accessWords.eraseFirst piece.trim
  if beginsName (baseName part) then some ⟨baseName part, part.any (· == '(')⟩ else none

theorem splitBases_eq (t : Text) :
    splitBases t = (Text.splitOn ',' (stripArguments t)).filterMap pieceBase? := rfl

theorem notMem_of_forall_isSpace {t : Text} (ht : ∀ c ∈ t, isSpace c = true) {d : Char}
    (hd : isSpace d = false) : d ∉ t := by
  intro hmem
  rw [ht d hmem] at hd
  exact absurd hd (by decide)

theorem any_of_forall_isSpace {t : Text} (ht : ∀ c ∈ t, isSpace c = true) {d : Char}
    (hd : isSpace d = false) : t.any (· == d) = false := by
  rw [List.any_eq_false]
  intro c hc heq
  exact notMem_of_forall_isSpace ht hd (beq_iff_eq.mp heq ▸ hc)

/-- Trimming takes away no other characters than white space. -/
theorem any_trimEnd (t : Text) {d : Char} (hd : isSpace d = false) :
    t.trimEnd.any (· == d) = t.any (· == d) := by
  obtain ⟨post, hpost, hspace⟩ := Text.exists_trimEnd t
  have hsplit : t.any (· == d) = (t.trimEnd ++ post).any (· == d) := by rw [← hpost]
  rw [hsplit, List.any_append, any_of_forall_isSpace hspace hd, Bool.or_false]

theorem IsIdentifier.any_append (hname : IsIdentifier name) {d : Char}
    (hd : isNameChar d = false) : (name ++ rest).any (· == d) = rest.any (· == d) := by
  have hpart : name.any (· == d) = false := hname.any_eq_false fun c hc =>
    beq_eq_false_iff_ne.mpr fun heq => by rw [← heq, hc] at hd; exact absurd hd (by decide)
  rw [List.any_append, hpart, Bool.false_or]

theorem EndsName.trimEnd (h : EndsName rest) : EndsName rest.trimEnd := by
  obtain ⟨post, hpost, -⟩ := Text.exists_trimEnd rest
  rw [hpost] at h
  exact h.of_append

/-- A piece that has an identifier up to its first bracket names it as a base. -/
theorem pieceBase?_append (hname : IsIdentifier name) (hpre : ∀ c ∈ pre, isSpace c = true)
    (hrest : EndsName rest)
    (haccess : (∃ s ∈ accessNames, name = s.toList) →
      rest.trimEnd.head?.any isSpace = false) :
    pieceBase? (pre ++ (name ++ rest)) = some ⟨name, rest.any (· == '(')⟩ := by
  rw [pieceBase?, hname.trim_append hpre, eraseFirst_accessWords hname hrest.trimEnd haccess,
    baseName_append hname hrest.trimEnd, if_pos hname.begins, hname.any_append (by decide),
    any_trimEnd rest (by decide)]

end Reading

end Outline

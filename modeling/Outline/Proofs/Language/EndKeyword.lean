import Mathlib.Algebra.Ring.Int.Defs
import Outline.Language.BlockEnd
import Outline.Proofs.Pattern.Complete
import Outline.Proofs.Text.Space

/-!
# What a line opens and closes

Two patterns decide what a line does to the blocks around it.  Here they are read as text: the one
that closes asks for the first word of the line (`occursIn_blockCloser_iff`), and the one that opens
for the first word or for a `do` at the end.  The second has two alternatives, one of which matches
at the start of a line only and the other one up to its end only, so a line has two matches at most;
and it has two, not one, if it begins with a word that opens a block and ends in `do`
(`length_all_blockOpener`).

* `firstWord`, `EndsInDo`: the two things that are looked for.
* `takes_wordFirst_iff`, `takes_trailingDo_iff`: what the alternatives take.
* `endKeywordDelta_eq`: what a line adds to the depth.
-/

namespace Outline

open Pattern Attempt

/-! ## The first word -/

/-- The first word of a line, behind white space. -/
def firstWord (line : Text) : String :=
  String.ofList ((line.dropWhile isSpace).takeWhile isWord)

/-- A word, all of it. -/
def IsWholeWord (s : String) : Prop := s.toList ≠ [] ∧ s.toList.all isWord = true

instance (s : String) : Decidable (IsWholeWord s) := inferInstanceAs (Decidable (_ ∧ _))

theorem IsWholeWord.isWord {s : String} (h : IsWholeWord s) : ∀ c ∈ s.toList, isWord c = true :=
  List.all_eq_true.mp h.2

/-- The first word has white space before it and no word character behind it. -/
theorem firstWord_eq_iff {line : Text} {s : String} (hs : IsWholeWord s) : firstWord line = s ↔
    ∃ gap rest, line = gap ++ s.toList ++ rest ∧ (∀ c ∈ gap, isSpace c = true) ∧
      rest.head?.any isWord = false := by
  constructor
  · rintro rfl
    refine ⟨line.takeWhile isSpace, (line.dropWhile isSpace).dropWhile isWord, ?_, ?_, ?_⟩
    · rw [firstWord, String.toList_ofList, List.append_assoc, List.takeWhile_append_dropWhile,
        List.takeWhile_append_dropWhile]
    · exact List.all_eq_true.mp List.all_takeWhile
    · have hhead := List.head?_dropWhile_not isWord (line.dropWhile isSpace)
      cases h : ((line.dropWhile isSpace).dropWhile isWord).head? with
      | none => rfl
      | some c =>
        rw [h] at hhead
        simpa using hhead
  · rintro ⟨gap, rest, rfl, hgap, hrest⟩
    obtain ⟨c, cs, hcs⟩ := List.exists_cons_of_ne_nil hs.1
    have hc : isSpace c = false := by
      rw [Bool.eq_false_iff]
      intro hspace
      have hword := hs.isWord c (by rw [hcs]; exact List.mem_cons_self)
      exact absurd ((isWord_eq_false_of_isSpace hspace).symm.trans hword) (by decide)
    have hdrop : (gap ++ s.toList ++ rest).dropWhile isSpace = s.toList ++ rest := by
      rw [List.append_assoc, List.dropWhile_append_of_pos hgap, hcs, List.cons_append,
        List.dropWhile_cons_of_neg (by rw [hc]; decide)]
    have htake : (s.toList ++ rest).takeWhile isWord = s.toList := by
      rw [List.takeWhile_append_of_pos hs.isWord]
      cases rest with
      | nil => rw [List.takeWhile_nil, List.append_nil]
      | cons d ds =>
        have hd : ¬ isWord d = true := by simpa using hrest
        rw [List.takeWhile_cons_of_neg hd, List.append_nil]
    rw [firstWord, hdrop, htake, String.ofList_toList]

section

variable {p : Pattern} {ws : List String}

/-- One of several words at the start of the text. -/
theorem takes_wordFirst_iff (hp : ∀ {a b : Attempt}, p.Takes a b ↔ ∃ s ∈ ws, a.Skips s.toList b)
    (hws : ∀ s ∈ ws, IsWholeWord s) {a b : Attempt} :
    (chain [textStart, spaces, p, boundary]).Takes a b ↔
      a.before = none ∧ ∃ gap, ∃ s ∈ ws, (∀ c ∈ gap, isSpace c = true) ∧
        a.Skips (gap ++ s.toList) b ∧ b.rest.head?.any isWord = false := by
  have hboundary : ∀ {c d : Attempt} {s : String}, s ∈ ws → c.Skips s.toList d →
      (Anchor.boundary.holds d = true ↔ d.rest.head?.any isWord = false) := by
    intro c d s hs hd
    have hne := (hws s hs).1
    have hbefore : d.before = some (s.toList.getLast hne) := by
      rw [hd.before_eq, List.getLast?_eq_some_getLast hne, Option.some_or]
    rw [Anchor.holds, hbefore, Option.any_some, (hws s hs).isWord _ (List.getLast_mem hne),
      bne_iff_ne, ne_comm, Ne, Bool.not_eq_true]
  simp only [takes_chain_cons_iff, textStart, boundary, spaces, space, takes_anchor_iff,
    takes_many_char_iff, hp]
  constructor
  · rintro ⟨_, ⟨hstart, rfl⟩, c, ⟨gap, hgap, hc⟩, d, ⟨s, hs, hd⟩, _, ⟨hbound, rfl⟩, hb⟩
    obtain rfl := takes_empty_iff.mp hb
    exact ⟨Option.isNone_iff_eq_none.mp hstart, gap, s, hs, hgap, hc.trans hd,
      (hboundary hs hd).mp hbound⟩
  · rintro ⟨hstart, gap, s, hs, hgap, hb, hrest⟩
    obtain ⟨c, hc, hd⟩ := Skips.append_iff.mp hb
    exact ⟨a, ⟨Option.isNone_iff_eq_none.mpr hstart, rfl⟩, c, ⟨gap, hgap, hc⟩, b, ⟨s, hs, hd⟩, b,
      ⟨(hboundary hs hd).mpr hrest, rfl⟩, .empty⟩

/-- Such a pattern matches exactly when the first word is one of the words. -/
theorem exists_takes_wordFirst_iff
    (hp : ∀ {a b : Attempt}, p.Takes a b ↔ ∃ s ∈ ws, a.Skips s.toList b)
    (hws : ∀ s ∈ ws, IsWholeWord s) {line : Text} :
    (∃ b, (chain [textStart, spaces, p, boundary]).Takes (front line) b) ↔
      firstWord line ∈ ws := by
  constructor
  · rintro ⟨b, hb⟩
    obtain ⟨-, gap, s, hs, hgap, hskips, hrest⟩ := (takes_wordFirst_iff hp hws).mp hb
    have hword : firstWord line = s :=
      (firstWord_eq_iff (hws s hs)).mpr ⟨gap, b.rest, hskips.rest_eq, hgap, hrest⟩
    exact hword ▸ hs
  · intro hs
    obtain ⟨gap, rest, hline, hgap, hrest⟩ := (firstWord_eq_iff (hws _ hs)).mp rfl
    obtain ⟨b, hb, rfl⟩ := exists_skips (a := front line) hline
    exact ⟨b, (takes_wordFirst_iff hp hws).mpr ⟨rfl, gap, _, hs, hgap, hb, hrest⟩⟩

end

theorem Attempt.Skips.before_eq_getLast? {line w : Text} {a : Attempt}
    (h : (front line).Skips w a) : a.before = w.getLast? :=
  h.before_eq.trans Option.or_none

/-- A place before which there is nothing is the place before the text. -/
theorem Attempt.Skips.eq_front {line w : Text} {a : Attempt} (h : (front line).Skips w a)
    (hbefore : a.before = none) : a = front line := by
  rw [h.before_eq_getLast?, List.getLast?_eq_none_iff] at hbefore
  subst hbefore
  exact Skips.nil_iff.mp h

/-- A line closes a block exactly when its first word is `end`. -/
theorem occursIn_blockCloser_iff {line : Text} :
    blockCloser.occursIn line = true ↔ firstWord line = "end" := by
  have hp : ∀ {a b : Attempt}, (literal "end").Takes a b ↔ ∃ s ∈ ["end"], a.Skips s.toList b := by
    intro a b
    rw [takes_literal_iff]
    simp
  have hws : ∀ s ∈ ["end"], IsWholeWord s := by decide
  have hword : (∃ b, blockCloser.Takes (front line) b) ↔ firstWord line ∈ ["end"] :=
    exists_takes_wordFirst_iff hp hws
  rw [occursIn_iff, ← List.mem_singleton, ← hword]
  constructor
  · rintro ⟨w, a, b, ha, hb⟩
    rw [ha.eq_front ((takes_wordFirst_iff hp hws).mp hb).1] at hb
    exact ⟨b, hb⟩
  · rintro ⟨b, hb⟩
    exact ⟨[], _, b, .refl _, hb⟩

/-! ## A `do` at the end -/

/-- Arguments between bars, or none. -/
def IsArguments (t : Text) : Prop := t = [] ∨ ∃ names, '|' ∉ names ∧ t = '|' :: (names ++ ['|'])

/-- A `do`, perhaps with arguments, and nothing else but white space. -/
def IsDo (t : Text) : Prop :=
  ∃ gap args rest, t = "do".toList ++ (gap ++ (args ++ rest)) ∧ (∀ c ∈ gap, isSpace c = true) ∧
    IsArguments args ∧ ∀ c ∈ rest, isSpace c = true

/-- A line that ends in the word `do`, perhaps with arguments. -/
def EndsInDo (line : Text) : Prop :=
  ∃ pre t, line = pre ++ t ∧ pre.getLast?.any isWord = false ∧ IsDo t

/-- The second alternative of the pattern that opens. -/
def trailingDo : Pattern :=
  chain [boundary, "do", boundary, spaces, opt (chain ["|", many (except "|"), "|"]), spaces,
    textEnd]

theorem takes_arguments_iff {a b : Attempt} :
    (opt (chain ["|", many (except "|"), "|"])).Takes a b ↔
      ∃ args, IsArguments args ∧ a.Skips args b := by
  have hbar : "|".toList = ['|'] := rfl
  simp only [opt, takes_alt_iff, takes_chain_cons_iff, takes_literal_iff, except,
    takes_many_char_iff, hbar, List.contains_cons, List.contains_nil, Bool.or_false]
  constructor
  · rintro (⟨c, hc, d, ⟨names, hnames, hd⟩, e, he, hb⟩ | hb)
    · obtain rfl := takes_empty_iff.mp hb
      refine ⟨'|' :: (names ++ ['|']), Or.inr ⟨names, fun hmem => ?_, rfl⟩,
        Skips.cons_iff.mpr ⟨c, hc, hd.trans he⟩⟩
      exact absurd (hnames _ hmem) (by decide)
    · rw [takes_empty_iff] at hb
      exact ⟨[], Or.inl rfl, Skips.nil_iff.mpr hb⟩
  · rintro ⟨args, rfl | ⟨names, hnames, rfl⟩, hb⟩
    · exact Or.inr (takes_empty_iff.mpr (Skips.nil_iff.mp hb))
    · obtain ⟨c, hc, hcb⟩ := Skips.cons_iff.mp hb
      obtain ⟨d, hd, he⟩ := Skips.append_iff.mp hcb
      refine Or.inl ⟨c, hc, d, ⟨names, fun ch hch => ?_, hd⟩, b, he, .empty⟩
      rw [Bool.not_eq_true', beq_eq_false_iff_ne]
      exact fun heq => hnames (heq ▸ hch)

/-- What stands behind a `do` does not begin with a word character. -/
theorem any_isWord_head?_eq_false {gap args rest : Text} (hgap : ∀ c ∈ gap, isSpace c = true)
    (hargs : IsArguments args) (hrest : ∀ c ∈ rest, isSpace c = true) :
    (gap ++ (args ++ rest)).head?.any isWord = false := by
  have hbar : isWord '|' = false := by decide
  cases gap with
  | cons c gap => exact isWord_eq_false_of_isSpace (hgap c List.mem_cons_self)
  | nil =>
    rcases hargs with rfl | ⟨names, -, rfl⟩
    · cases rest with
      | nil => rfl
      | cons c rest => exact isWord_eq_false_of_isSpace (hrest c List.mem_cons_self)
    · exact hbar

/-- The alternative matches where the rest of the text is a `do` and no word goes on, and takes all
of it. -/
theorem takes_trailingDo_iff {a b : Attempt} : trailingDo.Takes a b ↔
    a.before.any isWord = false ∧ IsDo a.rest ∧ a.Skips a.rest b := by
  have hd : isWord 'd' = true := by decide
  have ho : isWord 'o' = true := by decide
  have hdo : "do".toList = ['d', 'o'] := rfl
  simp only [trailingDo, takes_chain_cons_iff, boundary, spaces, space, textEnd, takes_anchor_iff,
    takes_many_char_iff, takes_literal_iff, takes_arguments_iff]
  constructor
  · rintro ⟨_, ⟨hstart, rfl⟩, c, hc, _, ⟨-, rfl⟩, d, ⟨gap, hgap, hd'⟩, e, ⟨args, hargs, he⟩, f,
      ⟨rest, hrest, hf⟩, _, ⟨hend, rfl⟩, hb⟩
    obtain rfl := takes_empty_iff.mp hb
    have hskips := hc.trans (hd'.trans (he.trans hf))
    have hnil : b.rest = [] := List.isEmpty_iff.mp hend
    have ha := hskips.rest_eq
    rw [hnil, List.append_nil] at ha
    refine ⟨?_, ⟨gap, args, rest, ha, hgap, hargs, hrest⟩, ha ▸ hskips⟩
    rw [Anchor.holds, ha, hdo, List.cons_append, List.head?_cons, Option.any_some, hd, bne_iff_ne,
      Ne, Bool.not_eq_true] at hstart
    exact hstart
  · rintro ⟨hbefore, ⟨gap, args, rest, ha, hgap, hargs, hrest⟩, hb⟩
    have hnil : b.rest = [] := List.self_eq_append_right.mp hb.rest_eq
    rw [ha] at hb
    obtain ⟨c, hc, hb⟩ := Skips.append_iff.mp hb
    obtain ⟨d, hd', hb⟩ := Skips.append_iff.mp hb
    obtain ⟨e, he, hf⟩ := Skips.append_iff.mp hb
    have hcrest : c.rest = gap ++ (args ++ rest) :=
      List.append_cancel_left (hc.rest_eq.symm.trans ha)
    refine ⟨a, ⟨?_, rfl⟩, c, hc, c, ⟨?_, rfl⟩, d, ⟨gap, hgap, hd'⟩, e, ⟨args, hargs, he⟩, b,
      ⟨rest, hrest, hf⟩, b, ⟨List.isEmpty_iff.mpr hnil, rfl⟩, .empty⟩
    · rw [Anchor.holds, ha, hdo, hbefore, List.cons_append, List.head?_cons, Option.any_some, hd]
      rfl
    · have hcbefore : c.before.any isWord = true := by
        rw [hc.before_eq]
        exact ho
      rw [Anchor.holds, hcrest, any_isWord_head?_eq_false hgap hargs hrest, hcbefore]
      rfl

/-- A line ends in `do` exactly when the alternative matches in it. -/
theorem endsInDo_iff {line : Text} : EndsInDo line ↔
    ∃ w a b, (front line).Skips w a ∧ trailingDo.Takes a b := by
  constructor
  · rintro ⟨pre, t, hline, hpre, ht⟩
    obtain ⟨a, ha, rfl⟩ := exists_skips (a := front line) hline
    obtain ⟨b, hb, -⟩ := exists_skips (List.append_nil a.rest).symm
    refine ⟨pre, a, b, ha, takes_trailingDo_iff.mpr ⟨?_, ht, hb⟩⟩
    rw [ha.before_eq_getLast?]
    exact hpre
  · rintro ⟨w, a, b, ha, hb⟩
    obtain ⟨hbefore, hdo, -⟩ := takes_trailingDo_iff.mp hb
    rw [ha.before_eq_getLast?] at hbefore
    exact ⟨w, a.rest, ha.rest_eq, hbefore, hdo⟩

instance (line : Text) : Decidable (EndsInDo line) :=
  decidable_of_iff (trailingDo.occursIn line = true) (occursIn_iff.trans endsInDo_iff.symm)

/-! ## How often a line opens a block -/

/-- The words that open a block where a line begins with them. -/
def blockWords : List String :=
  ["class", "module", "def", "if", "unless", "case", "while", "until", "for", "begin"]

/-- The first alternative of the pattern that opens. -/
def leadingWord : Pattern := chain [textStart, spaces, words blockWords, boundary]

theorem isWholeWord_of_mem_blockWords : ∀ s ∈ blockWords, IsWholeWord s := by decide

theorem append_word_ne_nil {s : String} (hs : s ∈ blockWords) (gap v : Text) :
    gap ++ s.toList ++ v ≠ [] := by
  rw [Ne, List.append_eq_nil_iff, List.append_eq_nil_iff]
  exact fun h => (isWholeWord_of_mem_blockWords s hs).1 h.1.2

theorem takes_blockOpener_iff {a b : Attempt} :
    blockOpener.Takes a b ↔ leadingWord.Takes a b ∨ trailingDo.Takes a b :=
  takes_alt_iff

theorem isNullable_blockOpener : blockOpener.isNullable = false := by decide

theorem takes_leadingWord_iff {a b : Attempt} : leadingWord.Takes a b ↔
    a.before = none ∧ ∃ gap, ∃ s ∈ blockWords, (∀ c ∈ gap, isSpace c = true) ∧
      a.Skips (gap ++ s.toList) b ∧ b.rest.head?.any isWord = false :=
  takes_wordFirst_iff takes_words_iff isWholeWord_of_mem_blockWords

theorem exists_takes_leadingWord_iff {line : Text} :
    (∃ b, leadingWord.Takes (front line) b) ↔ firstWord line ∈ blockWords :=
  exists_takes_wordFirst_iff takes_words_iff isWholeWord_of_mem_blockWords

/-- A line opens a block exactly when it begins with one of the words or ends in `do`. -/
theorem occursIn_blockOpener_iff {line : Text} : blockOpener.occursIn line = true ↔
    firstWord line ∈ blockWords ∨ EndsInDo line := by
  rw [occursIn_iff, endsInDo_iff, ← exists_takes_leadingWord_iff]
  constructor
  · rintro ⟨w, a, b, ha, hb⟩
    rcases takes_blockOpener_iff.mp hb with hword | hdo
    · rw [ha.eq_front (takes_leadingWord_iff.mp hword).1] at hword
      exact Or.inl ⟨b, hword⟩
    · exact Or.inr ⟨w, a, b, ha, hdo⟩
  · rintro (⟨b, hb⟩ | ⟨w, a, b, ha, hb⟩)
    · exact ⟨[], _, b, .refl _, takes_blockOpener_iff.mpr (Or.inl hb)⟩
    · exact ⟨w, a, b, ha, takes_blockOpener_iff.mpr (Or.inr hb)⟩

/-- A `do` at the end of a line that begins with one of the words stands behind that word. -/
theorem exists_append_of_isDo {gap pre rest t : Text} {s : String} (hs : s ∈ blockWords)
    (hgap : ∀ c ∈ gap, isSpace c = true) (hline : gap ++ s.toList ++ rest = pre ++ t)
    (hpre : pre.getLast?.any isWord = false) (ht : IsDo t) :
    ∃ w, pre = gap ++ s.toList ++ w ∧ rest = w ++ t := by
  have hword := isWholeWord_of_mem_blockWords s hs
  obtain ⟨tail, htail⟩ : ∃ tail, t = 'd' :: 'o' :: tail := by
    obtain ⟨_, _, _, rfl, -⟩ := ht
    exact ⟨_, rfl⟩
  have hbegins : s.toList ++ rest ≠ t := by
    have htwo : ∀ s ∈ blockWords, 2 ≤ s.toList.length ∧ s.toList.take 2 ≠ ['d', 'o'] := by decide
    intro heq
    have htake := congrArg (List.take 2) heq
    rw [List.take_append_of_le_length (htwo s hs).1, htail] at htake
    exact (htwo s hs).2 htake
  rcases List.append_eq_append_iff.mp hline with ⟨w, hprew, hrest⟩ | ⟨w, hw, htw⟩
  · exact ⟨w, hprew, hrest⟩
  · -- otherwise it would begin inside of the word, at its front or in the white space
    exfalso
    rcases List.append_eq_append_iff.mp hw with ⟨v, hprev, hv⟩ | ⟨v, hv, hwv⟩
    · cases hlast : v.getLast? with
      | none =>
        rw [List.getLast?_eq_none_iff.mp hlast, List.nil_append] at hv
        exact hbegins (by rw [hv, htw])
      | some c =>
        have hc : isWord c = true :=
          hword.isWord c (hv ▸ List.mem_append_left w (List.mem_of_getLast? hlast))
        rw [hprev, List.getLast?_append, hlast, Option.some_or, Option.any_some, hc] at hpre
        exact absurd hpre (by decide)
    · cases v with
      | nil => exact hbegins (by rw [htw, hwv, List.nil_append])
      | cons c v =>
        have hc : isSpace c = true := hgap c (hv ▸ List.mem_append_right pre List.mem_cons_self)
        rw [htail, hwv, List.cons_append, List.cons_append] at htw
        rw [← (List.cons.inj htw).1] at hc
        exact absurd hc (by decide)

theorem exists_skips_of_trailingDo {line gap : Text} {s : String} (hs : s ∈ blockWords)
    (hgap : ∀ c ∈ gap, isSpace c = true) {b : Attempt}
    (hb : (front line).Skips (gap ++ s.toList) b) {w : Text} {a c : Attempt}
    (ha : (front line).Skips w a) (hc : trailingDo.Takes a c) :
    ∃ v, w = gap ++ s.toList ++ v ∧ b.Skips v a := by
  obtain ⟨hbefore, hdo, -⟩ := takes_trailingDo_iff.mp hc
  rw [ha.before_eq_getLast?] at hbefore
  obtain ⟨v, rfl, -⟩ :=
    exists_append_of_isDo hs hgap (hb.rest_eq.symm.trans ha.rest_eq) hbefore hdo
  obtain ⟨d, hd, hda⟩ := Skips.append_iff.mp ha
  exact ⟨v, rfl, hd.unique hb ▸ hda⟩

/-- From where no word can lead any more, a `do` at the end is the only match. -/
theorem length_allFrom_blockOpener {limit : Nat} {a : Attempt} (hlimit : a.rest.length ≤ limit)
    (hgroups : a.groups = []) (hword : ∀ w b c, a.Skips w b → ¬ leadingWord.Takes b c)
    {P : Prop} [Decidable P] (hP : P ↔ ∃ w b c, a.Skips w b ∧ trailingDo.Takes b c) (n : Nat)
    (last : Option Nat) :
    (blockOpener.allFrom limit (n + 1) a.before a.rest a.index last).length =
      if P then 1 else 0 := by
  have htakes : ∀ w b c, a.Skips w b → blockOpener.Takes b c → trailingDo.Takes b c :=
    fun w b c hb hc => (takes_blockOpener_iff.mp hc).resolve_left (hword w b c hb)
  split
  · rename_i h
    obtain ⟨w, b, c, hb, hc⟩ := hP.mp h
    refine length_allFrom_eq_one isNullable_blockOpener hlimit hgroups (fun w b c hb hc => ?_)
      ⟨w, b, c, hb, takes_blockOpener_iff.mpr (Or.inr hc)⟩ n last
    have hskips := (takes_trailingDo_iff.mp (htakes w b c hb hc)).2.2
    exact List.self_eq_append_right.mp hskips.rest_eq
  · rename_i h
    rw [allFrom_eq_nil hlimit hgroups, List.length_nil]
    exact fun w b c hb hc => h (hP.mpr ⟨w, b, c, hb, htakes w b c hb hc⟩)

/-- How often a line opens a block: once if it begins with one of the words, and once if it ends in
`do`. -/
theorem length_all_blockOpener (line : Text) : (blockOpener.all line).length =
    (if firstWord line ∈ blockWords then 1 else 0) + (if EndsInDo line then 1 else 0) := by
  have hlimit : (front line).rest.length ≤ line.length := Nat.le_refl _
  by_cases hfirst : firstWord line ∈ blockWords
  · obtain ⟨b, hb⟩ := exists_takes_leadingWord_iff.mpr hfirst
    obtain ⟨e, hfound, he⟩ :=
      exists_firstFrom_of_takes hlimit rfl (takes_blockOpener_iff.mpr (Or.inl hb))
    -- what is found first is the word, since no `do` stands at the front
    have hlead : leadingWord.Takes (front line) e := by
      refine (takes_blockOpener_iff.mp he).resolve_right fun hdo => ?_
      obtain ⟨-, gap, s, hs, hgap, hskips, -⟩ := takes_leadingWord_iff.mp hb
      obtain ⟨v, hv, -⟩ := exists_skips_of_trailingDo hs hgap hskips (.refl _) hdo
      exact append_word_ne_nil hs gap v hv.symm
    obtain ⟨-, gap, s, hs, hgap, hskips, -⟩ := takes_leadingWord_iff.mp hlead
    have hbehind : ∀ w a c, e.Skips w a → ¬ leadingWord.Takes a c := by
      intro w a c ha hc
      have hbefore := (hskips.trans ha).before_eq_getLast?
      rw [(takes_leadingWord_iff.mp hc).1, eq_comm, List.getLast?_eq_none_iff] at hbefore
      exact append_word_ne_nil hs gap w hbefore
    have hdo : EndsInDo line ↔ ∃ w a c, e.Skips w a ∧ trailingDo.Takes a c := by
      rw [endsInDo_iff]
      constructor
      · rintro ⟨w, a, c, ha, hc⟩
        obtain ⟨v, -, hv⟩ := exists_skips_of_trailingDo hs hgap hskips ha hc
        exact ⟨v, a, c, hv, hc⟩
      · rintro ⟨w, a, c, ha, hc⟩
        exact ⟨_, a, c, hskips.trans ha, hc⟩
    have hcount := length_allFrom_blockOpener hskips.length_le hskips.groups_eq hbehind hdo
      (2 * line.length) (some e.index)
    have hall := allFrom_of_firstFrom isNullable_blockOpener hfound (2 * line.length + 1) none
    rw [if_pos hfirst, Nat.add_comm, ← hcount]
    exact congrArg List.length hall
  · rw [if_neg hfirst, Nat.zero_add]
    refine length_allFrom_blockOpener hlimit rfl (fun w a b ha hb => ?_) endsInDo_iff _ _
    rw [ha.eq_front (takes_leadingWord_iff.mp hb).1] at hb
    exact hfirst (exists_takes_leadingWord_iff.mp ⟨b, hb⟩)

/-- What a line adds to the depth. -/
theorem endKeywordDelta_eq (isFirst : Bool) (line : Text) : endKeywordDelta isFirst line =
    (if firstWord line ∈ blockWords then 1 else 0) + (if EndsInDo line then 1 else 0)
      - (if firstWord line = "end" then 1 else 0)
      - (if isFirst && Text.contains "; end".toList line then 1 else 0) := by
  rw [endKeywordDelta, length_all_blockOpener]
  simp only [occursIn_blockCloser_iff, Nat.cast_add, Nat.cast_ite, Nat.cast_one, Nat.cast_zero]

/-- A line that ends in `do` has nothing but white space behind an `o` or a bar. -/
theorem EndsInDo.exists_last {line : Text} (h : EndsInDo line) :
    ∃ pre last trail, line = pre ++ last :: trail ∧ (last = 'o' ∨ last = '|') ∧
      ∀ c ∈ trail, isSpace c = true := by
  obtain ⟨pre, -, rfl, -, gap, args, rest, rfl, hgap, rfl | ⟨names, -, rfl⟩, hrest⟩ := h
  · refine ⟨pre ++ ['d'], 'o', gap ++ rest, ?_, Or.inl rfl, ?_⟩
    · rw [List.nil_append, List.append_assoc]
      rfl
    · exact fun c hc => (List.mem_append.mp hc).elim (hgap c) (hrest c)
  · refine ⟨pre ++ "do".toList ++ gap ++ '|' :: names, '|', rest, ?_, Or.inr rfl, hrest⟩
    simp [List.append_assoc]

end Outline

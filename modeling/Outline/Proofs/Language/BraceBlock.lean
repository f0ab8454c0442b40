import Mathlib.Data.List.TakeWhile
import Mathlib.Order.Nat
import Outline.Proofs.Language.BlockEnd

/-!
# Where a brace block ends

The scan for the end of a brace block keeps a count of braces and leaves the loop on one of three
grounds, which it looks at line by line: a blank line before the first brace, braces that balance,
and a semicolon at the end of a line before the first brace.  The count is that of the text from the
first line on (`BraceCount.scan_zero`), so each of the grounds can be told from the lines alone
(`BraceExit`), and the scan ends on the first line that gives one
(`braceBlockEnd?_eq_some_iff_exit`).

Which ground comes first depends on where the first brace stands.  Before it only the blank lines
and the semicolons matter, and a block that gets past them ends where the braces balance for the
first time.

* `ClosesBraces`: texts that close as many braces as they open.
* `EndsAtBrace`, `EndsBeforeBrace`: the two ways in which a block may end.
* `braceBlockEnd_eq_some_iff`: there is no other.
-/

namespace Outline

/-- Line `i` is there and has a property. -/
def HasLine (lines : List Text) (p : Text → Prop) (i : Nat) : Prop :=
  ∃ line, lines[i]? = some line ∧ p line

/-- The characters of the lines from `start` on and before line `stop`. -/
def charsBefore (lines : List Text) (start stop : Nat) : Text :=
  ((lines.drop start).take (stop - start)).flatten

/-- Behind the first opening brace there are as many closing braces as there are opening ones, or
more. -/
def ClosesBraces (t : Text) : Prop :=
  t.count '\x7b' ≤ (t.dropWhile fun c => c != '\x7b').count '\x7d'

instance (t : Text) : Decidable (ClosesBraces t) := inferInstanceAs (Decidable (_ ≤ _))

/-- A line on which a construct ends that has had no brace: it ends in a semicolon. -/
abbrev IsSemicolonLine (lines : List Text) : Nat → Prop :=
  HasLine lines fun line => endsInSemicolon line = true

/-- A blank line. -/
abbrev IsBlankLine (lines : List Text) : Nat → Prop :=
  HasLine lines fun line => line.isBlank = true

/-- A line with an opening brace. -/
abbrev IsOpeningLine (lines : List Text) : Nat → Prop :=
  HasLine lines fun line => '\x7b' ∈ line

/-- The block that begins on line `start` gets to its first brace, and `stop` is the first line from
there on at whose end the braces balance. -/
def EndsAtBrace (lines : List Text) (start stop : Nat) : Prop :=
  ∃ opener, IsLeast {i | start ≤ i ∧ IsOpeningLine lines i} opener ∧
    (∀ i, start ≤ i → i < opener → ¬ IsSemicolonLine lines i) ∧
    (∀ i, start < i → i < opener → ¬ IsBlankLine lines i) ∧
    IsLeast {i | opener ≤ i ∧ i < lines.length ∧ ClosesBraces (charsBefore lines start (i + 1))}
      stop

/-- The block that begins on line `start` ends without a brace: with the first line that ends in a
semicolon, or before the first blank line behind its own first one, whichever comes first. -/
def EndsBeforeBrace (lines : List Text) (start stop : Nat) : Prop :=
  (∀ i, start ≤ i → i ≤ stop → ¬ IsOpeningLine lines i) ∧
    IsLeast {i | start ≤ i ∧ (IsSemicolonLine lines i ∨ IsBlankLine lines (i + 1))} stop

/-! ## The count of braces -/

namespace BraceCount

theorem scan_append (b : BraceCount) (t u : Text) : b.scan (t ++ u) = (b.scan t).scan u :=
  List.foldl_append

/-- Behind the first opening brace all braces count. -/
theorem scan_opened (n : Int) (t : Text) :
    scan ⟨n, true⟩ t = ⟨n + t.count '\x7b' - t.count '\x7d', true⟩ := by
  rw [scan]
  induction t generalizing n with
  | nil => simp
  | cons c t ih =>
    by_cases hopen : c = '\x7b'
    · have hstep : step ⟨n, true⟩ c = ⟨n + 1, true⟩ := by rw [step, if_pos hopen]
      rw [List.foldl_cons, hstep, ih, hopen]
      simp
      omega
    · by_cases hclose : c = '\x7d'
      · have hstep : step ⟨n, true⟩ c = ⟨n - 1, true⟩ := by
          rw [step, if_neg hopen, if_pos (by simp [hclose])]
        rw [List.foldl_cons, hstep, ih, hclose]
        simp
        omega
      · have hstep : step ⟨n, true⟩ c = ⟨n, true⟩ := by
          rw [step, if_neg hopen, if_neg (by simp [hclose])]
        rw [List.foldl_cons, hstep, ih, List.count_cons_of_ne hopen, List.count_cons_of_ne hclose]

/-- The count of a whole text. -/
theorem scan_zero (t : Text) : zero.scan t =
    ⟨t.count '\x7b' - (t.dropWhile fun c => c != '\x7b').count '\x7d', decide ('\x7b' ∈ t)⟩ := by
  induction t with
  | nil => rfl
  | cons c t ih =>
    by_cases hopen : c = '\x7b'
    · have hstep : zero.scan (c :: t) = scan ⟨1, true⟩ t := by
        rw [scan, List.foldl_cons, step, if_pos hopen]
        rfl
      rw [hstep, scan_opened, hopen]
      simp
      omega
    · have hstep : zero.scan (c :: t) = zero.scan t := by
        rw [scan, List.foldl_cons, step, if_neg hopen]
        simp [zero, scan]
      rw [hstep, ih, List.count_cons_of_ne hopen, List.dropWhile_cons_of_pos (by simpa using hopen)]
      simp [Ne.symm hopen]

/-- A text in which the count has come down again is one that closes its braces. -/
theorem balance_scan_le_zero_iff (t : Text) : (zero.scan t).balance ≤ 0 ↔ ClosesBraces t := by
  simp only [scan_zero, ClosesBraces]
  omega

theorem opened_scan_iff (t : Text) : (zero.scan t).opened = true ↔ '\x7b' ∈ t := by
  rw [scan_zero, decide_eq_true_eq]

end BraceCount

/-! ## The text before a line -/

section CharsBefore

variable {lines : List Text} {start i : Nat} {line : Text}

theorem HasLine.lt_length {p : Text → Prop} (h : HasLine lines p i) : i < lines.length := by
  obtain ⟨line, hline, -⟩ := h
  exact (List.getElem?_eq_some_iff.mp hline).1

theorem hasLine_iff {p : Text → Prop} (h : lines[i]? = some line) : HasLine lines p i ↔ p line := by
  rw [HasLine, h]
  simp

theorem charsBefore_self (lines : List Text) (start : Nat) :
    charsBefore lines start start = [] := by
  rw [charsBefore, Nat.sub_self, List.take_zero, List.flatten_nil]

theorem charsBefore_succ (hi : start ≤ i) (hline : lines[i]? = some line) :
    charsBefore lines start (i + 1) = charsBefore lines start i ++ line := by
  have hget : (lines.drop start)[i - start]? = some line := by
    rw [List.getElem?_drop, Nat.add_sub_of_le hi, hline]
  rw [charsBefore, Nat.sub_add_comm hi, List.take_add_one, hget, charsBefore]
  simp

/-- A brace stands before a line if there is a line with one. -/
theorem brace_mem_charsBefore_iff {stop : Nat} : '\x7b' ∈ charsBefore lines start stop ↔
    ∃ i, start ≤ i ∧ i < stop ∧ IsOpeningLine lines i := by
  rw [charsBefore, List.mem_flatten]
  constructor
  · rintro ⟨line, hline, hmem⟩
    obtain ⟨k, hk⟩ := List.mem_iff_getElem?.mp hline
    rw [List.getElem?_take] at hk
    split at hk
    · rename_i hlt
      rw [List.getElem?_drop] at hk
      exact ⟨start + k, Nat.le_add_right start k, by omega, line, hk, hmem⟩
    · exact absurd hk (by simp)
  · rintro ⟨i, hi, hlt, line, hline, hmem⟩
    refine ⟨line, List.mem_iff_getElem?.mpr ⟨i - start, ?_⟩, hmem⟩
    rw [List.getElem?_take_of_lt (by omega), List.getElem?_drop, Nat.add_sub_of_le hi, hline]

theorem brace_notMem_of_le {stop : Nat} (hle : i ≤ stop)
    (h : '\x7b' ∉ charsBefore lines start stop) : '\x7b' ∉ charsBefore lines start i := by
  rw [brace_mem_charsBefore_iff] at h ⊢
  rintro ⟨k, hk, hlt, hopen⟩
  exact h ⟨k, hk, Nat.lt_of_lt_of_le hlt hle, hopen⟩

end CharsBefore

/-- A blank line has no brace on it and no semicolon. -/
theorem isBlank_eq_false_of_brace {line : Text} (h : '\x7b' ∈ line) : line.isBlank = false :=
  isBlank_eq_false_of_mem h (by decide)

/-! ## The grounds on which the scan ends -/

/-- The scan for the end of the block that begins on line `start` ends on line `i` with a result. -/
inductive BraceExit (lines : List Text) (start i : Nat) : Nat → Prop where
  | blank : start < i → IsBlankLine lines i → '\x7b' ∉ charsBefore lines start i →
      BraceExit lines start i (i - 1)
  | balanced : i < lines.length → '\x7b' ∈ charsBefore lines start (i + 1) →
      ClosesBraces (charsBefore lines start (i + 1)) → BraceExit lines start i i
  | semicolon : IsSemicolonLine lines i → '\x7b' ∉ charsBefore lines start (i + 1) →
      BraceExit lines start i i

section BraceExit

variable {lines rest : List Text} {start i stop : Nat} {line : Text}

theorem BraceExit.lt_length (h : BraceExit lines start i stop) : i < lines.length := by
  cases h with
  | blank _ hline _ => exact hline.lt_length
  | balanced hlt _ _ => exact hlt
  | semicolon hline _ => exact hline.lt_length

/-- The scan on one line, in terms of the lines so far. -/
theorem braceScan_cons (hi : start ≤ i) (hline : lines[i]? = some line) :
    braceScan i (decide (i = start)) (BraceCount.zero.scan (charsBefore lines start i))
        (line :: rest) =
      if '\x7b' ∉ charsBefore lines start i ∧ start < i ∧ line.isBlank = true then some (i - 1)
      else if '\x7b' ∈ charsBefore lines start (i + 1) ∧
          ClosesBraces (charsBefore lines start (i + 1)) then some i
      else if '\x7b' ∉ charsBefore lines start (i + 1) ∧ endsInSemicolon line = true then some i
      else braceScan (i + 1) (decide (i + 1 = start))
        (BraceCount.zero.scan (charsBefore lines start (i + 1))) rest := by
  have hnext : decide (i + 1 = start) = false := decide_eq_false (by omega)
  have hfirst : (!decide (i = start)) = decide (start < i) := by
    rw [← decide_not, decide_eq_decide]
    omega
  rw [braceScan, hnext, hfirst, ← BraceCount.scan_append, ← charsBefore_succ hi hline]
  simp only [Bool.and_eq_true, Bool.not_eq_true', ← Bool.not_eq_true, BraceCount.opened_scan_iff,
    decide_eq_true_eq, BraceCount.balance_scan_le_zero_iff, and_assoc]

theorem braceScan_of_exit (rest : List Text) (hi : start ≤ i) (hline : lines[i]? = some line)
    (h : BraceExit lines start i stop) :
    braceScan i (decide (i = start)) (BraceCount.zero.scan (charsBefore lines start i))
      (line :: rest) = some stop := by
  rw [braceScan_cons hi hline]
  cases h with
  | blank hlt hblank hbrace => rw [if_pos ⟨hbrace, hlt, (hasLine_iff hline).mp hblank⟩]
  | balanced hlt hbrace hcloses =>
    rw [if_neg, if_pos ⟨hbrace, hcloses⟩]
    rintro ⟨hbefore, -, hblank⟩
    rw [charsBefore_succ hi hline, List.mem_append] at hbrace
    rw [isBlank_eq_false_of_brace (hbrace.resolve_left hbefore)] at hblank
    exact absurd hblank (by decide)
  | semicolon hsemi hbrace =>
    have hsemi' := (hasLine_iff hline).mp hsemi
    rw [if_neg, if_neg fun h => hbrace h.1, if_pos ⟨hbrace, hsemi'⟩]
    rintro ⟨-, -, hblank⟩
    rw [isBlank_eq_false_of_mem (mem_of_endsInSemicolon hsemi') (by decide)] at hblank
    exact absurd hblank (by decide)

theorem braceScan_of_no_exit (hi : start ≤ i) (hline : lines[i]? = some line)
    (h : ∀ stop, ¬ BraceExit lines start i stop) :
    braceScan i (decide (i = start)) (BraceCount.zero.scan (charsBefore lines start i))
        (line :: rest) =
      braceScan (i + 1) (decide (i + 1 = start))
        (BraceCount.zero.scan (charsBefore lines start (i + 1))) rest := by
  have hlt : i < lines.length := (List.getElem?_eq_some_iff.mp hline).1
  rw [braceScan_cons hi hline, if_neg, if_neg, if_neg]
  · exact fun hc => h i (.semicolon ((hasLine_iff hline).mpr hc.2) hc.1)
  · exact fun hc => h i (.balanced hlt hc.1 hc.2)
  · exact fun hc => h (i - 1) (.blank hc.2.1 ((hasLine_iff hline).mpr hc.2.2) hc.1)

/-- The scan ends on the first line that gives a ground for it. -/
theorem braceScan_eq_some_iff (hi : start ≤ i) (hrest : lines.drop i = rest) :
    braceScan i (decide (i = start)) (BraceCount.zero.scan (charsBefore lines start i)) rest =
        some stop ↔
      ∃ k, i ≤ k ∧ BraceExit lines start k stop ∧
        ∀ j, i ≤ j → j < k → ∀ s, ¬ BraceExit lines start j s := by
  induction rest generalizing i with
  | nil =>
    rw [braceScan]
    refine ⟨fun h => absurd h (by simp), ?_⟩
    rintro ⟨k, hk, hexit, -⟩
    have hlt := hexit.lt_length
    rw [List.drop_eq_nil_iff] at hrest
    omega
  | cons line rest ih =>
    obtain ⟨hline, hnext⟩ := getElem?_of_drop_eq_cons hrest
    by_cases h : ∃ s, BraceExit lines start i s
    · obtain ⟨s, hs⟩ := h
      rw [braceScan_of_exit rest hi hline hs]
      constructor
      · rintro hstop
        obtain rfl := Option.some.inj hstop
        exact ⟨i, Nat.le_refl i, hs, fun j hij hji => absurd hij (by omega)⟩
      · rintro ⟨k, hk, hexit, hbefore⟩
        rcases Nat.lt_or_ge i k with hlt | hge
        · exact absurd hs (hbefore i (Nat.le_refl i) hlt s)
        · -- one line gives one result
          obtain rfl : i = k := by omega
          rw [← braceScan_of_exit rest hi hline hs, braceScan_of_exit rest hi hline hexit]
    · rw [not_exists] at h
      rw [braceScan_of_no_exit hi hline h, ih (Nat.le_succ_of_le hi) hnext]
      constructor
      · rintro ⟨k, hk, hexit, hbefore⟩
        refine ⟨k, by omega, hexit, fun j hij hjk => ?_⟩
        rcases Nat.lt_or_eq_of_le hij with hlt | rfl
        · exact hbefore j hlt hjk
        · exact h
      · rintro ⟨k, hk, hexit, hbefore⟩
        have hne : k ≠ i := by
          rintro rfl
          exact h stop hexit
        exact ⟨k, by omega, hexit, fun j hij hjk => hbefore j (by omega) hjk⟩

theorem braceBlockEnd?_eq_some_iff_exit : braceBlockEnd? lines start = some stop ↔
    ∃ k, start ≤ k ∧ BraceExit lines start k stop ∧
      ∀ j, start ≤ j → j < k → ∀ s, ¬ BraceExit lines start j s := by
  rw [← braceScan_eq_some_iff (Nat.le_refl start) rfl, charsBefore_self, decide_eq_true rfl,
    braceBlockEnd?]
  rfl

end BraceExit

/-! ## The two ways to end -/

section Ends

variable {lines : List Text} {start stop k : Nat}

theorem brace_notMem_charsBefore_iff : '\x7b' ∉ charsBefore lines start stop ↔
    ∀ i, start ≤ i → i < stop → ¬ IsOpeningLine lines i := by
  rw [brace_mem_charsBefore_iff]
  exact ⟨fun h i hi hlt hopen => h ⟨i, hi, hlt, hopen⟩,
    fun h ⟨i, hi, hlt, hopen⟩ => h i hi hlt hopen⟩

/-- A line that ends in a semicolon is not blank. -/
theorem not_isBlankLine_of_isSemicolonLine {i : Nat} (h : IsSemicolonLine lines i) :
    ¬ IsBlankLine lines i := by
  obtain ⟨line, hline, hsemi⟩ := h
  rw [IsBlankLine, hasLine_iff hline,
    isBlank_eq_false_of_mem (mem_of_endsInSemicolon hsemi) (by decide)]
  exact Bool.false_ne_true

section FirstExit

variable (hbefore : ∀ j, start ≤ j → j < k → ∀ s, ¬ BraceExit lines start j s)

include hbefore

/-- As long as there has been no brace, no line before the first exit ends in a semicolon. -/
theorem not_isSemicolonLine_of_first {i : Nat} (hi : start ≤ i) (hik : i < k)
    (hbrace : '\x7b' ∉ charsBefore lines start (i + 1)) : ¬ IsSemicolonLine lines i :=
  fun hline => hbefore i hi hik i (.semicolon hline hbrace)

/-- As long as there has been no brace, no line before the first exit is blank. -/
theorem not_isBlankLine_of_first {i : Nat} (hi : start < i) (hik : i < k)
    (hbrace : '\x7b' ∉ charsBefore lines start i) : ¬ IsBlankLine lines i :=
  fun hline => hbefore i (Nat.le_of_lt hi) hik (i - 1) (.blank hi hline hbrace)

theorem endsBeforeBrace_of_blank (hlt : start < k) (hline : IsBlankLine lines k)
    (hbrace : '\x7b' ∉ charsBefore lines start k) : EndsBeforeBrace lines start (k - 1) := by
  obtain ⟨m, rfl⟩ : ∃ m, k = m + 1 := ⟨k - 1, by omega⟩
  rw [Nat.add_sub_cancel]
  refine ⟨fun i hi him => brace_notMem_charsBefore_iff.mp hbrace i hi (by omega),
    ⟨by omega, Or.inr hline⟩, ?_⟩
  rintro i ⟨hi, hend⟩
  by_contra hlt'
  rcases hend with hend | hend
  · exact not_isSemicolonLine_of_first hbefore hi (by omega)
      (brace_notMem_of_le (by omega) hbrace) hend
  · exact not_isBlankLine_of_first hbefore (by omega) (by omega)
      (brace_notMem_of_le (by omega) hbrace) hend

theorem endsBeforeBrace_of_semicolon (hk : start ≤ k) (hline : IsSemicolonLine lines k)
    (hbrace : '\x7b' ∉ charsBefore lines start (k + 1)) : EndsBeforeBrace lines start k := by
  refine ⟨fun i hi him => brace_notMem_charsBefore_iff.mp hbrace i hi (by omega),
    ⟨hk, Or.inl hline⟩, ?_⟩
  rintro i ⟨hi, hend⟩
  by_contra hlt'
  rcases hend with hend | hend
  · exact not_isSemicolonLine_of_first hbefore hi (by omega)
      (brace_notMem_of_le (by omega) hbrace) hend
  · rcases Nat.lt_or_eq_of_le (show i + 1 ≤ k by omega) with hik | rfl
    · exact not_isBlankLine_of_first hbefore (by omega) hik
        (brace_notMem_of_le (by omega) hbrace) hend
    · exact not_isBlankLine_of_isSemicolonLine hline hend

theorem endsAtBrace_of_balanced (hlt : k < lines.length)
    (hbrace : '\x7b' ∈ charsBefore lines start (k + 1))
    (hcloses : ClosesBraces (charsBefore lines start (k + 1))) : EndsAtBrace lines start k := by
  obtain ⟨i, hi, hik, hopen⟩ := brace_mem_charsBefore_iff.mp hbrace
  obtain ⟨opener, hopener⟩ : ∃ o, IsLeast {i | start ≤ i ∧ IsOpeningLine lines i} o := by
    classical exact ⟨_, Nat.isLeast_find ⟨i, hi, hopen⟩⟩
  obtain ⟨⟨hstart, hfirst⟩, hleast⟩ := id hopener
  have hle : opener ≤ i := hleast ⟨hi, hopen⟩
  have hnone : ∀ j, j ≤ opener → '\x7b' ∉ charsBefore lines start j := by
    refine fun j hj => brace_notMem_charsBefore_iff.mpr fun l hl hlj hopen' => ?_
    have hol := hleast ⟨hl, hopen'⟩
    omega
  refine ⟨opener, hopener,
    fun j hj hjo => not_isSemicolonLine_of_first hbefore hj (by omega) (hnone _ (by omega)),
    fun j hj hjo => not_isBlankLine_of_first hbefore hj (by omega) (hnone _ (by omega)),
    ⟨by omega, hlt, hcloses⟩, ?_⟩
  rintro j ⟨hoj, hjlt, hjcloses⟩
  by_contra hjk
  have hmem : '\x7b' ∈ charsBefore lines start (j + 1) :=
    brace_mem_charsBefore_iff.mpr ⟨opener, hstart, by omega, hfirst⟩
  exact hbefore j (by omega) (by omega) j (.balanced hjlt hmem hjcloses)

end FirstExit

theorem BraceExit.endsAtBrace_or_endsBeforeBrace (hk : start ≤ k)
    (h : BraceExit lines start k stop)
    (hbefore : ∀ j, start ≤ j → j < k → ∀ s, ¬ BraceExit lines start j s) :
    EndsAtBrace lines start stop ∨ EndsBeforeBrace lines start stop := by
  cases h with
  | blank hlt hline hbrace => exact Or.inr (endsBeforeBrace_of_blank hbefore hlt hline hbrace)
  | semicolon hline hbrace => exact Or.inr (endsBeforeBrace_of_semicolon hbefore hk hline hbrace)
  | balanced hlt hbrace hcloses => exact Or.inl (endsAtBrace_of_balanced hbefore hlt hbrace hcloses)

theorem EndsAtBrace.exists_exit (h : EndsAtBrace lines start stop) :
    start ≤ stop ∧ BraceExit lines start stop stop ∧
      ∀ j, start ≤ j → j < stop → ∀ s, ¬ BraceExit lines start j s := by
  obtain ⟨opener, ⟨⟨hstart, hopen⟩, hfirst⟩, hsemicolon, hblank, ⟨hle, hlt, hcloses⟩, hleast⟩ := h
  have hmem : ∀ j, opener < j → '\x7b' ∈ charsBefore lines start j :=
    fun j hj => brace_mem_charsBefore_iff.mpr ⟨opener, hstart, hj, hopen⟩
  refine ⟨by omega, .balanced hlt (hmem _ (by omega)) hcloses, fun j hj hjs s hexit => ?_⟩
  cases hexit with
  | blank hlt' hline hbrace =>
    rcases Nat.lt_trichotomy j opener with hjo | rfl | hjo
    · exact hblank j hlt' hjo hline
    · obtain ⟨line, hline', hbrace'⟩ := hopen
      rw [IsBlankLine, hasLine_iff hline', isBlank_eq_false_of_brace hbrace'] at hline
      exact absurd hline Bool.false_ne_true
    · exact hbrace (hmem j hjo)
  | balanced hjlt hbrace hcloses' =>
    obtain ⟨i, hi, hij, hopen'⟩ := brace_mem_charsBefore_iff.mp hbrace
    have hoi := hfirst ⟨hi, hopen'⟩
    have hsj := hleast ⟨show opener ≤ j by omega, hjlt, hcloses'⟩
    omega
  | semicolon hline hbrace =>
    rcases Nat.lt_or_ge j opener with hjo | hjo
    · exact hsemicolon j hj hjo hline
    · exact hbrace (hmem _ (by omega))

theorem EndsBeforeBrace.exists_exit (h : EndsBeforeBrace lines start stop) :
    ∃ k, start ≤ k ∧ BraceExit lines start k stop ∧
      ∀ j, start ≤ j → j < k → ∀ s, ¬ BraceExit lines start j s := by
  obtain ⟨hopen, ⟨hstart, hend⟩, hleast⟩ := h
  have hbrace : '\x7b' ∉ charsBefore lines start (stop + 1) :=
    brace_notMem_charsBefore_iff.mpr fun i hi his => hopen i hi (by omega)
  -- up to line `stop` only a semicolon on that line is a ground to end
  have honly : ∀ j s, start ≤ j → j ≤ stop → BraceExit lines start j s →
      j = stop ∧ IsSemicolonLine lines stop := by
    intro j s hj hjs hexit
    cases hexit with
    | blank hlt hline _ =>
      obtain ⟨m, rfl⟩ : ∃ m, j = m + 1 := ⟨j - 1, by omega⟩
      have hsm := hleast ⟨show start ≤ m by omega, Or.inr hline⟩
      omega
    | balanced _ hmem _ => exact absurd hmem (brace_notMem_of_le (by omega) hbrace)
    | semicolon hline _ =>
      have hsj := hleast ⟨hj, Or.inl hline⟩
      obtain rfl : j = stop := by omega
      exact ⟨rfl, hline⟩
  by_cases hsemicolon : IsSemicolonLine lines stop
  · refine ⟨stop, hstart, .semicolon hsemicolon hbrace, fun j hj hjs s hexit => ?_⟩
    have hj := (honly j s hj (Nat.le_of_lt hjs) hexit).1
    omega
  · have hblank := hend.resolve_left hsemicolon
    refine ⟨stop + 1, by omega, .blank (by omega) hblank hbrace, fun j hj hjs s hexit => ?_⟩
    exact hsemicolon (honly j s hj (by omega) hexit).2

end Ends

/-- A brace block that is found ends where its braces balance for the first time, or before its
first brace, and where it can end in one of these ways it is found. -/
theorem braceBlockEnd_eq_some_iff (lines : List Text) (start : Nat) :
    (∀ stop, braceBlockEnd? lines start = some stop ↔
      EndsAtBrace lines start stop ∨ EndsBeforeBrace lines start stop) ∧
    (braceBlockEnd? lines start = none ↔
      ∀ stop, ¬ EndsAtBrace lines start stop ∧ ¬ EndsBeforeBrace lines start stop) := by
  have hsome : ∀ stop, braceBlockEnd? lines start = some stop ↔
      EndsAtBrace lines start stop ∨ EndsBeforeBrace lines start stop := by
    intro stop
    rw [braceBlockEnd?_eq_some_iff_exit]
    constructor
    · rintro ⟨k, hk, hexit, hbefore⟩
      exact hexit.endsAtBrace_or_endsBeforeBrace hk hbefore
    · rintro (h | h)
      · exact ⟨stop, h.exists_exit⟩
      · exact h.exists_exit
  refine ⟨hsome, ?_⟩
  rw [Option.eq_none_iff_forall_ne_some]
  refine forall_congr' fun stop => ?_
  rw [ne_eq, hsome, not_or]

end Outline

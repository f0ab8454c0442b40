import Outline.Proofs.Relation.TypeArguments

/-!
# Pairs of angle brackets

An angle bracket that opens and a later one that closes are partners if each bracket between the two
has its partner there as well.  The loop that erases type arguments looks for no such pairs: in each
round it erases those that have no bracket inside, all at once, and goes on as long as there are
any.  What it leaves in the end is the text at the places that no pair covers, however the brackets
are nested and whether they have partners or not.

That the loop comes to an end is a statement of its own, about its rounds (`StripsTo`).  What is
left is known already as what one walk over the text keeps (`stripArguments_eq`), so it is the walk
that has to be compared with the pairs, and this goes from the end of the text
(`induction_on_pairs`).  If its last character closes a bracket, this pair covers all from its
opening bracket on; no pair goes across the opening bracket (`ArePartners.of_lt`), and the walk
returns to what it had kept there.  Any other last character is kept by both.

* `ArePartners`, `IsCovered`: partners, and the places from one to the other.
* `outsidePairs`: the text at the places that no pair covers.
* `stripArguments_isOutsidePairs`: what the loop leaves.
-/

namespace Outline

open Pattern

/-! ## Whether brackets have their partners -/

/-- A text that closes so many angle brackets, while all others in it have their partners. -/
def ClosesAngles : Nat → Text → Prop
  | 0, t => IsEnclosed t
  | n + 1, t => ∃ inner rest, t = inner ++ '>' :: rest ∧ IsEnclosed inner ∧ ClosesAngles n rest

theorem ClosesAngles.append_left {s : Text} (hs : IsEnclosed s) :
    ∀ {n : Nat} {t : Text}, ClosesAngles n t → ClosesAngles n (s ++ t)
  | 0, _, ht => IsEnclosed.append hs ht
  | _ + 1, _, ⟨inner, rest, ht, hinner, hrest⟩ =>
    ⟨s ++ inner, rest, by rw [ht, List.append_assoc], hs.append hinner, hrest⟩

/-- Counts the open brackets along a text that has to close so many of them. -/
def closesAngles : Nat → Text → Bool
  | n, [] => n == 0
  | n, c :: t =>
    if c = '<' then closesAngles (n + 1) t
    else if c = '>' then n != 0 && closesAngles (n - 1) t
    else closesAngles n t

theorem closesAngles_of_isEnclosed {t : Text} (h : IsEnclosed t) (n : Nat) (rest : Text) :
    closesAngles n (t ++ rest) = closesAngles n rest := by
  induction h generalizing n rest with
  | nil => rfl
  | char ho hc _ ih => rw [List.cons_append, closesAngles, if_neg ho, if_neg hc, ih]
  | group _ _ ihs iht =>
    rw [List.append_assoc, List.cons_append, closesAngles, if_pos rfl, ihs, List.cons_append,
      closesAngles, if_neg (by decide), if_pos rfl, iht]
    rfl

theorem closesAngles_of_eq_true {n : Nat} {t : Text} (h : closesAngles n t = true) :
    ClosesAngles n t := by
  induction t generalizing n with
  | nil =>
    rw [eq_of_beq h]
    exact IsEnclosed.nil
  | cons c t ih =>
    rw [closesAngles] at h
    split at h
    · rename_i ho
      obtain ⟨inner, rest, rfl, hinner, hrest⟩ := ih h
      have hgroup : c :: (inner ++ '>' :: rest) = ('<' :: inner ++ ['>']) ++ rest := by
        rw [ho, List.append_assoc]
        rfl
      rw [hgroup]
      exact hrest.append_left (.group hinner .nil)
    · rename_i ho
      split at h
      · rename_i hc
        cases n with
        | zero => exact absurd h Bool.false_ne_true
        | succ n =>
          rw [Nat.add_sub_cancel] at h
          exact ⟨[], t, congrArg (· :: t) hc, .nil, ih (Bool.and_eq_true_iff.mp h).2⟩
      · rename_i hc
        exact (ih h).append_left (s := [c]) (.char ho hc .nil)

theorem ClosesAngles.closesAngles_eq_true {n : Nat} {t : Text} (h : ClosesAngles n t) :
    closesAngles n t = true := by
  induction n generalizing t with
  | zero =>
    have hcount := closesAngles_of_isEnclosed h 0 []
    rw [List.append_nil] at hcount
    rw [hcount]
    rfl
  | succ n ih =>
    obtain ⟨inner, rest, rfl, hinner, hrest⟩ := h
    rw [closesAngles_of_isEnclosed hinner, closesAngles, if_neg (by decide), if_pos rfl]
    exact ih hrest

theorem closesAngles_iff {n : Nat} {t : Text} : closesAngles n t = true ↔ ClosesAngles n t :=
  ⟨closesAngles_of_eq_true, ClosesAngles.closesAngles_eq_true⟩

instance : DecidablePred IsEnclosed := fun t =>
  decidable_of_iff (closesAngles 0 t = true) closesAngles_iff

/-! ## Partners -/

/-- An angle bracket that opens at one place is closed at another: between the two, each bracket has
its partner. -/
def ArePartners (t : Text) (i j : Nat) : Prop :=
  t[i]? = some '<' ∧ t[j]? = some '>' ∧ i < j ∧ IsEnclosed ((t.take j).drop (i + 1))

instance (t : Text) (i j : Nat) : Decidable (ArePartners t i j) :=
  inferInstanceAs (Decidable (_ ∧ _ ∧ _ ∧ _))

theorem arePartners_iff {t : Text} {i j : Nat} : ArePartners t i j ↔
    ∃ pre inner post, t = pre ++ '<' :: (inner ++ '>' :: post) ∧ IsEnclosed inner ∧
      i = pre.length ∧ j = pre.length + (inner.length + 1) := by
  constructor
  · rintro ⟨hopening, hclosing, hlt, hinner⟩
    obtain ⟨hj, hjchar⟩ := List.getElem?_eq_some_iff.mp hclosing
    have hi : i < t.length := Nat.lt_trans hlt hj
    have hichar : t[i] = '<' := (List.getElem?_eq_some_iff.mp hopening).2
    have hlength : ((t.take j).drop (i + 1)).length = j - (i + 1) := by
      rw [List.length_drop, List.length_take, Nat.min_eq_left (Nat.le_of_lt hj)]
    refine ⟨t.take i, (t.take j).drop (i + 1), t.drop (j + 1), ?_, hinner, ?_, ?_⟩
    · have hrest : (t.take j).drop (i + 1) ++ '>' :: t.drop (j + 1) = t.drop (i + 1) := by
        rw [← hjchar, ← List.drop_eq_getElem_cons hj,
          ← List.drop_append_of_le_length (by rw [List.length_take]; omega),
          List.take_append_drop]
      rw [hrest, ← hichar, ← List.drop_eq_getElem_cons hi, List.take_append_drop]
    · rw [List.length_take, Nat.min_eq_left (Nat.le_of_lt hi)]
    · rw [List.length_take, Nat.min_eq_left (Nat.le_of_lt hi), hlength]
      omega
  · rintro ⟨pre, inner, post, rfl, hinner, rfl, rfl⟩
    refine ⟨by simp, by simp, by omega, ?_⟩
    have hbetween : ((pre ++ '<' :: (inner ++ '>' :: post)).take
        (pre.length + (inner.length + 1))).drop (pre.length + 1) = inner := by
      simp [List.take_append, List.drop_append]
    rwa [hbetween]

/-- A place from an angle bracket to its partner. -/
def IsCovered (t : Text) (k : Nat) : Prop :=
  ∃ i ≤ k, ∃ j < t.length, k ≤ j ∧ ArePartners t i j

instance (t : Text) (k : Nat) : Decidable (IsCovered t k) :=
  inferInstanceAs (Decidable (∃ i ≤ k, ∃ j < t.length, _))

/-- The text at the places that no pair covers. -/
def outsidePairs (t : Text) : Text :=
  (t.zipIdx.filter fun c => ¬ IsCovered t c.2).map Prod.fst

theorem ArePartners.lt_length {t : Text} {i j : Nat} (h : ArePartners t i j) : j < t.length :=
  (List.getElem?_eq_some_iff.mp h.2.1).1

theorem isCovered_iff {t : Text} {k : Nat} :
    IsCovered t k ↔ ∃ i j, ArePartners t i j ∧ i ≤ k ∧ k ≤ j :=
  ⟨fun ⟨i, hi, j, _, hj, h⟩ => ⟨i, j, h, hi, hj⟩, fun ⟨i, j, h, hi, hj⟩ =>
    ⟨i, hi, j, h.lt_length, hj, h⟩⟩

/-- Partners stay partners in a longer text. -/
theorem ArePartners.append {t : Text} {i j : Nat} (h : ArePartners t i j) (v : Text) :
    ArePartners (t ++ v) i j := by
  obtain ⟨pre, inner, post, rfl, hinner, hi, hj⟩ := arePartners_iff.mp h
  refine arePartners_iff.mpr ⟨pre, inner, post ++ v, ?_, hinner, hi, hj⟩
  rw [List.append_assoc, List.cons_append, List.append_assoc, List.cons_append]

/-! ## Pairs nest -/

namespace IsEnclosed

theorem count_eq {t : Text} (h : IsEnclosed t) : t.count '<' = t.count '>' := by
  induction h with
  | nil => rfl
  | char ho hc _ ih => rw [List.count_cons_of_ne ho, List.count_cons_of_ne hc, ih]
  | group _ _ ihs iht =>
    simp only [List.cons_append, List.count_append, List.count_cons_self, ihs, iht,
      List.count_cons_of_ne (show '>' ≠ '<' by decide),
      List.count_cons_of_ne (show '<' ≠ '>' by decide)]
    omega

/-- No bracket in such a text closes one that stands before it. -/
theorem count_le_of_prefix {t u : Text} (h : IsEnclosed t) (hu : u <+: t) :
    u.count '>' ≤ u.count '<' := by
  induction h generalizing u with
  | nil =>
    rw [List.prefix_nil.mp hu]
    exact Nat.le_refl _
  | char ho hc _ ih =>
    rcases List.prefix_cons_iff.mp hu with rfl | ⟨v, rfl, hv⟩
    · exact Nat.le_refl _
    · rw [List.count_cons_of_ne ho, List.count_cons_of_ne hc]
      exact ih hv
  | @group s t hs _ ihs iht =>
    rcases List.prefix_cons_iff.mp hu with rfl | ⟨v, rfl, hv⟩
    · exact Nat.le_refl _
    rw [List.count_cons_self, List.count_cons_of_ne (by decide)]
    rcases List.prefix_or_prefix_of_prefix hv (List.prefix_append s _) with hv' | ⟨w, rfl⟩
    · exact Nat.le_succ_of_le (ihs hv')
    · rw [List.count_append, List.count_append, hs.count_eq]
      rcases List.prefix_cons_iff.mp ((List.prefix_append_right_inj s).mp hv) with
        rfl | ⟨w, rfl, hw⟩
      · exact Nat.le_succ _
      · rw [List.count_cons_self, List.count_cons_of_ne (by decide)]
        have hle := iht hw
        omega

/-- No bracket in such a text is left for one that stands behind it. -/
theorem count_le_of_suffix {t u : Text} (h : IsEnclosed t) (hu : u <:+ t) :
    u.count '<' ≤ u.count '>' := by
  obtain ⟨v, rfl⟩ := hu
  have heq := h.count_eq
  have hle := h.count_le_of_prefix (List.prefix_append v u)
  rw [List.count_append, List.count_append] at heq
  omega

/-- A bracket whose partner is still to come when a text ends has none in it. -/
theorem not_isEnclosed_of_prefix {t u : Text} (ht : IsEnclosed t) (hu : u <+: t) (pre : Text) :
    ¬ IsEnclosed (pre ++ '<' :: u) := by
  intro h
  have hle := ht.count_le_of_prefix hu
  have hge := h.count_le_of_suffix (List.suffix_append pre ('<' :: u))
  rw [List.count_cons_self, List.count_cons_of_ne (by decide)] at hge
  omega

end IsEnclosed

/-- No pair goes across a bracket that opens another one: if it begins before this bracket, it ends
before it. -/
theorem ArePartners.of_lt {pre inner : Text} (hinner : IsEnclosed inner) {i j : Nat}
    (h : ArePartners (pre ++ '<' :: (inner ++ ['>'])) i j) (hlt : i < pre.length) :
    ArePartners pre i j := by
  obtain ⟨before, between, post, ht, hbetween, rfl, rfl⟩ := arePartners_iff.mp h
  rcases List.append_eq_append_iff.mp ht with ⟨a, rfl, -⟩ | ⟨a, rfl, ha⟩
  · rw [List.length_append] at hlt
    omega
  cases a with
  | nil =>
    rw [List.append_nil] at hlt
    omega
  | cons c a =>
    rw [List.cons_append, List.cons.injEq] at ha
    obtain ⟨rfl, ha⟩ := ha
    rcases List.append_eq_append_iff.mp ha with ⟨b, rfl, hb⟩ | ⟨b, rfl, hb⟩
    · cases b with
      | nil => exact absurd (List.cons.inj hb).1 (by decide)
      | cons d b =>
        rw [List.cons_append, List.cons.injEq] at hb
        obtain ⟨rfl, -⟩ := hb
        exact arePartners_iff.mpr ⟨before, between, b, rfl, hbetween, rfl, rfl⟩
    · cases b with
      | nil => exact absurd (List.cons.inj hb).1 (by decide)
      | cons d b =>
        -- the opening bracket would be between the two, and its partner not before their end
        rw [List.cons_append, List.cons.injEq] at hb
        obtain ⟨rfl, hb⟩ := hb
        have hprefix : b <+: inner := by
          refine List.prefix_of_prefix_length_le (hb ▸ List.prefix_append b _)
            (List.prefix_append inner _) ?_
          have hlength := congrArg List.length hb
          simp only [List.length_append, List.length_cons, List.length_nil] at hlength
          omega
        exact absurd hbetween (hinner.not_isEnclosed_of_prefix hprefix a)

/-! ## What no pair covers -/

/-- The last character closes no bracket. -/
def ClosesNone (t : Text) (c : Char) : Prop :=
  c = '>' → ∀ pre inner, t = pre ++ '<' :: inner → ¬ IsEnclosed inner

/-- Each text comes about from the empty one: at its end stands a character that closes no bracket,
or else a pair. -/
theorem induction_on_pairs {motive : Text → Prop} (nil : motive [])
    (concat : ∀ t c, ClosesNone t c → motive t → motive (t ++ [c]))
    (pair : ∀ pre inner, IsEnclosed inner → motive pre →
      motive (pre ++ '<' :: (inner ++ ['>']))) (t : Text) : motive t := by
  induction hn : t.length using Nat.strongRecOn generalizing t with
  | ind n ih =>
    subst hn
    rcases List.eq_nil_or_concat t with rfl | ⟨t, c, rfl⟩
    · exact nil
    rw [List.concat_eq_append, List.length_append] at ih
    rw [List.concat_eq_append]
    by_cases hc : ClosesNone t c
    · exact concat t c hc (ih _ (Nat.lt_succ_self _) t rfl)
    · simp only [ClosesNone, not_forall, not_not] at hc
      obtain ⟨rfl, pre, inner, rfl, hinner⟩ := hc
      rw [List.append_assoc, List.cons_append]
      refine pair pre inner hinner (ih _ ?_ pre rfl)
      simp only [List.length_append, List.length_cons, List.length_nil]
      omega

theorem ArePartners.of_closesNone {t : Text} {c : Char} (hc : ClosesNone t c) {i j : Nat}
    (h : ArePartners (t ++ [c]) i j) : ArePartners t i j := by
  obtain ⟨pre, inner, post, ht, hinner, hi, hj⟩ := arePartners_iff.mp h
  rcases List.eq_nil_or_concat post with rfl | ⟨post, d, rfl⟩
  · have hlast : t ++ [c] = (pre ++ '<' :: inner) ++ ['>'] := by
      rw [ht, List.append_assoc, List.cons_append]
    obtain ⟨rfl, hclosing⟩ := List.append_inj' hlast rfl
    exact absurd hinner (hc (List.cons.inj hclosing).1 pre inner rfl)
  · have hlast : t ++ [c] = (pre ++ '<' :: (inner ++ '>' :: post)) ++ [d] := by
      rw [ht, List.concat_eq_append, List.append_assoc, List.cons_append, List.append_assoc,
        List.cons_append]
    obtain ⟨rfl, -⟩ := List.append_inj' hlast rfl
    exact arePartners_iff.mpr ⟨pre, inner, post, rfl, hinner, hi, hj⟩

/-- What is covered in a text is covered in a longer one as well; so where no pair of the longer one
begins in the text and ends behind it, what is left of the longer one is what is left of both. -/
theorem outsidePairs_append {t v : Text}
    (h : ∀ i j, ArePartners (t ++ v) i j → i < t.length → ArePartners t i j) :
    outsidePairs (t ++ v) = outsidePairs t ++
      ((v.zipIdx t.length).filter fun c => ¬ IsCovered (t ++ v) c.2).map Prod.fst := by
  rw [outsidePairs, List.zipIdx_append, List.filter_append, List.map_append, Nat.zero_add,
    outsidePairs]
  congr 2
  refine List.filter_congr fun c hc => ?_
  have hlt : c.2 < t.length := List.snd_lt_of_mem_zipIdx hc
  refine decide_eq_decide.mpr (not_congr ?_)
  rw [isCovered_iff, isCovered_iff]
  constructor
  · rintro ⟨i, j, hpartners, hi, hj⟩
    exact ⟨i, j, h i j hpartners (Nat.lt_of_le_of_lt hi hlt), hi, hj⟩
  · rintro ⟨i, j, hpartners, hi, hj⟩
    exact ⟨i, j, hpartners.append v, hi, hj⟩

theorem outsidePairs_concat {t : Text} {c : Char} (hc : ClosesNone t c) :
    outsidePairs (t ++ [c]) = outsidePairs t ++ [c] := by
  have hlast : ¬ IsCovered (t ++ [c]) t.length := by
    rw [isCovered_iff]
    rintro ⟨i, j, hpartners, -, hj⟩
    exact Nat.not_lt_of_le hj (hpartners.of_closesNone hc).lt_length
  rw [outsidePairs_append fun i j hpartners _ => hpartners.of_closesNone hc,
    List.zipIdx_singleton, List.filter_cons_of_pos (by simpa using hlast)]
  rfl

/-- A pair at the end of a text covers all from its opening bracket on. -/
theorem outsidePairs_pair {pre inner : Text} (hinner : IsEnclosed inner) :
    outsidePairs (pre ++ '<' :: (inner ++ ['>'])) = outsidePairs pre := by
  have hpair : ArePartners (pre ++ '<' :: (inner ++ ['>'])) pre.length
      (pre.length + (inner.length + 1)) :=
    arePartners_iff.mpr ⟨pre, inner, [], rfl, hinner, rfl, rfl⟩
  rw [outsidePairs_append fun i j hpartners hlt => hpartners.of_lt hinner hlt,
    List.filter_eq_nil_iff.mpr, List.map_nil, List.append_nil]
  intro c hc
  have hcovered : IsCovered (pre ++ '<' :: (inner ++ ['>'])) c.2 := by
    refine isCovered_iff.mpr ⟨_, _, hpair, List.le_snd_of_mem_zipIdx hc, ?_⟩
    have hlt := List.snd_lt_add_of_mem_zipIdx hc
    simp only [List.length_cons, List.length_append, List.length_nil] at hlt
    omega
  simpa using hcovered

/-! ## What is kept on a walk -/

/-- Behind a pair the walk has kept what it had kept before it. -/
theorem foldl_step_pair {pre inner : Text} (hinner : IsEnclosed inner) (s : Kept) :
    (pre ++ '<' :: (inner ++ ['>'])).foldl Kept.step s = pre.foldl Kept.step s := by
  have hgroup : IsEnclosed ('<' :: inner ++ ['>']) := .group hinner .nil
  rw [List.foldl_append, ← List.cons_append, hgroup.foldl_step, withoutMatched_group hinner,
    List.append_nil]

/-- If brackets are open at the end of a text, the last one of them opens an enclosed text. -/
theorem exists_of_outer_ne_nil {t : Text} (h : (t.foldl Kept.step ⟨[], []⟩).outer ≠ []) :
    ∃ pre inner, t = pre ++ '<' :: inner ∧ IsEnclosed inner := by
  induction t using induction_on_pairs with
  | nil => exact absurd rfl h
  | concat t c hnone ih =>
    rw [List.foldl_append, List.foldl_cons, List.foldl_nil] at h
    by_cases ho : c = '<'
    · exact ⟨t, [], by rw [ho], .nil⟩
    by_cases hc : c = '>'
    · refine absurd ?_ h
      cases houter : (t.foldl Kept.step ⟨[], []⟩).outer with
      | nil => rw [Kept.step, if_neg ho, if_pos hc, houter]
      | cons u us =>
        obtain ⟨pre, inner, ht, hinner⟩ := ih (houter ▸ List.cons_ne_nil u us)
        exact absurd hinner (hnone hc pre inner ht)
    · rw [Kept.step_of_ne _ ho hc] at h
      obtain ⟨pre, inner, rfl, hinner⟩ := ih h
      exact ⟨pre, inner ++ [c], by rw [List.append_assoc, List.cons_append],
        hinner.append (.char ho hc .nil)⟩
  | pair pre inner hinner ih =>
    rw [foldl_step_pair hinner] at h
    obtain ⟨pre, before, rfl, hbefore⟩ := ih h
    refine ⟨pre, before ++ ('<' :: inner ++ ['>']), ?_, hbefore.append (.group hinner .nil)⟩
    simp only [List.append_assoc, List.cons_append]

theorem withoutMatched_concat {t : Text} {c : Char} (hc : ClosesNone t c) :
    withoutMatched (t ++ [c]) = withoutMatched t ++ [c] := by
  rw [withoutMatched, List.foldl_append, List.foldl_cons, List.foldl_nil]
  by_cases ho : c = '<'
  · rw [ho, Kept.step_opening]
    exact Kept.text_append _ _ ['<']
  by_cases hclosing : c = '>'
  · have houter : (t.foldl Kept.step ⟨[], []⟩).outer = [] := by
      refine Classical.byContradiction fun hne => ?_
      obtain ⟨pre, inner, ht, hinner⟩ := exists_of_outer_ne_nil hne
      exact hc hclosing pre inner ht hinner
    rw [Kept.step, if_neg ho, if_pos hclosing, houter, withoutMatched, Kept.text, Kept.text, houter]
    rfl
  · rw [Kept.step_of_ne _ ho hclosing]
    exact Kept.text_append _ _ [c]

/-- The walk keeps what no pair covers. -/
theorem withoutMatched_eq_outsidePairs (t : Text) : withoutMatched t = outsidePairs t := by
  induction t using induction_on_pairs with
  | nil => rfl
  | concat t c hnone ih => rw [withoutMatched_concat hnone, outsidePairs_concat hnone, ih]
  | pair pre inner hinner ih =>
    rw [withoutMatched, foldl_step_pair hinner, outsidePairs_pair hinner, ← ih, withoutMatched]

/-! ## The loop -/

/-- The rounds of the loop that erases type arguments: it ends where there are none without others
inside, and otherwise erases all such and goes on. -/
inductive StripsTo : Text → Text → Prop
  | done {t : Text} (h : innerArguments.occursIn t = false) : StripsTo t t
  | round {t u : Text} (h : innerArguments.occursIn t = true)
      (hu : StripsTo (innerArguments.eraseAll t) u) : StripsTo t u

theorem StripsTo.eq {t u : Text} (h : StripsTo t u) : u = withoutMatched t := by
  induction h with
  | done h => exact (withoutMatched_eq_self h).symm
  | round _ _ ih => rw [ih, withoutMatched_eraseAll]

theorem StripsTo.occursIn_eq_false {t u : Text} (h : StripsTo t u) :
    innerArguments.occursIn u = false := by
  induction h with
  | done h => exact h
  | round _ _ ih => exact ih

/-- Each round makes the text shorter, so the last one comes. -/
theorem stripsTo_withoutMatched (t : Text) : StripsTo t (withoutMatched t) := by
  cases h : innerArguments.occursIn t with
  | false =>
    rw [withoutMatched_eq_self h]
    exact .done h
  | true =>
    have hlt := length_eraseAll_lt isNullable_innerArguments h
    rw [← withoutMatched_eraseAll]
    exact .round h (stripsTo_withoutMatched _)
termination_by t.length

/-- Where no pair of brackets is without others inside, there is none at all. -/
theorem pairwise_of_not_hasInnerPair {t : Text} (h : ¬ HasInnerPair t) :
    t.Pairwise fun a b => a = '<' → b ≠ '>' := by
  induction t with
  | nil => exact .nil
  | cons c t ih =>
    have htail : t.Pairwise fun a b => a = '<' → b ≠ '>' := by
      refine ih ?_
      rintro ⟨pre, w, post, hw, rfl⟩
      exact h ⟨c :: pre, w, post, hw, rfl⟩
    refine .cons ?_ htail
    rintro d hd rfl rfl
    obtain ⟨w, post, rfl, hclosing⟩ := List.eq_append_cons_of_mem hd
    refine h ⟨[], w, post, fun d hd => ⟨?_, fun hd' => hclosing (hd' ▸ hd)⟩, by simp⟩
    rintro rfl
    exact (List.pairwise_append.mp htail).2.2 _ hd _ List.mem_cons_self rfl rfl

/-- The loop that erases type arguments comes to an end, with one text only: the text at the places
that no pair of angle brackets covers, whatever is between the two.  In what is left, no bracket
that closes stands behind one that opens. -/
theorem stripArguments_isOutsidePairs (t : Text) :
    (∀ u, StripsTo t u ↔ u = stripArguments t) ∧ stripArguments t = outsidePairs t ∧
      (stripArguments t).Pairwise fun a b => a = '<' → b ≠ '>' := by
  rw [stripArguments_eq]
  refine ⟨fun u => ⟨StripsTo.eq, fun h => h ▸ stripsTo_withoutMatched t⟩,
    withoutMatched_eq_outsidePairs t, pairwise_of_not_hasInnerPair fun hpair => ?_⟩
  have hnone := (stripsTo_withoutMatched t).occursIn_eq_false
  rw [occursIn_innerArguments_iff.mpr hpair] at hnone
  exact Bool.noConfusion hnone

/-- A pair in a pair, a bracket that closes and one that opens without a partner. -/
example : outsidePairs "A<B<C>>>D<E".toList = "A>D<E".toList := by
  decide

end Outline

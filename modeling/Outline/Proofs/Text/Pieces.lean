import Mathlib.Data.List.Induction
import Mathlib.Data.List.TakeWhile
import Outline.Text.Basic

/-!
# Trimming and splitting

Trimming leaves the characters from the first to the last one that is not white space.  Splitting
cuts at each separator, and is that of the library (`splitWhere_eq_splitOnP`), so a text that is put
together of two with a separator between has the pieces of both (`splitOn_append_cons`).
-/

namespace Outline.Text

/-- What is checked on each character in turn holds of all of them. -/
theorem forall_of_all {p : Char → Prop} [DecidablePred p] {t : Text}
    (h : (t.all fun c => decide (p c)) = true) : ∀ c ∈ t, p c :=
  fun c hc => of_decide_eq_true (List.all_eq_true.mp h c hc)

/-- Of two ways to split a text, the first part of the one goes further than that of the other. -/
theorem exists_of_append_eq_append {t u x y : Text} (h : t ++ x = u ++ y)
    (hlt : u.length < t.length) : ∃ w, w ≠ [] ∧ t = u ++ w ∧ y = w ++ x := by
  obtain ⟨w, rfl, hy⟩ : ∃ w, t = u ++ w ∧ y = w ++ x := by
    rcases List.append_eq_append_iff.mp h with ⟨w, rfl, -⟩ | h
    · rw [List.length_append] at hlt
      exact absurd hlt (by omega)
    · exact h
  refine ⟨w, ?_, rfl, hy⟩
  rintro rfl
  rw [List.append_nil] at hlt
  exact absurd hlt (Nat.lt_irrefl _)

/-! ## Runs -/

section Runs

variable {p : Char → Bool} {u v : Text} (hu : ∀ c ∈ u, p c = true)
  (hv : v.head?.any p = false)

include hu hv

/-- A run of characters of a class, with one that is none of them behind it or nothing. -/
theorem takeWhile_append_stop : (u ++ v).takeWhile p = u := by
  rw [List.takeWhile_append_of_pos hu]
  cases v with
  | nil => exact List.append_nil u
  | cons c cs =>
    rw [List.head?_cons, Option.any_some] at hv
    rw [List.takeWhile_cons_of_neg (by rw [hv]; decide), List.append_nil]

theorem dropWhile_append_stop : (u ++ v).dropWhile p = v := by
  rw [List.dropWhile_append_of_pos hu]
  cases v with
  | nil => rfl
  | cons c cs =>
    rw [List.head?_cons, Option.any_some] at hv
    rw [List.dropWhile_cons_of_neg (by rw [hv]; decide)]

end Runs

/-- A run over two texts ends in the first, or it is all of the first and does not go on. -/
theorem dropWhile_append_cases (p : Char → Bool) (t : Text) {u : Text}
    (hu : u.head?.any p = false) :
    (t.dropWhile p = [] ∧ (t ++ u).dropWhile p = u) ∨
      (t.dropWhile p ≠ [] ∧ (t ++ u).dropWhile p = t.dropWhile p ++ u) := by
  cases h : t.dropWhile p with
  | nil =>
    exact Or.inl ⟨rfl, dropWhile_append_stop (List.dropWhile_eq_nil_iff.mp h) hu⟩
  | cons c cs =>
    rw [List.dropWhile_append, h, List.isEmpty_cons, if_neg Bool.false_ne_true]
    exact Or.inr ⟨List.cons_ne_nil c cs, rfl⟩

theorem dropWhile_ne_nil_of_getLast? {p : Char → Bool} {t : Text} (hne : t ≠ [])
    (hlast : t.getLast?.any p = false) : t.dropWhile p ≠ [] := by
  intro hnil
  have hall := List.dropWhile_eq_nil_iff.mp hnil _ (List.getLast_mem hne)
  rw [List.getLast?_eq_some_getLast hne, Option.any_some, hall] at hlast
  exact absurd hlast (by decide)

/-! ## The first character -/

theorem any_head?_append {p : Char → Bool} {t : Text} (hne : t ≠ []) (u : Text) :
    (t ++ u).head?.any p = t.head?.any p := by
  obtain ⟨c, t, rfl⟩ := List.exists_cons_of_ne_nil hne
  rfl

theorem head?_any_of_forall {p q : Char → Bool} {t : Text} (ht : ∀ c ∈ t, p c = true)
    (hq : ∀ c, p c = true → q c = false) : t.head?.any q = false := by
  cases t with
  | nil => rfl
  | cons c t => exact hq c (ht c List.mem_cons_self)

/-! ## Trimming -/

theorem mem_of_mem_trim {t : Text} {c : Char} (h : c ∈ t.trim) : c ∈ t := by
  rw [trim, trimEnd, List.mem_reverse] at h
  have hstart := List.mem_reverse.mp ((List.dropWhile_sublist isSpace).subset h)
  exact (List.dropWhile_sublist isSpace).subset hstart

theorem trimStart_append {pre u : Text} (hpre : ∀ c ∈ pre, isSpace c = true) :
    trimStart (pre ++ u) = trimStart u := by
  rw [trimStart, List.dropWhile_append_of_pos hpre, trimStart]

theorem trimStart_eq_self {t : Text} (h : t.head?.any isSpace = false) : trimStart t = t :=
  dropWhile_append_stop (u := []) (by simp) h

theorem head?_trimStart (t : Text) : (trimStart t).head?.any isSpace = false := by
  have hhead := List.head?_dropWhile_not isSpace t
  rw [trimStart]
  cases h : (t.dropWhile isSpace).head? with
  | none => rfl
  | some c =>
    rw [h] at hhead
    exact hhead

theorem trimEnd_append {u v : Text} (hu : u.getLast?.any isSpace = false) :
    trimEnd (u ++ v) = u ++ trimEnd v := by
  have hself : u.reverse.dropWhile isSpace = u.reverse :=
    trimStart_eq_self (by rw [List.head?_reverse, hu])
  rw [trimEnd, List.reverse_append, List.dropWhile_append]
  cases hv : v.reverse.dropWhile isSpace with
  | nil =>
    rw [List.isEmpty_nil, if_pos rfl, hself, List.reverse_reverse, trimEnd, hv, List.reverse_nil,
      List.append_nil]
  | cons d ds =>
    rw [List.isEmpty_cons, if_neg Bool.false_ne_true, List.reverse_append, List.reverse_reverse,
      trimEnd, hv]

theorem trimEnd_eq_nil {t : Text} (h : ∀ c ∈ t, isSpace c = true) : trimEnd t = [] := by
  rw [trimEnd, List.reverse_eq_nil_iff, List.dropWhile_eq_nil_iff]
  exact fun c hc => h c (List.mem_reverse.mp hc)

/-- Only white space is lost at the end. -/
theorem exists_trimEnd (t : Text) :
    ∃ post, t = trimEnd t ++ post ∧ ∀ c ∈ post, isSpace c = true := by
  refine ⟨(t.reverse.takeWhile isSpace).reverse, ?_, fun c hc => ?_⟩
  · rw [trimEnd, ← List.reverse_append, List.takeWhile_append_dropWhile, List.reverse_reverse]
  · exact List.mem_takeWhile_imp (List.mem_reverse.mp hc)

theorem mem_trim {t : Text} {c : Char} (h : c ∈ t) (hc : isSpace c = false) : c ∈ t.trim := by
  have hspace : ∀ {u : Text}, c ∈ u → ¬ ∀ d ∈ u, isSpace d = true := fun hu hall => by
    rw [hall c hu] at hc
    exact absurd hc (by decide)
  have hstart : c ∈ trimStart t := by
    rw [← List.takeWhile_append_dropWhile (p := isSpace) (l := t), List.mem_append] at h
    exact h.resolve_left fun hu => hspace hu fun d hd => List.mem_takeWhile_imp hd
  obtain ⟨post, hpost, hall⟩ := exists_trimEnd (trimStart t)
  rw [hpost, List.mem_append] at hstart
  exact hstart.resolve_right fun hu => hspace hu hall

/-- Trimming takes white space off both ends. -/
theorem exists_trim (t : Text) :
    ∃ post, t = t.takeWhile isSpace ++ (t.trim ++ post) ∧ ∀ c ∈ post, isSpace c = true := by
  obtain ⟨post, hpost, hspace⟩ := exists_trimEnd (trimStart t)
  refine ⟨post, ?_, hspace⟩
  rw [trim, ← hpost, trimStart, List.takeWhile_append_dropWhile]

theorem head?_trim (t : Text) : t.trim.head?.any isSpace = false := by
  obtain ⟨post, hpost, -⟩ := exists_trimEnd (trimStart t)
  have hstart := head?_trimStart t
  cases htrim : t.trim with
  | nil => rfl
  | cons c cs =>
    rw [← trim, htrim] at hpost
    rw [hpost] at hstart
    exact hstart

theorem getLast?_trimEnd (t : Text) : (trimEnd t).getLast?.any isSpace = false := by
  rw [trimEnd, List.getLast?_reverse]
  exact head?_trimStart t.reverse

theorem trim_trim (t : Text) : t.trim.trim = t.trim := by
  have hend := trimEnd_append (v := []) (getLast?_trimEnd (trimStart t))
  rw [List.append_nil] at hend
  rw [trim, trimStart_eq_self (head?_trim t), trim, hend]
  exact List.append_nil _

/-! ## Splitting -/

theorem splitWhere_eq_splitOnP (p : Char → Bool) : ∀ t : Text, splitWhere p t = t.splitOnP p
  | [] => by rw [splitWhere, List.splitOnP_nil]
  | c :: cs => by
    rw [splitWhere, splitWhere_eq_splitOnP p cs, List.splitOnP_cons_eq_if_modifyHead]
    split
    · rfl
    · cases hcs : cs.splitOnP p with
      | nil => exact absurd hcs (List.splitOnP_ne_nil p cs)
      | cons piece rest => rfl

theorem splitWhere_eq_singleton {p : Char → Bool} {t : Text} (h : ∀ c ∈ t, p c = false) :
    splitWhere p t = [t] := by
  rw [splitWhere_eq_splitOnP, List.splitOnP_eq_singleton h]

theorem splitOn_eq_singleton {c : Char} {t : Text} (h : c ∉ t) : splitOn c t = [t] :=
  splitWhere_eq_singleton fun _ hd => beq_eq_false_iff_ne.mpr fun heq => h (heq ▸ hd)

theorem splitOn_cons_of_ne {c d : Char} (hd : d ≠ c) (ds : Text) :
    splitOn c (d :: ds) = (d :: (splitOn c ds).headD []) :: (splitOn c ds).tail := by
  rw [splitOn, splitOn, splitWhere, if_neg fun h => hd (beq_iff_eq.mp h)]
  cases splitWhere (· == c) ds <;> rfl

theorem splitOn_cons_self (c : Char) (ds : Text) : splitOn c (c :: ds) = [] :: splitOn c ds := by
  rw [splitOn, splitOn, splitWhere, if_pos (beq_self_eq_true c)]

/-- Texts with a separator between. -/
theorem splitOn_append_cons (c : Char) (t u : Text) :
    splitOn c (t ++ c :: u) = splitOn c t ++ splitOn c u := by
  simp only [splitOn, splitWhere_eq_splitOnP]
  exact List.splitOnP_append_cons t u (beq_self_eq_true c)

/-- A piece is a part of the text. -/
theorem infix_of_mem_splitOn {c : Char} {t piece : Text} (h : piece ∈ splitOn c t) :
    piece <:+: t := by
  by_cases hc : c ∈ t
  · obtain ⟨s, u, ht⟩ := List.append_of_mem hc
    have hlength : t.length = s.length + (u.length + 1) := by
      rw [ht, List.length_append, List.length_cons]
    rw [ht, splitOn_append_cons, List.mem_append] at h
    rw [ht]
    rcases h with h | h
    · exact (infix_of_mem_splitOn h).trans (List.prefix_append _ _).isInfix
    · exact (infix_of_mem_splitOn h).trans
        ((List.suffix_cons c u).trans (List.suffix_append s _)).isInfix
  · rw [splitOn_eq_singleton hc, List.mem_singleton] at h
    exact h ▸ List.infix_refl piece
termination_by t.length
decreasing_by
  all_goals omega

/-- What stands before the first separator belongs to the first piece. -/
theorem splitOn_append_left {c : Char} {t : Text} (ht : c ∉ t) (u : Text) :
    splitOn c (t ++ u) = (t ++ (splitOn c u).headD []) :: (splitOn c u).tail := by
  induction t with
  | nil =>
    have hne : splitOn c u ≠ [] := by
      rw [splitOn, splitWhere_eq_splitOnP]
      exact List.splitOnP_ne_nil _ _
    obtain ⟨piece, rest, hu⟩ := List.exists_cons_of_ne_nil hne
    rw [List.nil_append, List.nil_append, hu]
    rfl
  | cons d t ih =>
    rw [List.mem_cons, not_or] at ht
    rw [List.cons_append, splitOn_cons_of_ne (Ne.symm ht.1), ih ht.2]
    rfl

/-! ## Words -/

/-- The words of a text, with an empty one between two other characters. -/
def words (t : Text) : List Text := splitWhere (fun c => !isWord c) t

theorem mem_words {u k v : Text} (hk : ∀ c ∈ k, isWord c = true)
    (hu : u.getLast?.any isWord = false) (hv : v.head?.any isWord = false) :
    k ∈ words (u ++ (k ++ v)) := by
  have hright : k ∈ words (k ++ v) := by
    cases v with
    | nil =>
      rw [List.append_nil, words, splitWhere_eq_singleton fun c hc => by rw [hk c hc]; rfl]
      exact List.mem_singleton_self k
    | cons c v =>
      have hc : (!isWord c) = true := by rw [show isWord c = false from hv]; rfl
      have hword : k ∈ k.splitOnP fun c => !isWord c := by
        rw [List.splitOnP_eq_singleton fun c hc => by rw [hk c hc]; rfl]
        exact List.mem_singleton_self k
      rw [words, splitWhere_eq_splitOnP, List.splitOnP_append_cons k v hc]
      exact List.mem_append_left _ hword
  cases u using List.reverseRecOn with
  | nil => exact hright
  | append_singleton u c =>
    rw [List.getLast?_concat, Option.any_some] at hu
    have hc : (!isWord c) = true := by rw [hu]; rfl
    rw [words, splitWhere_eq_splitOnP] at hright ⊢
    rw [List.append_assoc, List.singleton_append, List.splitOnP_append_cons u _ hc]
    exact List.mem_append_right _ hright

/-- What stands before a text takes none of its words away, if it has no word characters. -/
theorem mem_words_append_left {k t : Text} (u : Text) (h : k ∈ words t)
    (hu : ∀ c ∈ u, isWord c = false) : k ∈ words (u ++ t) := by
  induction u with
  | nil => exact h
  | cons c u ih =>
    obtain ⟨hc, hu⟩ := List.forall_mem_cons.mp hu
    rw [words, List.cons_append, splitWhere, hc]
    exact List.mem_cons_of_mem _ (ih hu)

end Outline.Text

import Outline.Extraction.Text
import Outline.Relation.Basic

/-!
# The smallest entry of a list

Of several structures around a line the one with the fewest lines is taken.  Where two are equally
small, their places in the list decide: for the statements of a function the first one is taken
(`TextExtraction.smallest?`), for what refers to something the last one (`lastSmallest?`).  Both
searches go over the entries that satisfy a condition, and both are pinned down by how the list
falls apart at the entry that is found.

* `IsFirstSmallest`, `IsLastSmallest`: what is found, in terms of the list alone.
* `smallest?_filter_eq_some_iff`, `lastSmallest?_filter_eq_some_iff`: the searches find it.
* `lastSmallest?_eq_smallest?_reverse`: the one search is the other one from the end, so that the
  second statement follows from the first.
-/

namespace Outline

variable {α β : Type} {size : α → Nat} {p : α → Prop} {l : List α} {a b : α}

/-- Of the entries that satisfy `p`, an entry of the smallest size, and the first such one. -/
def IsFirstSmallest (size : α → Nat) (p : α → Prop) (l : List α) (a : α) : Prop :=
  p a ∧ ∃ before after, l = before ++ a :: after ∧
    (∀ b ∈ before, p b → size a < size b) ∧ ∀ b ∈ after, p b → size a ≤ size b

/-- Of the entries that satisfy `p`, an entry of the smallest size, and the last such one. -/
def IsLastSmallest (size : α → Nat) (p : α → Prop) (l : List α) (a : α) : Prop :=
  p a ∧ ∃ before after, l = before ++ a :: after ∧
    (∀ b ∈ before, p b → size a ≤ size b) ∧ ∀ b ∈ after, p b → size a < size b

theorem isLastSmallest_iff_reverse :
    IsLastSmallest size p l a ↔ IsFirstSmallest size p l.reverse a := by
  refine and_congr_right fun _ => ⟨?_, ?_⟩
  · rintro ⟨before, after, rfl, hbefore, hafter⟩
    refine ⟨after.reverse, before.reverse, by simp, fun b hb => ?_, fun b hb => ?_⟩
    · exact hafter b (List.mem_reverse.mp hb)
    · exact hbefore b (List.mem_reverse.mp hb)
  · rintro ⟨before, after, hl, hbefore, hafter⟩
    refine ⟨after.reverse, before.reverse, ?_, fun b hb => ?_, fun b hb => ?_⟩
    · rw [← List.reverse_reverse l, hl]
      simp
    · exact hafter b (List.mem_reverse.mp hb)
    · exact hbefore b (List.mem_reverse.mp hb)

theorem IsFirstSmallest.mem (h : IsFirstSmallest size p l a) : a ∈ l := by
  obtain ⟨-, before, after, rfl, -⟩ := h
  exact List.mem_append_right before List.mem_cons_self

theorem IsLastSmallest.mem (h : IsLastSmallest size p l a) : a ∈ l :=
  List.mem_reverse.mp (isLastSmallest_iff_reverse.mp h).mem

theorem IsFirstSmallest.le (h : IsFirstSmallest size p l a) (hb : b ∈ l) (hpb : p b) :
    size a ≤ size b := by
  obtain ⟨-, before, after, rfl, hbefore, hafter⟩ := h
  rcases List.mem_append.mp hb with hb | hb
  · exact Nat.le_of_lt (hbefore b hb hpb)
  · rcases List.mem_cons.mp hb with rfl | hb
    · exact Nat.le_refl _
    · exact hafter b hb hpb

/-- The first entry is the one, or else it is found among the others and is smaller than the first
one. -/
theorem isFirstSmallest_cons_iff {c : α} : IsFirstSmallest size p (c :: l) a ↔
    (a = c ∧ p c ∧ ∀ b ∈ l, p b → size c ≤ size b) ∨
      (IsFirstSmallest size p l a ∧ (p c → size a < size c)) := by
  constructor
  · rintro ⟨ha, before, after, hl, hbefore, hafter⟩
    cases before with
    | nil =>
      obtain ⟨rfl, rfl⟩ := List.cons.inj hl
      exact Or.inl ⟨rfl, ha, hafter⟩
    | cons d before =>
      obtain ⟨rfl, rfl⟩ := List.cons.inj hl
      obtain ⟨hfirst, hbefore⟩ := List.forall_mem_cons.mp hbefore
      exact Or.inr ⟨⟨ha, before, after, rfl, hbefore, hafter⟩, hfirst⟩
  · rintro (⟨rfl, ha, hafter⟩ | ⟨⟨ha, before, after, rfl, hbefore, hafter⟩, hfirst⟩)
    · exact ⟨ha, [], l, rfl, List.forall_mem_nil _, hafter⟩
    · exact ⟨ha, c :: before, after, rfl, List.forall_mem_cons.mpr ⟨hfirst, hbefore⟩, hafter⟩

namespace TextExtraction

theorem smallest?_eq_none_iff : smallest? size l = none ↔ l = [] := by
  cases l with
  | nil => exact iff_of_true rfl rfl
  | cons a l =>
    refine iff_of_false (fun h => ?_) (List.cons_ne_nil a l)
    rw [smallest?] at h
    split at h
    · exact absurd h (by simp)
    · split at h
      · exact absurd h (by simp)
      · exact absurd h (by simp)

/-- The search finds the first of the smallest entries. -/
theorem smallest?_filter_eq_some_iff {q : α → Bool} : ∀ {l : List α} {a : α},
    smallest? size (l.filter q) = some a ↔ IsFirstSmallest size (fun b => q b = true) l a
  | [], a => iff_of_false (by simp [smallest?]) fun h => absurd h.mem List.not_mem_nil
  | c :: l, a => by
    rw [isFirstSmallest_cons_iff, List.filter_cons]
    by_cases hc : q c = true
    · rw [if_pos hc, smallest?]
      cases hrest : smallest? size (l.filter q) with
      | none =>
        have hnone : ∀ b ∈ l, ¬ q b = true :=
          List.filter_eq_nil_iff.mp (smallest?_eq_none_iff.mp hrest)
        simp only [Option.some_inj]
        constructor
        · rintro rfl
          exact Or.inl ⟨rfl, hc, fun b hb hqb => absurd hqb (hnone b hb)⟩
        · rintro (⟨rfl, -⟩ | ⟨hfound, -⟩)
          · rfl
          · exact absurd hfound.1 (hnone a hfound.mem)
      | some b =>
        have hb := smallest?_filter_eq_some_iff.mp hrest
        have hsame : IsFirstSmallest size (fun b => q b = true) l a ↔ b = a := by
          rw [← smallest?_filter_eq_some_iff, hrest, Option.some_inj]
        simp only [hsame]
        split
        · rename_i hle
          rw [Option.some_inj]
          constructor
          · rintro rfl
            exact Or.inl ⟨rfl, hc, fun d hd hqd => Nat.le_trans hle (hb.le hd hqd)⟩
          · rintro (⟨rfl, -⟩ | ⟨rfl, hlt⟩)
            · rfl
            · exact absurd (hlt hc) (Nat.not_lt.mpr hle)
        · rename_i hlt
          rw [Option.some_inj]
          constructor
          · rintro rfl
            exact Or.inr ⟨rfl, fun _ => Nat.lt_of_not_le hlt⟩
          · rintro (⟨rfl, -, hle⟩ | ⟨rfl, -⟩)
            · exact absurd (hle b hb.mem hb.1) hlt
            · rfl
    · rw [if_neg hc, smallest?_filter_eq_some_iff]
      simp only [hc, false_and, and_false, Bool.false_eq_true, false_or, false_implies, and_true]

theorem mem_of_smallest? {as : List α} (h : smallest? size as = some a) : a ∈ as := by
  have hfilter : as.filter (fun _ => true) = as := List.filter_eq_self.mpr fun _ _ => rfl
  rw [← hfilter] at h
  exact (smallest?_filter_eq_some_iff.mp h).mem

theorem smallest?_map (size : β → Nat) (f : α → β) : ∀ l : List α,
    smallest? size (l.map f) = (smallest? (fun a => size (f a)) l).map f
  | [] => rfl
  | a :: l => by
    rw [List.map_cons, smallest?, smallest?, smallest?_map size f l]
    cases smallest? (fun a => size (f a)) l with
    | none => rfl
    | some b =>
      simp only [Option.map_some]
      split
      · rfl
      · rfl

theorem smallest?_concat (a : α) : ∀ l : List α, smallest? size (l ++ [a]) =
    match smallest? size l with
    | none => some a
    | some b => if size b ≤ size a then some b else some a
  | [] => rfl
  | c :: l => by
    rw [List.cons_append, smallest?, smallest?, smallest?_concat a l]
    cases smallest? size l with
    | none => rfl
    | some b =>
      simp only
      by_cases hba : size b ≤ size a <;> by_cases hcb : size c ≤ size b <;>
        by_cases hca : size c ≤ size a <;> simp only [hba, hcb, hca, if_true, if_false] <;> omega

end TextExtraction

open TextExtraction

/-- The last of the smallest entries is the first one from the end. -/
theorem lastSmallest?_eq_smallest?_reverse : ∀ l : List α,
    lastSmallest? size l = smallest? size l.reverse
  | [] => rfl
  | a :: l => by
    rw [lastSmallest?, List.reverse_cons, smallest?_concat, lastSmallest?_eq_smallest?_reverse l]
    cases smallest? size l.reverse with
    | none => rfl
    | some b =>
      simp only [← Nat.not_le, ite_not]

/-- The search finds the last of the smallest entries. -/
theorem lastSmallest?_filter_eq_some_iff {q : α → Bool} :
    lastSmallest? size (l.filter q) = some a ↔ IsLastSmallest size (fun b => q b = true) l a := by
  rw [lastSmallest?_eq_smallest?_reverse, ← List.filter_reverse, smallest?_filter_eq_some_iff,
    isLastSmallest_iff_reverse]

theorem lastSmallest?_map (size : β → Nat) (f : α → β) (l : List α) :
    lastSmallest? size (l.map f) = (lastSmallest? (fun a => size (f a)) l).map f := by
  rw [lastSmallest?_eq_smallest?_reverse, lastSmallest?_eq_smallest?_reverse, ← List.map_reverse,
    smallest?_map]

/-- There is at most one last of the smallest entries. -/
theorem IsLastSmallest.unique (ha : IsLastSmallest size p l a) (hb : IsLastSmallest size p l b) :
    a = b := by
  classical
  have hfound : ∀ {c}, IsLastSmallest size p l c →
      lastSmallest? size (l.filter fun d => decide (p d)) = some c := by
    intro c hc
    rw [lastSmallest?_filter_eq_some_iff]
    simpa only [decide_eq_true_eq] using hc
  exact Option.some.inj ((hfound ha).symm.trans (hfound hb))

theorem lastSmallest?_eq_none_iff : lastSmallest? size l = none ↔ l = [] := by
  rw [lastSmallest?_eq_smallest?_reverse, smallest?_eq_none_iff, List.reverse_eq_nil_iff]

end Outline

import Mathlib.Order.Lattice

/-!
# Stable sorting

A sort that keeps entries with the same key in their order is determined by its input: two lists in
the order of a key that have the same entries under each value of the key, in the same order, are
equal (`eq_of_filter_key_eq`).  So what a sorted list is can be checked one key at a time, and
sorting can be exchanged with whatever leaves the entries under a key alone: cutting a list where
the keys on the left are not greater than those on the right (`mergeSort_append`), and leaving
entries out (`mergeSort_filter`).  Where no two entries have the same key, the order in which they
are given plays no part at all (`mergeSort_eq_of_perm`).
-/

namespace Outline

variable {α κ : Type} [LinearOrder κ]

theorem key_head_le {key : α → κ} {a b : α} {l : List α}
    (h : (a :: l).Pairwise fun a b => key a ≤ key b) (hb : b ∈ a :: l) : key a ≤ key b := by
  rcases List.mem_cons.mp hb with rfl | hb
  · exact le_rfl
  · exact List.rel_of_pairwise_cons h hb

/-- Two lists in the order of a key that agree under each value of the key are equal. -/
theorem eq_of_filter_key_eq (key : α → κ) : ∀ {l m : List α},
    (l.Pairwise fun a b => key a ≤ key b) → (m.Pairwise fun a b => key a ≤ key b) →
      (∀ k, l.filter (fun a => key a = k) = m.filter fun a => key a = k) → l = m
  | [], [], _, _, _ => rfl
  | [], b :: m, _, _, h => by
    have hb := h (key b)
    simp at hb
  | a :: l, [], _, _, h => by
    have ha := h (key a)
    simp at ha
  | a :: l, b :: m, hal, hbm, h => by
    -- both lists begin with the least key
    have hkey : key a = key b := by
      apply le_antisymm
      · have hmem : b ∈ (a :: l).filter fun c => key c = key b := by
          rw [h (key b)]
          simp
        exact key_head_le hal (List.mem_filter.mp hmem).1
      · have hmem : a ∈ (b :: m).filter fun c => key c = key a := by
          rw [← h (key a)]
          simp
        exact key_head_le hbm (List.mem_filter.mp hmem).1
    have hhead := h (key a)
    rw [List.filter_cons_of_pos (by simp), List.filter_cons_of_pos (by simp [hkey])] at hhead
    have hab : a = b := (List.cons.inj hhead).1
    rw [hab] at h ⊢
    refine congrArg (b :: ·) (eq_of_filter_key_eq key hal.of_cons hbm.of_cons fun k => ?_)
    have hk := h k
    by_cases hbk : key b = k
    · rw [List.filter_cons_of_pos (by simp [hbk]), List.filter_cons_of_pos (by simp [hbk])] at hk
      exact (List.cons.inj hk).2
    · rwa [List.filter_cons_of_neg (by simp [hbk]), List.filter_cons_of_neg (by simp [hbk])] at hk

section

variable {key : α → κ} {le : α → α → Bool} (hle : ∀ a b, le a b = true ↔ key a ≤ key b)

include hle

theorem trans_of_key (a b c : α) (hab : le a b = true) (hbc : le b c = true) : le a c = true :=
  (hle a c).mpr (le_trans ((hle a b).mp hab) ((hle b c).mp hbc))

theorem total_of_key (a b : α) : (le a b || le b a) = true := by
  rw [Bool.or_eq_true, hle, hle]
  exact le_total (key a) (key b)

theorem pairwise_key_mergeSort (l : List α) :
    (l.mergeSort le).Pairwise fun a b => key a ≤ key b := by
  have hsorted : (l.mergeSort le).Pairwise fun a b => le a b = true :=
    List.pairwise_mergeSort (trans_of_key hle) (total_of_key hle) l
  exact hsorted.imp fun {a b} hab => (hle a b).mp hab

/-- Sorting keeps the entries under a key in their order. -/
theorem filter_key_mergeSort (l : List α) (k : κ) :
    (l.mergeSort le).filter (fun a => key a = k) = l.filter fun a => key a = k := by
  have hsame : (l.filter fun a => key a = k).Pairwise fun a b => le a b = true := by
    refine List.pairwise_of_forall_mem_list fun a ha b hb => ?_
    have hka : key a = k := by simpa using (List.mem_filter.mp ha).2
    have hkb : key b = k := by simpa using (List.mem_filter.mp hb).2
    rw [hle, hka, hkb]
  have hsublist : (l.filter fun a => key a = k).Sublist (l.mergeSort le) :=
    List.sublist_mergeSort (trans_of_key hle) (total_of_key hle) hsame List.filter_sublist
  have hfilter := hsublist.filter fun a => decide (key a = k)
  simp only [List.filter_filter, Bool.and_self] at hfilter
  refine (hfilter.eq_of_length ?_).symm
  exact ((List.mergeSort_perm l le).filter _).length_eq.symm

theorem mergeSort_append {l m : List α} (h : ∀ a ∈ l, ∀ b ∈ m, key a ≤ key b) :
    (l ++ m).mergeSort le = l.mergeSort le ++ m.mergeSort le := by
  refine eq_of_filter_key_eq key (pairwise_key_mergeSort hle _) ?_ fun k => ?_
  · refine List.pairwise_append.mpr
      ⟨pairwise_key_mergeSort hle l, pairwise_key_mergeSort hle m, fun a ha b hb => ?_⟩
    exact h a (List.mem_mergeSort.mp ha) b (List.mem_mergeSort.mp hb)
  · rw [filter_key_mergeSort hle, List.filter_append, List.filter_append,
      filter_key_mergeSort hle, filter_key_mergeSort hle]

theorem mergeSort_filter (p : α → Bool) (l : List α) :
    (l.filter p).mergeSort le = (l.mergeSort le).filter p := by
  refine eq_of_filter_key_eq key (pairwise_key_mergeSort hle _)
    ((pairwise_key_mergeSort hle l).filter p) fun k => ?_
  have hswap : ∀ m : List α, (m.filter p).filter (fun a => key a = k) =
      (m.filter fun a => key a = k).filter p := by
    intro m
    simp only [List.filter_filter, Bool.and_comm]
  rw [filter_key_mergeSort hle, hswap, hswap, filter_key_mergeSort hle]

theorem mergeSort_eq_of_perm {l m : List α} (h : l.Perm m)
    (hkey : ∀ a ∈ l, ∀ b ∈ l, key a = key b → a = b) : l.mergeSort le = m.mergeSort le := by
  have hperm : (l.mergeSort le).Perm (m.mergeSort le) :=
    ((List.mergeSort_perm l le).trans h).trans (List.mergeSort_perm m le).symm
  refine List.Perm.eq_of_pairwise (fun a b ha hb hab hba => ?_) (pairwise_key_mergeSort hle l)
    (pairwise_key_mergeSort hle m) hperm
  exact hkey a (List.mem_mergeSort.mp ha) b (h.mem_iff.mpr (List.mem_mergeSort.mp hb))
    (le_antisymm hab hba)

end

end Outline

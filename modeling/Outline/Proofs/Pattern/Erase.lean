import Outline.Proofs.Pattern.Complete

/-!
# Erasing matches

What is left of a text when the matches of a pattern are erased?  Seen by a walk over the characters
that each match leaves in the state it found, the same as before (`foldl_eraseAll`).  This needs no
description of the matches that a search finds, only of what a match is.  If there is a match, and
each takes something, less is left (`length_eraseAll_lt`).

* `exists_outside_eq`: one step of erasing.
* `eraseFirst_eq_self`, `eraseFirst_eq_append`: no match, and one.
-/

namespace Outline.Pattern

open Attempt

variable {p : Pattern} {text : Text}

/-! ## All matches -/

section All

variable (hnull : p.isNullable = false) {limit : Nat}

include hnull in
/-- Up to the first match the text is kept, and behind it the search goes on. -/
theorem exists_outside_eq {a : Attempt} (ha : a.IsIn text) (hgroups : a.groups = [])
    {start : Nat} {e : Attempt}
    (hfirst : p.firstFrom limit a.before a.rest a.index = some (start, e)) (n : Nat)
    (last : Option Nat) :
    ∃ w v b, a.rest = w ++ v ++ e.rest ∧ v ≠ [] ∧ p.Takes b e ∧ b.Passes v e ∧
      Attempt.IsIn ⟨e.before, e.rest, e.index, []⟩ text ∧
      outside text a.index (p.allFrom limit (n + 1) a.before a.rest a.index last) =
        w ++ outside text e.index
          (p.allFrom limit n e.before e.rest e.index (some e.index)) := by
  obtain ⟨w, b, hb, rfl, he⟩ := exists_skips_of_firstFrom hfirst
  rw [eta_of_groups_eq_nil hgroups] at hb
  obtain ⟨v, hv, hopens⟩ := he.exists_passes
  refine ⟨w, v, b, ?_, hopens.ne_nil hnull, he, hv, ?_, ?_⟩
  · rw [hb.rest_eq, hv.rest_eq, List.append_assoc]
  · exact (ha.passes hb.toPasses).passes ⟨hv.rest_eq, hv.index_eq, hv.before_eq⟩
  · rw [allFrom_of_firstFrom hnull hfirst, outside, ha.cut_eq hb.toPasses]

theorem outside_of_firstFrom_eq_none {a : Attempt} (ha : a.IsIn text)
    (hfirst : p.firstFrom limit a.before a.rest a.index = none) (n : Nat) (last : Option Nat) :
    outside text a.index (p.allFrom limit n a.before a.rest a.index last) = a.rest := by
  cases n with
  | zero => rw [allFrom, outside, ha.drop_eq]
  | succ n =>
    rw [allFrom.eq_def]
    simp only [hfirst, outside, ha.drop_eq]

include hnull in
/-- A walk that no match changes sees no difference where matches are left out. -/
theorem foldl_outside {σ : Type} {step : σ → Char → σ}
    (hp : ∀ a b w, p.Takes a b → a.Passes w b → ∀ s, w.foldl step s = s) {n : Nat} :
    ∀ {a : Attempt} (last : Option Nat) (s : σ), a.IsIn text → a.groups = [] →
      (outside text a.index (p.allFrom limit n a.before a.rest a.index last)).foldl step s =
        a.rest.foldl step s := by
  induction n with
  | zero =>
    intro a last s ha _
    rw [allFrom, outside, ha.drop_eq]
  | succ n ih =>
    intro a last s ha hgroups
    cases hfirst : p.firstFrom limit a.before a.rest a.index with
    | none => rw [outside_of_firstFrom_eq_none ha hfirst]
    | some found =>
      obtain ⟨w, v, b, hrest, -, he, hv, hin, houtside⟩ :=
        exists_outside_eq hnull ha hgroups hfirst n last
      rw [houtside, List.foldl_append, ih (some found.2.index) _ hin rfl, hrest,
        List.foldl_append, List.foldl_append, hp b found.2 v he hv]

include hnull in
theorem length_outside_le {n : Nat} : ∀ {a : Attempt} (last : Option Nat), a.IsIn text →
    a.groups = [] →
      (outside text a.index (p.allFrom limit n a.before a.rest a.index last)).length ≤
        a.rest.length := by
  induction n with
  | zero =>
    intro a last ha _
    have hall : outside text a.index (p.allFrom limit 0 a.before a.rest a.index last) = a.rest := by
      rw [allFrom, outside, ha.drop_eq]
    exact Nat.le_of_eq (congrArg List.length hall)
  | succ n ih =>
    intro a last ha hgroups
    cases hfirst : p.firstFrom limit a.before a.rest a.index with
    | none =>
      exact Nat.le_of_eq (congrArg List.length (outside_of_firstFrom_eq_none ha hfirst _ last))
    | some found =>
      obtain ⟨w, v, b, hrest, -, -, -, hin, houtside⟩ :=
        exists_outside_eq hnull ha hgroups hfirst n last
      have hle := ih (some found.2.index) hin rfl
      rw [houtside, hrest, List.length_append, List.length_append, List.length_append]
      simp only at hle
      omega

include hnull in
/-- A walk that no match changes goes over the text without the matches as over the text itself. -/
theorem foldl_eraseAll {σ : Type} {step : σ → Char → σ}
    (hp : ∀ a b w, p.Takes a b → a.Passes w b → ∀ s, w.foldl step s = s) (s : σ) :
    (p.eraseAll text).foldl step s = text.foldl step s :=
  foldl_outside hnull hp none s (Attempt.isIn_start text) rfl

include hnull in
/-- If there is a match, something is erased. -/
theorem length_eraseAll_lt (h : p.occursIn text = true) :
    (p.eraseAll text).length < text.length := by
  rw [occursIn, first?, Option.isSome_map] at h
  obtain ⟨found, hfirst⟩ := Option.isSome_iff_exists.mp h
  obtain ⟨w, v, b, hrest, hv, -, -, hin, houtside⟩ :=
    exists_outside_eq hnull (Attempt.isIn_start text) rfl hfirst (2 * text.length + 1) none
  have hle : (outside text found.2.index (p.allFrom text.length (2 * text.length + 1)
      found.2.before found.2.rest found.2.index (some found.2.index))).length ≤
        found.2.rest.length :=
    length_outside_le hnull (a := ⟨found.2.before, found.2.rest, found.2.index, []⟩) _ hin rfl
  have hpos : 0 < v.length := List.length_pos_iff.mpr hv
  have hlength := congrArg List.length hrest
  rw [eraseAll, all]
  rw [List.length_append, List.length_append] at hlength
  simp only at houtside hlength
  rw [houtside, List.length_append]
  omega

end All

/-! ## One match -/

/-- Where a pattern takes nothing, nothing is erased. -/
theorem eraseFirst_eq_self (h : ∀ w a b, (front text).Skips w a → ¬ p.Takes a b) :
    p.eraseFirst text = text := by
  have hnone : p.first? text = none := by
    rw [first?, Option.map_eq_none_iff]
    exact (firstFrom_eq_none_iff (Nat.le_refl _)).mpr h
  rw [eraseFirst, hnone]
  rfl

/-- What stands before and behind the match is left. -/
theorem eraseFirst_eq_append {u v : Text} {a e : Attempt} {groups : List (Nat × Nat × Nat)}
    (ha : (front text).Skips u a) (hv : a.Passes v e)
    (h : p.first? text = some ⟨a.index, e.index, groups⟩) : p.eraseFirst text = u ++ e.rest := by
  have hcut : Found.cut text 0 a.index = u := (Attempt.isIn_start text).cut_eq ha.toPasses
  have hin : e.IsIn text := ((Attempt.isIn_start text).passes ha.toPasses).passes hv
  rw [eraseFirst, h]
  simp only [Option.toList_some, outside, hcut, hin.drop_eq]

end Outline.Pattern

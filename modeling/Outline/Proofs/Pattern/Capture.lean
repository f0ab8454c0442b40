import Outline.Pattern.Build
import Outline.Proofs.Pattern.Match

/-!
# What a match captures

The groups of a match are written down on the way, each when its end is reached, so every one of
them lies between the ends of the match (`Pattern.Takes.exists_captures`), and thus inside of the
text that was searched (`Pattern.IsMatch.le_of_span?`).

Whether a group takes part at all depends on the way that was gone: a group under a repetition or
in one of two alternatives may be left out.  `Pattern.alwaysCaptures` reads off the pattern that it
cannot be, and then every match has it (`Pattern.IsMatch.exists_span?`).

What a group has in it is what a match of its own pattern takes, somewhere in the text
(`Pattern.IsMatch.exists_body`).  So it is read off from `Pattern.groupBodies`, the patterns of the
groups: where none of their classes takes a character, as `Pattern.capturesWithout` says, no group
has it (`Pattern.IsMatch.notMem_of_span?`).
-/

namespace Outline

/-- The groups that are written down between two places, each between these places. -/
structure Attempt.Captures (a b : Attempt) (new : List (Nat × Nat × Nat)) : Prop where
  index_le : a.index ≤ b.index
  groups_eq : b.groups = new ++ a.groups
  between : ∀ g ∈ new, a.index ≤ g.2.1 ∧ g.2.1 ≤ g.2.2 ∧ g.2.2 ≤ b.index

namespace Attempt.Captures

variable {a b c : Attempt} {old new : List (Nat × Nat × Nat)}

theorem refl (a : Attempt) : a.Captures a [] := ⟨Nat.le_refl _, rfl, by simp⟩

theorem trans (hab : a.Captures b old) (hbc : b.Captures c new) : a.Captures c (new ++ old) where
  index_le := Nat.le_trans hab.index_le hbc.index_le
  groups_eq := by rw [hbc.groups_eq, hab.groups_eq, List.append_assoc]
  between g hg := by
    have hle := hab.index_le
    have hle' := hbc.index_le
    rcases List.mem_append.mp hg with hg | hg
    · have := hbc.between g hg
      omega
    · have := hab.between g hg
      omega

theorem record (h : a.Captures b new) (n : Nat) :
    a.Captures (b.record n a.index) ((n, a.index, b.index) :: new) where
  index_le := h.index_le
  groups_eq := by rw [Attempt.record, h.groups_eq, List.cons_append]
  between := List.forall_mem_cons.mpr
    ⟨⟨Nat.le_refl _, h.index_le, Nat.le_refl _⟩, h.between⟩

end Attempt.Captures

namespace Pattern

/-- Whether every match of a pattern writes down group `n`. -/
def alwaysCaptures (n : Nat) : Pattern → Bool
  | .empty | .char _ | .anchor _ | .star _ _ => false
  | .seq p q => p.alwaysCaptures n || q.alwaysCaptures n
  | .alt p q => p.alwaysCaptures n && q.alwaysCaptures n
  | .group m p => m == n || p.alwaysCaptures n

@[simp] theorem alwaysCaptures_group (n : Nat) (p : Pattern) :
    (Pattern.group n p).alwaysCaptures n = true := by
  rw [alwaysCaptures, beq_self_eq_true, Bool.true_or]

@[simp] theorem alwaysCaptures_captured (p : Pattern) : (captured p).alwaysCaptures 1 = true :=
  alwaysCaptures_group 1 p

@[simp] theorem alwaysCaptures_chain (n : Nat) : ∀ ps : List Pattern,
    (chain ps).alwaysCaptures n = ps.any (alwaysCaptures n)
  | [] => rfl
  | [p] => by rw [chain, List.any_cons, List.any_nil, Bool.or_false]
  | p :: q :: ps => by
    have hchain : chain (p :: q :: ps) = .seq p (chain (q :: ps)) := rfl
    rw [hchain, alwaysCaptures, alwaysCaptures_chain n (q :: ps)]
    rfl

/-- A match writes down groups between its ends, and those that it cannot leave out. -/
theorem Takes.exists_captures {p : Pattern} {a b : Attempt} (h : p.Takes a b) :
    ∃ new, a.Captures b new ∧ ∀ n, p.alwaysCaptures n = true → ∃ g ∈ new, g.1 = n := by
  induction h with
  | empty => exact ⟨[], .refl _, fun n hn => absurd hn (by simp [alwaysCaptures])⟩
  | char hrest hc =>
    exact ⟨[], ⟨Nat.le_succ _, rfl, by simp⟩, fun n hn => absurd hn (by simp [alwaysCaptures])⟩
  | anchor h => exact ⟨[], .refl _, fun n hn => absurd hn (by simp [alwaysCaptures])⟩
  | seq hp hq ihp ihq =>
    obtain ⟨old, hold, hpn⟩ := ihp
    obtain ⟨new, hnew, hqn⟩ := ihq
    refine ⟨new ++ old, hold.trans hnew, fun n hn => ?_⟩
    rw [alwaysCaptures, Bool.or_eq_true] at hn
    rcases hn with hn | hn
    · obtain ⟨g, hg, hgn⟩ := hpn n hn
      exact ⟨g, List.mem_append_right new hg, hgn⟩
    · obtain ⟨g, hg, hgn⟩ := hqn n hn
      exact ⟨g, List.mem_append_left old hg, hgn⟩
  | altLeft hp ih =>
    obtain ⟨new, hnew, hpn⟩ := ih
    refine ⟨new, hnew, fun n hn => hpn n ?_⟩
    rw [alwaysCaptures, Bool.and_eq_true] at hn
    exact hn.1
  | altRight hq ih =>
    obtain ⟨new, hnew, hqn⟩ := ih
    refine ⟨new, hnew, fun n hn => hqn n ?_⟩
    rw [alwaysCaptures, Bool.and_eq_true] at hn
    exact hn.2
  | starNil => exact ⟨[], .refl _, fun n hn => absurd hn (by simp [alwaysCaptures])⟩
  | starCons hp hab hs ihp ihs =>
    obtain ⟨old, hold, -⟩ := ihp
    obtain ⟨new, hnew, -⟩ := ihs
    exact ⟨new ++ old, hold.trans hnew, fun n hn => absurd hn (by simp [alwaysCaptures])⟩
  | @group m p a b hp ih =>
    obtain ⟨new, hnew, hpn⟩ := ih
    refine ⟨(m, a.index, b.index) :: new, hnew.record m, fun n hn => ?_⟩
    rw [alwaysCaptures, Bool.or_eq_true, beq_iff_eq] at hn
    rcases hn with hn | hn
    · exact ⟨_, List.mem_cons_self, hn⟩
    · obtain ⟨g, hg, hgn⟩ := hpn n hn
      exact ⟨g, List.mem_cons_of_mem _ hg, hgn⟩

/-! ## What is in a group -/

/-- Whether no class of a pattern takes the given character. -/
def excludes (bad : Char) : Pattern → Bool
  | .empty | .anchor _ => true
  | .char accepts => !accepts bad
  | .seq p q | .alt p q => p.excludes bad && q.excludes bad
  | .star _ p | .group _ p => p.excludes bad

/-- Whether no class under a group of a pattern takes the given character. -/
def capturesWithout (bad : Char) : Pattern → Bool
  | .empty | .char _ | .anchor _ => true
  | .seq p q | .alt p q => p.capturesWithout bad && q.capturesWithout bad
  | .star _ p => p.capturesWithout bad
  | .group _ p => p.excludes bad && p.capturesWithout bad

/-- A match takes characters of its classes only. -/
theorem Takes.exists_notMem {p : Pattern} {a b : Attempt} {bad : Char} (h : p.Takes a b)
    (hp : p.excludes bad = true) : ∃ w, a.Passes w b ∧ bad ∉ w := by
  induction h with
  | empty => exact ⟨[], .refl _, List.not_mem_nil⟩
  | @char accepts a c cs hrest hc =>
    refine ⟨[c], .advance hrest, fun hbad => ?_⟩
    rw [excludes, List.mem_singleton.mp hbad, hc] at hp
    exact absurd hp (by decide)
  | anchor h => exact ⟨[], .refl _, List.not_mem_nil⟩
  | seq _ _ ihp ihq =>
    rw [excludes, Bool.and_eq_true] at hp
    obtain ⟨v, hv, hbad⟩ := ihp hp.1
    obtain ⟨w, hw, hbad'⟩ := ihq hp.2
    exact ⟨v ++ w, hv.trans hw, fun h => (List.mem_append.mp h).elim hbad hbad'⟩
  | altLeft _ ih =>
    rw [excludes, Bool.and_eq_true] at hp
    exact ih hp.1
  | altRight _ ih =>
    rw [excludes, Bool.and_eq_true] at hp
    exact ih hp.2
  | starNil => exact ⟨[], .refl _, List.not_mem_nil⟩
  | starCons _ _ _ ihp ihs =>
    obtain ⟨v, hv, hbad⟩ := ihp hp
    obtain ⟨w, hw, hbad'⟩ := ihs hp
    exact ⟨v ++ w, hv.trans hw, fun h => (List.mem_append.mp h).elim hbad hbad'⟩
  | group _ ih =>
    obtain ⟨w, hw, hbad⟩ := ih hp
    exact ⟨w, hw.record _ _, hbad⟩

theorem Takes.isIn {p : Pattern} {text : Text} {a b : Attempt} (h : p.Takes a b)
    (ha : a.IsIn text) : b.IsIn text := by
  obtain ⟨w, hw, -⟩ := h.exists_passes
  exact ha.passes hw

/-- The patterns of the groups of a pattern. -/
def groupBodies : Pattern → List Pattern
  | .empty | .char _ | .anchor _ => []
  | .seq p q | .alt p q => p.groupBodies ++ q.groupBodies
  | .star _ p => p.groupBodies
  | .group _ p => p :: p.groupBodies

theorem excludes_of_mem_groupBodies {bad : Char} {q : Pattern} : ∀ {p : Pattern},
    p.capturesWithout bad = true → q ∈ p.groupBodies → q.excludes bad = true
  | .seq p₁ p₂, hp, hq | .alt p₁ p₂, hp, hq => by
    rw [capturesWithout, Bool.and_eq_true] at hp
    exact (List.mem_append.mp hq).elim (excludes_of_mem_groupBodies hp.1)
      (excludes_of_mem_groupBodies hp.2)
  | .star _ p, hp, hq => excludes_of_mem_groupBodies (p := p) hp hq
  | .group _ p, hp, hq => by
    rw [capturesWithout, Bool.and_eq_true] at hp
    rcases List.mem_cons.mp hq with rfl | hq
    · exact hp.1
    · exact excludes_of_mem_groupBodies hp.2 hq

/-- A group that is written down on the way is what its own pattern takes there. -/
theorem Takes.exists_body {p : Pattern} {text : Text} {a b : Attempt} (h : p.Takes a b)
    (ha : a.IsIn text) : ∀ g ∈ b.groups, g ∈ a.groups ∨ ∃ q ∈ p.groupBodies, ∃ c d : Attempt,
      c.IsIn text ∧ q.Takes c d ∧ g.2 = (c.index, d.index) := by
  induction h with
  | seq hp _ ihp ihq =>
    intro g hg
    rcases ihq (hp.isIn ha) g hg with hg | ⟨q, hq, hbody⟩
    · exact (ihp ha g hg).imp_right fun ⟨q, hq, hbody⟩ => ⟨q, List.mem_append_left _ hq, hbody⟩
    · exact Or.inr ⟨q, List.mem_append_right _ hq, hbody⟩
  | altLeft _ ih =>
    exact fun g hg =>
      (ih ha g hg).imp_right fun ⟨q, hq, hbody⟩ => ⟨q, List.mem_append_left _ hq, hbody⟩
  | altRight _ ih =>
    exact fun g hg =>
      (ih ha g hg).imp_right fun ⟨q, hq, hbody⟩ => ⟨q, List.mem_append_right _ hq, hbody⟩
  | starCons hp _ _ ihp ihs =>
    exact fun g hg => (ihs (hp.isIn ha) g hg).elim (ihp ha g) Or.inr
  | group hp ih =>
    intro g hg
    rcases List.mem_cons.mp hg with rfl | hg
    · exact Or.inr ⟨_, List.mem_cons_self, _, _, ha, hp, rfl⟩
    · exact (ih ha g hg).imp_right fun ⟨q, hq, hbody⟩ => ⟨q, List.mem_cons_of_mem _ hq, hbody⟩
  | _ => exact fun g hg => Or.inl hg

variable {p : Pattern} {text : Text} {f : Found}

/-- A group lies inside of the text that was searched. -/
theorem IsMatch.le_of_span? (h : p.IsMatch text f) {n start stop : Nat}
    (hspan : f.span? n = some (start, stop)) : start ≤ stop ∧ stop ≤ text.length := by
  obtain ⟨a, b, hin, hnone, hab, rfl⟩ := h
  obtain ⟨new, hnew, -⟩ := hab.exists_captures
  obtain ⟨w, hw, -⟩ := hab.exists_passes
  obtain ⟨pre, htext, hindex, -⟩ := hin.passes hw
  have hgroups : b.groups = new := by rw [hnew.groups_eq, hnone, List.append_nil]
  rw [Found.span?, hgroups, List.lookup_eq_some_iff] at hspan
  obtain ⟨before, behind, rfl, -⟩ := hspan
  have hbetween := hnew.between _ (List.mem_append_right before List.mem_cons_self)
  have hlength : b.index ≤ text.length := by
    rw [htext, List.length_append, hindex]
    exact Nat.le_add_right _ _
  exact ⟨hbetween.2.1, Nat.le_trans hbetween.2.2 hlength⟩

/-- A group that no match of a pattern leaves out takes part in each. -/
theorem IsMatch.exists_span? (h : p.IsMatch text f) {n : Nat}
    (hn : p.alwaysCaptures n = true) : ∃ start stop, f.span? n = some (start, stop) := by
  obtain ⟨a, b, -, -, hab, rfl⟩ := h
  obtain ⟨new, hnew, hcaptured⟩ := hab.exists_captures
  obtain ⟨g, hg, hgn⟩ := hcaptured n hn
  have hsome : (b.groups.lookup n).isSome = true := by
    rw [List.lookup_isSome_iff, hnew.groups_eq]
    exact ⟨g, List.mem_append_left _ hg, by rw [hgn, beq_self_eq_true]⟩
  obtain ⟨⟨start, stop⟩, hspan⟩ := Option.isSome_iff_exists.mp hsome
  exact ⟨start, stop, hspan⟩

/-- A group that takes part is what its own pattern takes from a place of the text. -/
theorem IsMatch.exists_body (h : p.IsMatch text f) {n start stop : Nat}
    (hspan : f.span? n = some (start, stop)) : ∃ q ∈ p.groupBodies, ∃ a b : Attempt,
      a.IsIn text ∧ q.Takes a b ∧ a.index = start ∧ b.index = stop := by
  obtain ⟨a, b, hin, hnone, hab, rfl⟩ := h
  rw [Found.span?, List.lookup_eq_some_iff] at hspan
  obtain ⟨before, behind, hgroups : b.groups = _, -⟩ := hspan
  have hmem : (n, start, stop) ∈ b.groups :=
    hgroups ▸ List.mem_append_right before List.mem_cons_self
  rcases hab.exists_body hin _ hmem with hmem | ⟨q, hq, c, d, hc, hcd, hends⟩
  · rw [hnone] at hmem
    exact absurd hmem List.not_mem_nil
  · obtain ⟨hstart, hstop⟩ := Prod.mk.inj hends
    exact ⟨q, hq, c, d, hc, hcd, hstart.symm, hstop.symm⟩

/-- A character that no class under a group takes is in none of them. -/
theorem IsMatch.notMem_of_span? (h : p.IsMatch text f) {bad : Char}
    (hp : p.capturesWithout bad = true) {n start stop : Nat}
    (hspan : f.span? n = some (start, stop)) : bad ∉ Found.cut text start stop := by
  obtain ⟨q, hq, a, b, hin, hab, rfl, rfl⟩ := h.exists_body hspan
  obtain ⟨w, hw, hbad⟩ := hab.exists_notMem (excludes_of_mem_groupBodies hp hq)
  rw [hin.cut_eq hw]
  exact hbad

end Pattern

end Outline

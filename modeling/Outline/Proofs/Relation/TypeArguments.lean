import Mathlib.Data.List.Induction
import Outline.Proofs.Pattern.Erase
import Outline.Relation.Heritage

/-!
# Erasing type arguments

Type arguments are erased from the inside out, as long as there are any without others in them.
What is left in the end can be read off the text in one walk: an angle bracket that opens is put on
a stack with what was kept before it, and one that closes drops all that was kept since its partner
(`Kept.step`).  An innermost pair with what is in it leaves the state of this walk as it was, so
erasing such pairs does not change the result; and where there is none left, the walk drops nothing
(`stripArguments_eq`).

In a text in which each angle bracket has its partner (`IsEnclosed`) the walk returns to the stack
it began with, and what is kept of two such texts is what is kept of each.
-/

namespace Outline

open Pattern Attempt

/-- What is kept on a walk over a text: before each angle bracket that is open, the innermost first,
and behind the last of them. -/
structure Kept where
  outer : List Text
  last : Text
  deriving DecidableEq, Repr

namespace Kept

/-- One character on. -/
def step (s : Kept) (c : Char) : Kept :=
  if c = '<' then ⟨s.last :: s.outer, []⟩
  else if c = '>' then
    match s.outer with
    | [] => ⟨[], s.last ++ [c]⟩
    | t :: ts => ⟨ts, t⟩
  else ⟨s.outer, s.last ++ [c]⟩

/-- All that is kept, with the brackets that are still open. -/
def text (s : Kept) : Text := s.outer.foldl (fun rest t => t ++ '<' :: rest) s.last

theorem step_opening (s : Kept) : s.step '<' = ⟨s.last :: s.outer, []⟩ := by
  rw [step, if_pos rfl]

theorem step_closing (t : Text) (ts : List Text) (last : Text) :
    step ⟨t :: ts, last⟩ '>' = ⟨ts, t⟩ := by
  rw [step, if_neg (by decide), if_pos rfl]

theorem step_of_ne (s : Kept) {c : Char} (ho : c ≠ '<') (hc : c ≠ '>') :
    s.step c = ⟨s.outer, s.last ++ [c]⟩ := by
  rw [step, if_neg ho, if_neg hc]

theorem foldl_step_of_forall {w : Text} (hw : ∀ c ∈ w, c ≠ '<' ∧ c ≠ '>') (s : Kept) :
    w.foldl step s = ⟨s.outer, s.last ++ w⟩ := by
  induction w generalizing s with
  | nil => rw [List.foldl_nil, List.append_nil]
  | cons c w ih =>
    obtain ⟨hc, hw⟩ := List.forall_mem_cons.mp hw
    rw [List.foldl_cons, step_of_ne s hc.1 hc.2, ih hw, List.append_assoc]
    rfl

/-- A pair of brackets with none in it leaves the state as it was. -/
theorem foldl_step_inner {w : Text} (hw : ∀ c ∈ w, c ≠ '<' ∧ c ≠ '>') (s : Kept) :
    ('<' :: w ++ ['>']).foldl step s = s := by
  rw [List.cons_append, List.foldl_cons, step_opening, List.foldl_append, foldl_step_of_forall hw,
    List.foldl_cons, List.foldl_nil, step_closing]

theorem text_append (outer : List Text) (last w : Text) :
    text ⟨outer, last ++ w⟩ = text ⟨outer, last⟩ ++ w := by
  simp only [text]
  induction outer generalizing last with
  | nil => rfl
  | cons t ts ih => rw [List.foldl_cons, List.foldl_cons, ← ih, List.append_assoc, List.cons_append]

end Kept

/-- A text without its matched angle brackets and what is in them. -/
def withoutMatched (t : Text) : Text := (t.foldl Kept.step ⟨[], []⟩).text

/-! ## Erasing from the inside out -/

theorem isNullable_innerArguments : innerArguments.isNullable = false := by decide

theorem takes_innerArguments_iff {a b : Attempt} : innerArguments.Takes a b ↔
    ∃ w, (∀ c ∈ w, c ≠ '<' ∧ c ≠ '>') ∧ a.Skips ('<' :: w ++ ['>']) b := by
  have hopening : "<".toList = ['<'] := rfl
  have hclosing : ">".toList = ['>'] := rfl
  have hclass : ∀ c : Char, (!"<>".toList.contains c) = true ↔ c ≠ '<' ∧ c ≠ '>' := by
    intro c
    simp
  simp only [innerArguments, takes_chain_cons_iff, takes_literal_iff, except,
    takes_many_char_iff, hopening, hclosing, hclass]
  constructor
  · rintro ⟨c, hc, d, ⟨w, hw, hd⟩, e, he, hb⟩
    obtain rfl := takes_empty_iff.mp hb
    exact ⟨w, hw, (hc.trans hd).trans he⟩
  · rintro ⟨w, hw, hb⟩
    obtain ⟨d, hd, hb⟩ := Skips.append_iff.mp hb
    obtain ⟨c, hc, hd⟩ := Skips.cons_iff.mp hd
    exact ⟨c, hc, d, ⟨w, hw, hd⟩, b, hb, .empty⟩

/-- An angle bracket that opens and one that closes, and none between the two. -/
def HasInnerPair (t : Text) : Prop :=
  ∃ pre w post, (∀ c ∈ w, c ≠ '<' ∧ c ≠ '>') ∧ t = pre ++ ('<' :: w ++ ['>']) ++ post

theorem occursIn_innerArguments_iff {t : Text} :
    innerArguments.occursIn t = true ↔ HasInnerPair t := by
  rw [occursIn_iff]
  constructor
  · rintro ⟨pre, a, b, ha, hab⟩
    obtain ⟨w, hw, hb⟩ := takes_innerArguments_iff.mp hab
    exact ⟨pre, w, b.rest, hw, (ha.trans hb).rest_eq⟩
  · rintro ⟨pre, w, post, hw, rfl⟩
    obtain ⟨a, ha, harest⟩ := exists_skips (a := front (pre ++ ('<' :: w ++ ['>']) ++ post))
      (w := pre) (List.append_assoc _ _ _)
    obtain ⟨b, hb, -⟩ := exists_skips harest
    exact ⟨pre, a, b, ha, takes_innerArguments_iff.mpr ⟨w, hw, hb⟩⟩

/-- Innermost pairs may be erased. -/
theorem withoutMatched_eraseAll (t : Text) :
    withoutMatched (innerArguments.eraseAll t) = withoutMatched t := by
  rw [withoutMatched, withoutMatched, foldl_eraseAll isNullable_innerArguments]
  intro a b v hab hv s
  obtain ⟨w, hw, hskips⟩ := takes_innerArguments_iff.mp hab
  have hvw : v = '<' :: w ++ ['>'] :=
    List.append_cancel_right (hv.rest_eq.symm.trans hskips.rest_eq)
  rw [hvw, Kept.foldl_step_inner hw]

/-- What a walk keeps of a text as long as no bracket has found its partner: all is kept, and behind
the last bracket that is open there are no others. -/
structure Kept.IsAllOf (s : Kept) (t : Text) : Prop where
  text_eq : s.text = t
  opened : s.outer ≠ [] → ∃ pre, t = pre ++ '<' :: s.last
  plain : s.outer ≠ [] → ∀ c ∈ s.last, c ≠ '<' ∧ c ≠ '>'

/-- A bracket that closes finds no partner, since it would make an innermost pair with the last one
that is open. -/
theorem Kept.IsAllOf.step {s : Kept} {t : Text} (h : s.IsAllOf t) {c : Char}
    (hpair : ¬ HasInnerPair (t ++ [c])) : (s.step c).IsAllOf (t ++ [c]) := by
  obtain ⟨outer, last⟩ := s
  by_cases ho : c = '<'
  · subst ho
    rw [Kept.step_opening]
    refine ⟨?_, fun _ => ⟨t, rfl⟩, by simp⟩
    rw [← h.text_eq]
    exact Kept.text_append outer last ['<']
  by_cases hc : c = '>'
  · subst hc
    cases outer with
    | nil =>
      exact ⟨congrArg (· ++ ['>']) h.text_eq, fun hnil => absurd rfl hnil,
        fun hnil => absurd rfl hnil⟩
    | cons u us =>
      obtain ⟨pre, hpre⟩ := h.opened (List.cons_ne_nil u us)
      refine absurd ⟨pre, last, [], h.plain (List.cons_ne_nil u us), ?_⟩ hpair
      rw [hpre, List.append_nil, List.append_assoc]
  · rw [Kept.step_of_ne _ ho hc]
    refine ⟨by rw [Kept.text_append, h.text_eq], fun houter => ?_, fun houter d hd => ?_⟩
    · obtain ⟨pre, hpre⟩ := h.opened houter
      exact ⟨pre, by rw [hpre, List.append_assoc, List.cons_append]⟩
    · rcases List.mem_append.mp hd with hd | hd
      · exact h.plain houter d hd
      · rw [List.mem_singleton.mp hd]
        exact ⟨ho, hc⟩

/-- Where there is no innermost pair, no bracket finds its partner. -/
theorem isAllOf_foldl_step {t : Text} (h : ¬ HasInnerPair t) :
    (t.foldl Kept.step ⟨[], []⟩).IsAllOf t := by
  induction t using List.reverseRecOn with
  | nil => exact ⟨rfl, fun h => absurd rfl h, fun h => absurd rfl h⟩
  | append_singleton t c ih =>
    have hprefix : ¬ HasInnerPair t := by
      rintro ⟨pre, w, post, hw, rfl⟩
      exact h ⟨pre, w, post ++ [c], hw, List.append_assoc _ _ _⟩
    rw [List.foldl_append, List.foldl_cons, List.foldl_nil]
    exact (ih hprefix).step h

/-- A walk on which no bracket finds its partner keeps all. -/
theorem withoutMatched_eq_self {t : Text} (h : innerArguments.occursIn t = false) :
    withoutMatched t = t :=
  (isAllOf_foldl_step fun hpair => by
    rw [occursIn_innerArguments_iff.mpr hpair] at h
    exact absurd h (by decide)).text_eq

theorem stripArgumentsFuel_eq : ∀ {n : Nat} {t : Text}, t.length ≤ n →
    stripArgumentsFuel n t = withoutMatched t
  | 0, t, h => by
    rw [List.eq_nil_of_length_eq_zero (Nat.le_zero.mp h)]
    rfl
  | n + 1, t, h => by
    rw [stripArgumentsFuel]
    split
    · rename_i hoccurs
      have hlt := length_eraseAll_lt isNullable_innerArguments hoccurs
      rw [stripArgumentsFuel_eq (Nat.le_of_lt_succ (Nat.lt_of_lt_of_le hlt h)),
        withoutMatched_eraseAll]
    · rename_i hoccurs
      rw [withoutMatched_eq_self (eq_false_of_ne_true hoccurs)]

/-- Erasing from the inside out leaves what is kept on one walk. -/
theorem stripArguments_eq (t : Text) : stripArguments t = withoutMatched t :=
  stripArgumentsFuel_eq (Nat.le_refl _)

/-! ## Brackets that have partners -/

/-- A text in which each angle bracket has its partner. -/
inductive IsEnclosed : Text → Prop
  | nil : IsEnclosed []
  | char {c : Char} {t : Text} (ho : c ≠ '<') (hc : c ≠ '>') (ht : IsEnclosed t) :
      IsEnclosed (c :: t)
  | group {s t : Text} (hs : IsEnclosed s) (ht : IsEnclosed t) : IsEnclosed ('<' :: s ++ '>' :: t)

/-- Over such a text the walk returns to the stack it began with. -/
theorem IsEnclosed.exists_foldl {t : Text} (h : IsEnclosed t) :
    ∃ w, ∀ s : Kept, t.foldl Kept.step s = ⟨s.outer, s.last ++ w⟩ := by
  induction h with
  | nil => exact ⟨[], fun s => by rw [List.foldl_nil, List.append_nil]⟩
  | @char c t ho hc ht ih =>
    obtain ⟨w, hw⟩ := ih
    refine ⟨c :: w, fun s => ?_⟩
    rw [List.foldl_cons, Kept.step_of_ne s ho hc, hw, List.append_assoc]
    rfl
  | @group s t hs ht ihs iht =>
    obtain ⟨v, hv⟩ := ihs
    obtain ⟨w, hw⟩ := iht
    refine ⟨w, fun k => ?_⟩
    rw [List.cons_append, List.foldl_cons, Kept.step_opening, List.foldl_append, hv,
      List.foldl_cons, Kept.step_closing, hw]

theorem IsEnclosed.foldl_step {t : Text} (h : IsEnclosed t) (s : Kept) :
    t.foldl Kept.step s = ⟨s.outer, s.last ++ withoutMatched t⟩ := by
  obtain ⟨w, hw⟩ := h.exists_foldl
  have hkept : withoutMatched t = w := by
    rw [withoutMatched, hw]
    rfl
  rw [hw, hkept]

/-- What is kept of two texts is what is kept of each. -/
theorem withoutMatched_append {t u : Text} (ht : IsEnclosed t) (hu : IsEnclosed u) :
    withoutMatched (t ++ u) = withoutMatched t ++ withoutMatched u := by
  rw [withoutMatched, List.foldl_append, ht.foldl_step, hu.foldl_step]
  rfl

theorem withoutMatched_of_forall {t : Text} (h : ∀ c ∈ t, c ≠ '<' ∧ c ≠ '>') :
    withoutMatched t = t := by
  rw [withoutMatched, Kept.foldl_step_of_forall h]
  rfl

/-- Of type arguments nothing is kept. -/
theorem withoutMatched_group {s : Text} (hs : IsEnclosed s) :
    withoutMatched ('<' :: s ++ ['>']) = [] := by
  rw [withoutMatched, List.cons_append, List.foldl_cons, Kept.step_opening, List.foldl_append,
    hs.foldl_step, List.foldl_cons, Kept.step_closing]
  rfl

theorem isEnclosed_of_forall {t : Text} (h : ∀ c ∈ t, c ≠ '<' ∧ c ≠ '>') : IsEnclosed t := by
  induction t with
  | nil => exact .nil
  | cons c t ih =>
    obtain ⟨hc, ht⟩ := List.forall_mem_cons.mp h
    exact .char hc.1 hc.2 (ih ht)

theorem IsEnclosed.append {t u : Text} (ht : IsEnclosed t) (hu : IsEnclosed u) :
    IsEnclosed (t ++ u) := by
  induction ht with
  | nil => exact hu
  | char ho hc _ ih => exact .char ho hc ih
  | @group s t hs _ _ iht =>
    rw [List.append_assoc, List.cons_append]
    exact .group hs iht

end Outline

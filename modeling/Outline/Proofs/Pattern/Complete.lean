import Mathlib.Logic.Basic
import Outline.Pattern.Build
import Outline.Proofs.Pattern.Match

/-!
# No match is overlooked

The matcher fails only when there is no way: if a pattern takes the text from one place to another,
and what comes after succeeds there, then the matcher succeeds (`run_complete`).  It need not go
that way, since an earlier one may succeed as well.  The one thing that could stop it is the number
of rounds that a repetition is given, and this is the length of the text, of which every round takes
at least one character.

Together with `run_sound` a search is thereby described without the matcher: it finds nothing
exactly when the pattern takes nothing at any place (`firstFrom_eq_none_iff`, `occursIn_iff`).  For
the patterns of `Outline.Pattern.Build` that capture nothing, what they take is the text they are
written as (`takes_literal_iff`, `takes_words_iff`, `takes_many_char_iff`).

* `Attempt.Skips`: from place to place without capturing.
* `run_complete`: the matcher.
* `allFrom_eq_nil`, `length_allFrom_eq_one`: patterns that reach to the end of the text.
-/

namespace Outline

namespace Attempt

/-- From place `a` the text `w` leads to place `b`, and nothing is captured. -/
structure Skips (a : Attempt) (w : Text) (b : Attempt) : Prop extends a.Passes w b where
  groups_eq : b.groups = a.groups

namespace Skips

variable {a b c : Attempt} {v w : Text}

theorem refl (a : Attempt) : a.Skips [] a := ⟨.refl a, rfl⟩

theorem trans (hab : a.Skips v b) (hbc : b.Skips w c) : a.Skips (v ++ w) c :=
  ⟨hab.toPasses.trans hbc.toPasses, hbc.groups_eq.trans hab.groups_eq⟩

theorem advance {ch : Char} {cs : Text} (h : a.rest = ch :: cs) : a.Skips [ch] (a.advance ch cs) :=
  ⟨.advance h, rfl⟩

/-- A place is known by what leads to it. -/
theorem unique (hb : a.Skips w b) (hc : a.Skips w c) : b = c := by
  have hrest : b.rest = c.rest := List.append_cancel_left (hb.rest_eq.symm.trans hc.rest_eq)
  have hbefore : b.before = c.before := hb.before_eq.trans hc.before_eq.symm
  have hindex : b.index = c.index := hb.index_eq.trans hc.index_eq.symm
  have hgroups : b.groups = c.groups := hb.groups_eq.trans hc.groups_eq.symm
  cases b
  cases c
  simp only at hrest hbefore hindex hgroups
  rw [hrest, hbefore, hindex, hgroups]

theorem nil_iff : a.Skips [] b ↔ b = a :=
  ⟨fun h => h.unique (refl a), fun h => h ▸ refl a⟩

theorem append_iff : a.Skips (v ++ w) c ↔ ∃ b, a.Skips v b ∧ b.Skips w c := by
  constructor
  · intro h
    refine ⟨⟨v.getLast?.or a.before, w ++ c.rest, a.index + v.length, a.groups⟩,
      ⟨⟨?_, rfl, rfl⟩, rfl⟩, ⟨⟨rfl, ?_, ?_⟩, h.groups_eq⟩⟩
    · rw [h.rest_eq, List.append_assoc]
    · rw [h.index_eq, List.length_append, Nat.add_assoc]
    · rw [h.before_eq, List.getLast?_append, Option.or_assoc]
  · rintro ⟨b, hab, hbc⟩
    exact hab.trans hbc

theorem cons_iff {ch : Char} : a.Skips (ch :: w) c ↔ ∃ b, a.Skips [ch] b ∧ b.Skips w c :=
  append_iff (v := [ch])

theorem length_le (h : a.Skips w b) : b.rest.length ≤ a.rest.length := by
  rw [h.rest_eq, List.length_append]
  exact Nat.le_add_left _ _

end Skips

/-- The place before a text. -/
def front (text : Text) : Attempt := ⟨none, text, 0, []⟩

/-- A place with nothing captured on the way. -/
theorem eta_of_groups_eq_nil {a : Attempt} (h : a.groups = []) :
    (⟨a.before, a.rest, a.index, []⟩ : Attempt) = a := by
  rw [← h]

/-- There is a place behind every piece of text that comes next. -/
theorem exists_skips {a : Attempt} {w rest : Text} (h : a.rest = w ++ rest) :
    ∃ b, a.Skips w b ∧ b.rest = rest :=
  ⟨⟨w.getLast?.or a.before, rest, a.index + w.length, a.groups⟩, ⟨⟨h, rfl, rfl⟩, rfl⟩, rfl⟩

/-- The places from one on: itself, and those after the next character. -/
theorem skips_iff_of_cons {a b : Attempt} {ch : Char} {cs w : Text} (h : a.rest = ch :: cs) :
    a.Skips w b ↔ (w = [] ∧ b = a) ∨ ∃ v, w = ch :: v ∧ (a.advance ch cs).Skips v b := by
  constructor
  · intro hw
    cases w with
    | nil => exact Or.inl ⟨rfl, Skips.nil_iff.mp hw⟩
    | cons c v =>
      obtain ⟨d, hd, hdb⟩ := Skips.cons_iff.mp hw
      have hc : ch = c := by
        have hrest := hw.rest_eq
        rw [h, List.cons_append] at hrest
        exact (List.cons.inj hrest).1
      subst hc
      rw [hd.unique (.advance h)] at hdb
      exact Or.inr ⟨v, rfl, hdb⟩
  · rintro (⟨rfl, rfl⟩ | ⟨v, rfl, hv⟩)
    · exact .refl _
    · exact Skips.cons_iff.mpr ⟨_, .advance h, hv⟩

end Attempt

open Attempt

namespace Pattern

/-! ## The matcher finds a way -/

/-- What `run_complete` says of one matcher. -/
def IsComplete (p : Pattern) (limit : Nat) (m : Matcher) : Prop :=
  ∀ {k : Attempt → Option Attempt} {a b : Attempt}, a.rest.length ≤ limit → p.Takes a b →
    (k b).isSome = true → (m k a).isSome = true

theorem Takes.length_le {p : Pattern} {a b : Attempt} (h : p.Takes a b) :
    b.rest.length ≤ a.rest.length := by
  obtain ⟨w, hw, -⟩ := h.exists_passes
  rw [hw.rest_eq, List.length_append]
  exact Nat.le_add_left _ _

/-- A round leaves less of the text. -/
theorem Takes.length_lt {p : Pattern} {a b : Attempt} (h : p.Takes a b)
    (hab : b.index ≠ a.index) : b.rest.length < a.rest.length := by
  obtain ⟨w, hw, -⟩ := h.exists_passes
  have hindex := hw.index_eq
  have hlength := congrArg List.length hw.rest_eq
  rw [List.length_append] at hlength
  omega

theorem isComplete_rounds {p : Pattern} {limit : Nat} {m : Matcher} (hm : p.IsComplete limit m)
    (greedy : Bool) {n : Nat} (hn : n ≤ limit) :
    (Pattern.star greedy p).IsComplete n (m.rounds greedy n) := by
  induction n with
  | zero =>
    intro k a b ha h hk
    rw [Matcher.rounds_zero]
    cases h with
    | starNil => exact hk
    | starCons hp hab _ => exact absurd (hp.length_lt hab) (by omega)
  | succ n ih =>
    intro k a b ha h hk
    rw [Matcher.rounds_succ, Option.orElse_eq_or, Option.orElse_eq_or]
    cases h with
    | starNil =>
      split
      · rw [Option.isSome_or, hk, Bool.or_true]
      · rw [Option.isSome_or, hk, Bool.true_or]
    | @starCons _ _ _ c _ hp hab hs =>
      have hlt := hp.length_lt hab
      have hround : (m (fun b => if b.index = a.index then none else m.rounds greedy n k b)
          a).isSome = true := by
        refine hm (Nat.le_trans ha hn) hp ?_
        rw [if_neg hab]
        exact ih (Nat.le_of_succ_le hn) (by omega) hs hk
      split
      · rw [Option.isSome_or, hround, Bool.true_or]
      · rw [Option.isSome_or, hround, Bool.or_true]

/-- If there is a way of the pattern from which what comes after succeeds, the matcher succeeds. -/
theorem run_complete (limit : Nat) (p : Pattern) : p.IsComplete limit (p.run limit) := by
  induction p with
  | empty =>
    intro k a b _ h hk
    cases h
    exact hk
  | char accepts =>
    intro k a b _ h hk
    cases h with
    | char hrest hc =>
      rw [run, hrest]
      simp only [hc, if_true]
      exact hk
  | anchor condition =>
    intro k a b _ h hk
    cases h with
    | anchor hholds =>
      rw [run, if_pos hholds]
      exact hk
  | seq p q ihp ihq =>
    intro k a b ha h hk
    cases h with
    | seq hp hq => exact ihp ha hp (ihq (Nat.le_trans hp.length_le ha) hq hk)
  | alt p q ihp ihq =>
    intro k a b ha h hk
    rw [run, Option.orElse_eq_or, Option.isSome_or]
    cases h with
    | altLeft hp => rw [ihp ha hp hk, Bool.true_or]
    | altRight hq => rw [ihq ha hq hk, Bool.or_true]
  | star greedy p ih =>
    rw [run_star]
    exact isComplete_rounds ih greedy (Nat.le_refl limit)
  | group n p ih =>
    intro k a b ha h hk
    cases h with
    | group hp => exact ih ha hp hk

theorem takes_of_run {limit : Nat} {p : Pattern} {a e : Attempt}
    (h : p.run limit some a = some e) : p.Takes a e := by
  obtain ⟨b, hab, hb⟩ := run_sound limit p _ _ _ h
  exact Option.some.inj hb ▸ hab

theorem run_eq_none_iff {limit : Nat} {p : Pattern} {a : Attempt} (h : a.rest.length ≤ limit) :
    p.run limit some a = none ↔ ∀ b, ¬ p.Takes a b := by
  rw [← Option.isNone_iff_eq_none, ← Option.not_isSome, Bool.not_eq_true']
  constructor
  · intro hnone b hb
    have hsome : (p.run limit some a).isSome = true := run_complete limit p h hb Option.isSome_some
    exact absurd (hnone.symm.trans hsome) (by decide)
  · intro hno
    rw [Bool.eq_false_iff]
    intro hsome
    obtain ⟨e, he⟩ := Option.isSome_iff_exists.mp hsome
    exact hno e (takes_of_run he)

/-! ## Searching -/

/-- A search fails exactly when the pattern takes nothing at any place. -/
theorem firstFrom_eq_none_iff {p : Pattern} {limit : Nat} :
    ∀ {rest : Text} {before : Option Char} {index : Nat}, rest.length ≤ limit →
      (p.firstFrom limit before rest index = none ↔
        ∀ w b c, Skips ⟨before, rest, index, []⟩ w b → ¬ p.Takes b c)
  | [], before, index, hlimit => by
    rw [firstFrom, Option.map_eq_none_iff, run_eq_none_iff hlimit]
    constructor
    · intro h w b c hb
      have hw : w = [] := (List.append_eq_nil_iff.mp hb.rest_eq.symm).1
      subst hw
      rw [Skips.nil_iff.mp hb]
      exact h c
    · exact fun h c => h [] _ c (.refl _)
  | ch :: cs, before, index, hlimit => by
    rw [firstFrom]
    cases hrun : p.run limit some ⟨before, ch :: cs, index, []⟩ with
    | some e =>
      refine iff_of_false (by simp) fun h => ?_
      exact h [] _ e (.refl _) (takes_of_run hrun)
    | none =>
      simp only
      rw [firstFrom_eq_none_iff (Nat.le_of_succ_le hlimit)]
      constructor
      · intro h w b c hb
        rcases (skips_iff_of_cons rfl).mp hb with ⟨-, rfl⟩ | ⟨v, -, hv⟩
        · exact (run_eq_none_iff hlimit).mp hrun c
        · exact h v b c hv
      · exact fun h w b c hb => h _ b c ((skips_iff_of_cons rfl).mpr (Or.inr ⟨w, rfl, hb⟩))

/-- What a search finds, it finds from where it began. -/
theorem exists_skips_of_firstFrom {p : Pattern} {limit : Nat} :
    ∀ {rest : Text} {before : Option Char} {index start : Nat} {e : Attempt},
      p.firstFrom limit before rest index = some (start, e) →
        ∃ w b, Skips ⟨before, rest, index, []⟩ w b ∧ b.index = start ∧ p.Takes b e
  | [], before, index, start, e, h => by
    rw [firstFrom, Option.map_eq_some_iff] at h
    obtain ⟨e', he', heq⟩ := h
    obtain ⟨rfl, rfl⟩ := Prod.mk.inj heq
    exact ⟨[], _, .refl _, rfl, takes_of_run he'⟩
  | ch :: cs, before, index, start, e, h => by
    rw [firstFrom] at h
    split at h
    · rename_i e' he'
      obtain ⟨rfl, rfl⟩ := Prod.mk.inj (Option.some.inj h)
      exact ⟨[], _, .refl _, rfl, takes_of_run he'⟩
    · obtain ⟨w, b, hw, hb⟩ := exists_skips_of_firstFrom h
      exact ⟨ch :: w, b, (skips_iff_of_cons rfl).mpr (Or.inr ⟨w, rfl, hw⟩), hb⟩

/-- A search finds what matches where it begins. -/
theorem exists_firstFrom_of_takes {p : Pattern} {limit : Nat} {a b : Attempt}
    (hlimit : a.rest.length ≤ limit) (hgroups : a.groups = []) (h : p.Takes a b) :
    ∃ e, p.firstFrom limit a.before a.rest a.index = some (a.index, e) ∧ p.Takes a e := by
  cases hrun : p.run limit some a with
  | none => exact absurd h ((run_eq_none_iff hlimit).mp hrun b)
  | some e =>
    refine ⟨e, ?_, takes_of_run hrun⟩
    rw [← eta_of_groups_eq_nil hgroups] at hrun
    cases hrest : a.rest with
    | nil =>
      rw [hrest] at hrun
      rw [firstFrom, hrun, Option.map_some]
    | cons c cs =>
      rw [hrest] at hrun
      rw [firstFrom, hrun]

theorem occursIn_iff {p : Pattern} {text : Text} :
    p.occursIn text = true ↔ ∃ w b c, (front text).Skips w b ∧ p.Takes b c := by
  have hnone : p.first? text = none ↔ ∀ w b c, (front text).Skips w b → ¬ p.Takes b c := by
    rw [first?, Option.map_eq_none_iff]
    exact firstFrom_eq_none_iff (Nat.le_refl _)
  rw [occursIn, Option.isSome_iff_ne_none, Ne, hnone]
  simp only [not_forall, not_not, exists_prop]

/-- Where a pattern takes nothing any more, there are no further matches. -/
theorem allFrom_eq_nil {p : Pattern} {limit : Nat} {a : Attempt} (hlimit : a.rest.length ≤ limit)
    (hgroups : a.groups = []) (h : ∀ w b c, a.Skips w b → ¬ p.Takes b c) (n : Nat)
    (last : Option Nat) : p.allFrom limit n a.before a.rest a.index last = [] := by
  have hfirst : p.firstFrom limit a.before a.rest a.index = none :=
    (firstFrom_eq_none_iff hlimit).mpr fun w b c hb =>
      h w b c (eta_of_groups_eq_nil hgroups ▸ hb)
  cases n with
  | zero => rfl
  | succ n =>
    unfold allFrom
    rw [hfirst]

theorem not_takes_of_end {p : Pattern} (hp : p.isNullable = false) {a : Attempt}
    (ha : a.rest = []) (b : Attempt) : ¬ p.Takes a b := by
  intro h
  obtain ⟨w, hw, hopens⟩ := h.exists_passes
  have hnil := hw.rest_eq
  rw [ha, eq_comm, List.append_eq_nil_iff] at hnil
  exact hopens.ne_nil hp hnil.1

/-- If every match from a place on reaches to the end of the text and takes something, there is one
at most. -/
theorem length_allFrom_eq_one {p : Pattern} (hp : p.isNullable = false) {limit : Nat} {a : Attempt}
    (hlimit : a.rest.length ≤ limit) (hgroups : a.groups = [])
    (hend : ∀ w b c, a.Skips w b → p.Takes b c → c.rest = [])
    (hexists : ∃ w b c, a.Skips w b ∧ p.Takes b c) (n : Nat) (last : Option Nat) :
    (p.allFrom limit (n + 1) a.before a.rest a.index last).length = 1 := by
  have heta := eta_of_groups_eq_nil hgroups
  cases hfirst : p.firstFrom limit a.before a.rest a.index with
  | none =>
    obtain ⟨w, b, c, hb, hc⟩ := hexists
    rw [← heta] at hb
    exact absurd hc ((firstFrom_eq_none_iff hlimit).mp hfirst w b c hb)
  | some found =>
    obtain ⟨start, e⟩ := found
    obtain ⟨w, b, hb, -, he⟩ := exists_skips_of_firstFrom hfirst
    rw [heta] at hb
    have hrest : e.rest = [] := hend w b e hb he
    have hbehind : p.allFrom limit n e.before e.rest e.index (some e.index) = [] := by
      refine allFrom_eq_nil (a := ⟨e.before, e.rest, e.index, []⟩) ?_ rfl ?_ n _
      · rw [hrest]
        exact Nat.zero_le _
      · intro v c d hc
        have hc' : v ++ c.rest = [] := hc.rest_eq.symm.trans hrest
        exact not_takes_of_end hp (List.append_eq_nil_iff.mp hc').2 d
    rw [allFrom_of_firstFrom hp hfirst, hbehind, List.length_singleton]

/-! ## Patterns that are built -/

section

variable {a b : Attempt}

theorem takes_empty_iff : Pattern.empty.Takes a b ↔ b = a := by
  constructor
  · intro h
    cases h
    rfl
  · rintro rfl
    exact .empty

theorem takes_anchor_iff {condition : Anchor} :
    (Pattern.anchor condition).Takes a b ↔ condition.holds a = true ∧ b = a := by
  constructor
  · intro h
    cases h with
    | anchor hholds => exact ⟨hholds, rfl⟩
  · rintro ⟨hholds, rfl⟩
    exact .anchor hholds

theorem takes_seq_iff {p q : Pattern} :
    (Pattern.seq p q).Takes a b ↔ ∃ c, p.Takes a c ∧ q.Takes c b := by
  constructor
  · intro h
    cases h with
    | seq hp hq => exact ⟨_, hp, hq⟩
  · rintro ⟨c, hp, hq⟩
    exact .seq hp hq

theorem takes_alt_iff {p q : Pattern} :
    (Pattern.alt p q).Takes a b ↔ p.Takes a b ∨ q.Takes a b := by
  constructor
  · intro h
    cases h with
    | altLeft hp => exact Or.inl hp
    | altRight hq => exact Or.inr hq
  · rintro (hp | hq)
    · exact .altLeft hp
    · exact .altRight hq

theorem takes_opt_iff {p : Pattern} {a b : Attempt} :
    (opt p).Takes a b ↔ p.Takes a b ∨ b = a := by
  rw [opt, takes_alt_iff, takes_empty_iff]

theorem takes_char_iff {accepts : Char → Bool} :
    (Pattern.char accepts).Takes a b ↔ ∃ c, accepts c = true ∧ a.Skips [c] b := by
  constructor
  · intro h
    cases h with
    | char hrest hc => exact ⟨_, hc, .advance hrest⟩
  · rintro ⟨c, hc, hb⟩
    have hrest : a.rest = c :: b.rest := hb.rest_eq
    rw [hb.unique (.advance hrest)]
    exact .char hrest hc

theorem takes_many_char_iff {accepts : Char → Bool} :
    (many (.char accepts)).Takes a b ↔ ∃ w, (∀ c ∈ w, accepts c = true) ∧ a.Skips w b := by
  constructor
  · intro h
    generalize hp : many (.char accepts) = p at h
    induction h with
    | starNil => exact ⟨[], by simp, .refl _⟩
    | starCons hc hab hs _ ih =>
      obtain ⟨rfl, rfl⟩ : _ ∧ _ := Pattern.star.inj hp
      obtain ⟨w, hw, hskips⟩ := ih rfl
      obtain ⟨c, hc, hskip⟩ := takes_char_iff.mp hc
      exact ⟨c :: w, List.forall_mem_cons.mpr ⟨hc, hw⟩, Skips.cons_iff.mpr ⟨_, hskip, hskips⟩⟩
    | _ => exact absurd hp (by simp [many])
  · rintro ⟨w, hw, hskips⟩
    induction w generalizing a with
    | nil =>
      rw [Skips.nil_iff.mp hskips]
      exact .starNil
    | cons c w ih =>
      obtain ⟨hc, hw⟩ := List.forall_mem_cons.mp hw
      obtain ⟨d, hd, hskips⟩ := Skips.cons_iff.mp hskips
      refine .starCons (takes_char_iff.mpr ⟨c, hc, hd⟩) ?_ (ih hw hskips)
      rw [hd.index_eq]
      exact Nat.ne_of_gt (Nat.lt_succ_self _)

theorem takes_many1_char_iff {accepts : Char → Bool} :
    (many1 (.char accepts)).Takes a b ↔
      ∃ w, w ≠ [] ∧ (∀ c ∈ w, accepts c = true) ∧ a.Skips w b := by
  have hmany : many1 (.char accepts) = .seq (.char accepts) (many (.char accepts)) := rfl
  rw [hmany, takes_seq_iff]
  simp only [takes_char_iff, takes_many_char_iff]
  constructor
  · rintro ⟨d, ⟨c, hc, hd⟩, w, hw, hskips⟩
    exact ⟨c :: w, List.cons_ne_nil c w, List.forall_mem_cons.mpr ⟨hc, hw⟩,
      Skips.cons_iff.mpr ⟨d, hd, hskips⟩⟩
  · rintro ⟨w, hne, hw, hskips⟩
    obtain ⟨c, w, rfl⟩ := List.exists_cons_of_ne_nil hne
    obtain ⟨hc, hw⟩ := List.forall_mem_cons.mp hw
    obtain ⟨d, hd, hskips⟩ := Skips.cons_iff.mp hskips
    exact ⟨d, ⟨c, hc, hd⟩, w, hw, hskips⟩

theorem takes_chain_cons_iff {p : Pattern} {ps : List Pattern} :
    (chain (p :: ps)).Takes a b ↔ ∃ c, p.Takes a c ∧ (chain ps).Takes c b := by
  cases ps with
  | nil => simp [chain, takes_empty_iff]
  | cons q ps => exact takes_seq_iff

theorem takes_foldl_seq_iff {ps : List Pattern} {p : Pattern} :
    (ps.foldl .seq p).Takes a b ↔ (chain (p :: ps)).Takes a b := by
  induction ps generalizing p with
  | nil => rfl
  | cons q ps ih =>
    rw [List.foldl_cons, ih]
    simp only [takes_chain_cons_iff, takes_seq_iff]
    constructor
    · rintro ⟨d, ⟨c, hp, hq⟩, hps⟩
      exact ⟨c, hp, d, hq, hps⟩
    · rintro ⟨c, hp, d, hq, hps⟩
      exact ⟨d, ⟨c, hp, hq⟩, hps⟩

/-- A string takes itself. -/
theorem takes_literal_iff {s : String} : (literal s).Takes a b ↔ a.Skips s.toList b := by
  have hchain : ∀ {a b : Attempt} (w : Text),
      (chain (w.map fun c => Pattern.char (· == c))).Takes a b ↔ a.Skips w b := by
    intro a b w
    induction w generalizing a with
    | nil => rw [List.map_nil, chain, takes_empty_iff, Skips.nil_iff]
    | cons c w ih => simp [takes_chain_cons_iff, takes_char_iff, ih, Skips.cons_iff (w := w)]
  rw [← hchain, literal]
  cases s.toList.map fun c => Pattern.char (· == c) with
  | nil => rfl
  | cons p ps => exact takes_foldl_seq_iff

theorem takes_oneOf_iff {p : Pattern} {ps : List Pattern} :
    (oneOf (p :: ps)).Takes a b ↔ ∃ q ∈ p :: ps, q.Takes a b := by
  induction ps generalizing p with
  | nil => simp [oneOf]
  | cons q ps ih =>
    have hcons : oneOf (p :: q :: ps) = .alt p (oneOf (q :: ps)) := rfl
    rw [hcons, takes_alt_iff, ih]
    simp only [List.mem_cons, exists_eq_or_imp]

/-- One of several words takes one of them. -/
theorem takes_words_iff {s : String} {ss : List String} :
    (words (s :: ss)).Takes a b ↔ ∃ t ∈ s :: ss, a.Skips t.toList b := by
  rw [words, List.map_cons, takes_oneOf_iff, ← List.map_cons]
  simp only [List.mem_map, exists_exists_and_eq_and, takes_literal_iff]

end

end Pattern

end Outline

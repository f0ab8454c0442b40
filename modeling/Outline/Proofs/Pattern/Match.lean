import Outline.Pattern.Search

/-!
# What a match is

The matcher of `Pattern.run` tries the ways in which a pattern matches one after the other.  What
a match *is* does not depend on that order, and most facts about matches need nothing else: the
relation `Pattern.Takes` says that a pattern matches from one place to another, and `run_sound`
that the matcher, if it succeeds, has gone such a way and handed its end to what comes after.

A relation between places says nothing yet about the text between them.  `Attempt.Passes` names
that text, and `Pattern.Takes.exists_passes` reads off the pattern what it can begin with:

* `Pattern.isNullable`: whether the pattern may match without taking a character;
* `Pattern.avoids`: whether no match of it begins with a given character;
* `Pattern.isAnchored`: whether it matches only where a line begins.

All three are computed from the pattern, so a table of patterns can be checked by evaluation.

* `Pattern.IsMatch`, `isMatch_of_mem_all`: every match that a search reports is one.
* `exists_char_of_mem_all`: the character that a match begins with.
-/

namespace Outline

namespace Attempt

/-- From place `a` the text `w` leads to place `b`. -/
structure Passes (a : Attempt) (w : Text) (b : Attempt) : Prop where
  rest_eq : a.rest = w ++ b.rest
  index_eq : b.index = a.index + w.length
  before_eq : b.before = w.getLast?.or a.before

namespace Passes

theorem refl (a : Attempt) : a.Passes [] a := ⟨rfl, rfl, rfl⟩

theorem trans {a b c : Attempt} {v w : Text} (hab : a.Passes v b) (hbc : b.Passes w c) :
    a.Passes (v ++ w) c where
  rest_eq := by rw [hab.rest_eq, hbc.rest_eq, List.append_assoc]
  index_eq := by rw [hbc.index_eq, hab.index_eq, List.length_append, Nat.add_assoc]
  before_eq := by
    rw [hbc.before_eq, hab.before_eq, List.getLast?_append, Option.or_assoc]

theorem advance {a : Attempt} {c : Char} {cs : Text} (h : a.rest = c :: cs) :
    a.Passes [c] (a.advance c cs) := ⟨h, rfl, rfl⟩

theorem record {a b : Attempt} {w : Text} (h : a.Passes w b) (n start : Nat) :
    a.Passes w (b.record n start) := ⟨h.rest_eq, h.index_eq, h.before_eq⟩

end Passes

/-- A place of a text: what is left there, how far it is from the front and what stands before it
belong together. -/
def IsIn (a : Attempt) (text : Text) : Prop :=
  ∃ pre, text = pre ++ a.rest ∧ a.index = pre.length ∧ a.before = pre.getLast?

theorem isIn_start (text : Text) : IsIn ⟨none, text, 0, []⟩ text := ⟨[], rfl, rfl, rfl⟩

theorem IsIn.passes {a b : Attempt} {w text : Text} (ha : a.IsIn text) (h : a.Passes w b) :
    b.IsIn text := by
  obtain ⟨pre, htext, hindex, hbefore⟩ := ha
  refine ⟨pre ++ w, ?_, ?_, ?_⟩
  · rw [htext, h.rest_eq, List.append_assoc]
  · rw [h.index_eq, hindex, List.length_append]
  · rw [h.before_eq, hbefore, List.getLast?_append]

theorem IsIn.drop_eq {a : Attempt} {text : Text} (h : a.IsIn text) :
    text.drop a.index = a.rest := by
  obtain ⟨pre, rfl, hindex, -⟩ := h
  rw [hindex, List.drop_left]

/-- What leads from one place to another is what the text has between them. -/
theorem IsIn.cut_eq {a b : Attempt} {w text : Text} (ha : a.IsIn text) (h : a.Passes w b) :
    Found.cut text a.index b.index = w := by
  rw [Found.cut, ha.drop_eq, h.rest_eq, h.index_eq, Nat.add_sub_cancel_left, List.take_left]

end Attempt

/-! ## Repetitions -/

namespace Matcher

/-- Up to `n` rounds in the order of a repetition. -/
def rounds (greedy : Bool) (m : Matcher) (n : Nat) : Matcher :=
  if greedy then m.most n else m.fewest n

theorem rounds_zero (greedy : Bool) (m : Matcher) (k : Attempt → Option Attempt) (a : Attempt) :
    m.rounds greedy 0 k a = k a := by
  cases greedy <;> rfl

theorem rounds_succ (greedy : Bool) (m : Matcher) (n : Nat) (k : Attempt → Option Attempt)
    (a : Attempt) : m.rounds greedy (n + 1) k a =
      if greedy then
        (m (fun b => if b.index = a.index then none else m.rounds greedy n k b) a).orElse
          fun _ => k a
      else (k a).orElse fun _ =>
        m (fun b => if b.index = a.index then none else m.rounds greedy n k b) a := by
  cases greedy <;> rfl

end Matcher

theorem Pattern.run_star (limit : Nat) (greedy : Bool) (p : Pattern) :
    (Pattern.star greedy p).run limit = (p.run limit).rounds greedy limit := by
  cases greedy <;> rfl

/-! ## Ways -/

namespace Pattern

/-- The ways in which a pattern matches, without the order in which they are tried.  A round of a
repetition that takes nothing is not one. -/
inductive Takes : Pattern → Attempt → Attempt → Prop
  | empty {a : Attempt} : Takes .empty a a
  | char {accepts : Char → Bool} {a : Attempt} {c : Char} {cs : Text} (hrest : a.rest = c :: cs)
      (hc : accepts c = true) : Takes (.char accepts) a (a.advance c cs)
  | anchor {condition : Anchor} {a : Attempt} (h : condition.holds a = true) :
      Takes (.anchor condition) a a
  | seq {p q : Pattern} {a b c : Attempt} (hp : Takes p a b) (hq : Takes q b c) :
      Takes (.seq p q) a c
  | altLeft {p q : Pattern} {a b : Attempt} (hp : Takes p a b) : Takes (.alt p q) a b
  | altRight {p q : Pattern} {a b : Attempt} (hq : Takes q a b) : Takes (.alt p q) a b
  | starNil {greedy : Bool} {p : Pattern} {a : Attempt} : Takes (.star greedy p) a a
  | starCons {greedy : Bool} {p : Pattern} {a b c : Attempt} (hp : Takes p a b)
      (hab : b.index ≠ a.index) (hs : Takes (.star greedy p) b c) : Takes (.star greedy p) a c
  | group {n : Nat} {p : Pattern} {a b : Attempt} (hp : Takes p a b) :
      Takes (.group n p) a (b.record n a.index)

/-! ## The matcher goes such a way -/

/-- What `run_sound` says of one matcher. -/
def IsSound (p : Pattern) (m : Matcher) : Prop :=
  ∀ (k : Attempt → Option Attempt) (a e : Attempt), m k a = some e → ∃ b, p.Takes a b ∧ k b = some e

/-- One more round followed by a repetition is a repetition. -/
theorem IsSound.round {p : Pattern} {m : Matcher} (hm : p.IsSound m) {greedy : Bool}
    {next : Matcher} (hnext : (Pattern.star greedy p).IsSound next)
    {k : Attempt → Option Attempt} {a e : Attempt}
    (h : m (fun b => if b.index = a.index then none else next k b) a = some e) :
    ∃ b, (Pattern.star greedy p).Takes a b ∧ k b = some e := by
  obtain ⟨b, hab, hb⟩ := hm _ _ _ h
  by_cases hi : b.index = a.index
  · rw [if_pos hi] at hb
    exact absurd hb (by simp)
  · rw [if_neg hi] at hb
    obtain ⟨c, hbc, hc⟩ := hnext _ _ _ hb
    exact ⟨c, .starCons hab hi hbc, hc⟩

theorem isSound_rounds {p : Pattern} {m : Matcher} (hm : p.IsSound m) (greedy : Bool) (n : Nat) :
    (Pattern.star greedy p).IsSound (m.rounds greedy n) := by
  induction n with
  | zero =>
    intro k a e h
    rw [Matcher.rounds_zero] at h
    exact ⟨a, .starNil, h⟩
  | succ n ih =>
    intro k a e h
    rw [Matcher.rounds_succ, Option.orElse_eq_or, Option.orElse_eq_or] at h
    split at h
    · rcases Option.or_eq_some_iff.mp h with h | ⟨-, h⟩
      · exact hm.round ih h
      · exact ⟨a, .starNil, h⟩
    · rcases Option.or_eq_some_iff.mp h with h | ⟨-, h⟩
      · exact ⟨a, .starNil, h⟩
      · exact hm.round ih h

/-- If the matcher succeeds, it has gone a way of the pattern, and what comes after has succeeded
from there. -/
theorem run_sound (limit : Nat) (p : Pattern) : p.IsSound (p.run limit) := by
  induction p with
  | empty =>
    intro k a e h
    exact ⟨a, .empty, h⟩
  | char accepts =>
    intro k a e h
    rw [run] at h
    cases hr : a.rest with
    | nil => rw [hr] at h; exact absurd h (by simp)
    | cons c cs =>
      rw [hr] at h
      simp only [Option.ite_none_right_eq_some] at h
      exact ⟨a.advance c cs, .char hr h.1, h.2⟩
  | anchor condition =>
    intro k a e h
    rw [run, Option.ite_none_right_eq_some] at h
    exact ⟨a, .anchor h.1, h.2⟩
  | seq p q ihp ihq =>
    intro k a e h
    obtain ⟨b, hab, hb⟩ := ihp _ _ _ h
    obtain ⟨c, hbc, hc⟩ := ihq _ _ _ hb
    exact ⟨c, .seq hab hbc, hc⟩
  | alt p q ihp ihq =>
    intro k a e h
    rw [run, Option.orElse_eq_or, Option.or_eq_some_iff] at h
    rcases h with h | ⟨-, h⟩
    · obtain ⟨b, hab, hb⟩ := ihp _ _ _ h
      exact ⟨b, .altLeft hab, hb⟩
    · obtain ⟨b, hab, hb⟩ := ihq _ _ _ h
      exact ⟨b, .altRight hab, hb⟩
  | star greedy p ih =>
    rw [run_star]
    exact isSound_rounds ih greedy limit
  | group n p ih =>
    intro k a e h
    obtain ⟨b, hab, hb⟩ := ih _ _ _ h
    exact ⟨b.record n a.index, .group hab, hb⟩

/-! ## What a match begins with -/

/-- Whether a pattern may match without taking a character. -/
def isNullable : Pattern → Bool
  | .empty | .anchor _ | .star _ _ => true
  | .char _ => false
  | .seq p q => p.isNullable && q.isNullable
  | .alt p q => p.isNullable || q.isNullable
  | .group _ p => p.isNullable

/-- Whether no match of a pattern begins with the given character. -/
def avoids (bad : Char) : Pattern → Bool
  | .empty | .anchor _ => true
  | .char accepts => !accepts bad
  | .seq p q => p.avoids bad && (!p.isNullable || q.avoids bad)
  | .alt p q => p.avoids bad && q.avoids bad
  | .star _ p | .group _ p => p.avoids bad

/-- What the two tests promise about the text that a match takes. -/
structure Opens (p : Pattern) (w : Text) : Prop where
  ne_nil : p.isNullable = false → w ≠ []
  head?_ne : ∀ bad, p.avoids bad = true → w.head? ≠ some bad

theorem Opens.nil {p : Pattern} (h : p.isNullable = true) : p.Opens [] where
  ne_nil hn := absurd h (by rw [hn]; decide)
  head?_ne _ _ := by simp

theorem Opens.append {p q : Pattern} {v w : Text} (hv : p.Opens v) (hw : q.Opens w) :
    (Pattern.seq p q).Opens (v ++ w) where
  ne_nil hn := by
    rw [isNullable, Bool.and_eq_false_iff] at hn
    rw [Ne, List.append_eq_nil_iff, Classical.not_and_iff_not_or_not]
    exact hn.imp hv.ne_nil hw.ne_nil
  head?_ne bad hb := by
    rw [avoids, Bool.and_eq_true, Bool.or_eq_true, Bool.not_eq_true'] at hb
    cases v with
    | nil =>
      have hp : p.isNullable ≠ false := fun hp => hv.ne_nil hp rfl
      exact hw.head?_ne bad (hb.2.resolve_left hp)
    | cons c cs => exact hv.head?_ne bad hb.1

/-- A match takes a piece of the text, which begins as the pattern says. -/
theorem Takes.exists_passes {p : Pattern} {a b : Attempt} (h : p.Takes a b) :
    ∃ w, a.Passes w b ∧ p.Opens w := by
  induction h with
  | empty => exact ⟨[], .refl _, .nil rfl⟩
  | @char accepts a c cs hrest hc =>
    refine ⟨[c], .advance hrest, fun _ => List.cons_ne_nil c [], fun bad hb hbad => ?_⟩
    rw [List.head?_cons, Option.some_inj] at hbad
    rw [avoids, ← hbad, hc] at hb
    exact absurd hb (by decide)
  | anchor h => exact ⟨[], .refl _, .nil rfl⟩
  | seq hp hq ihp ihq =>
    obtain ⟨v, hv, hpv⟩ := ihp
    obtain ⟨w, hw, hqw⟩ := ihq
    exact ⟨v ++ w, hv.trans hw, hpv.append hqw⟩
  | altLeft hp ih =>
    obtain ⟨w, hw, hpw⟩ := ih
    refine ⟨w, hw, fun hn => ?_, fun bad hb => ?_⟩
    · rw [isNullable, Bool.or_eq_false_iff] at hn
      exact hpw.ne_nil hn.1
    · rw [avoids, Bool.and_eq_true] at hb
      exact hpw.head?_ne bad hb.1
  | altRight hq ih =>
    obtain ⟨w, hw, hqw⟩ := ih
    refine ⟨w, hw, fun hn => ?_, fun bad hb => ?_⟩
    · rw [isNullable, Bool.or_eq_false_iff] at hn
      exact hqw.ne_nil hn.2
    · rw [avoids, Bool.and_eq_true] at hb
      exact hqw.head?_ne bad hb.2
  | starNil => exact ⟨[], .refl _, .nil rfl⟩
  | @starCons greedy p a b c hp hab hs ihp ihs =>
    obtain ⟨v, hv, hpv⟩ := ihp
    obtain ⟨w, hw, hsw⟩ := ihs
    refine ⟨v ++ w, hv.trans hw, fun hn => absurd hn (by simp [isNullable]), fun bad hb => ?_⟩
    have hp : p.avoids bad = true := hb
    exact (hpv.append hsw).head?_ne bad (by simp only [avoids, hp, Bool.or_true, Bool.and_true])
  | group hp ih =>
    obtain ⟨w, hw, hpw⟩ := ih
    exact ⟨w, hw.record _ _, hpw.ne_nil, hpw.head?_ne⟩

/-- Whether a pattern matches only where a line begins. -/
def isAnchored : Pattern → Bool
  | .anchor .lineStart => true
  | .seq p _ => p.isAnchored
  | _ => false

theorem Takes.lineStart_holds {p : Pattern} {a b : Attempt} (h : p.Takes a b)
    (hp : p.isAnchored = true) : Anchor.lineStart.holds a = true := by
  induction h with
  | @anchor condition a hholds =>
    cases condition with
    | lineStart => exact hholds
    | _ => exact absurd hp (by simp [isAnchored])
  | seq _ _ ihp _ => exact ihp hp
  | _ => exact absurd hp (by simp [isAnchored])

/-! ## Searching -/

/-- A match of a pattern in a text. -/
def IsMatch (p : Pattern) (text : Text) (f : Found) : Prop :=
  ∃ a b, a.IsIn text ∧ a.groups = [] ∧ p.Takes a b ∧ f = ⟨a.index, b.index, b.groups⟩

theorem firstFrom_takes {p : Pattern} {limit : Nat} {text : Text} :
    ∀ {rest : Text} {before : Option Char} {index start : Nat} {e : Attempt},
      Attempt.IsIn ⟨before, rest, index, []⟩ text →
      p.firstFrom limit before rest index = some (start, e) →
      ∃ a, a.IsIn text ∧ a.groups = [] ∧ p.Takes a e ∧ a.index = start
  | [], before, index, start, e, hin, h => by
    rw [firstFrom, Option.map_eq_some_iff] at h
    obtain ⟨e', he', heq⟩ := h
    obtain ⟨hstart, he⟩ := Prod.mk.inj heq
    obtain ⟨b, hab, hb⟩ := run_sound limit p _ _ _ he'
    rw [← he, ← Option.some.inj hb]
    exact ⟨_, hin, rfl, hab, hstart⟩
  | c :: cs, before, index, start, e, hin, h => by
    rw [firstFrom] at h
    cases hrun : p.run limit some ⟨before, c :: cs, index, []⟩ with
    | some e' =>
      rw [hrun] at h
      obtain ⟨hstart, he⟩ := Prod.mk.inj (Option.some.inj h)
      obtain ⟨b, hab, hb⟩ := run_sound limit p _ _ _ hrun
      rw [← he, ← Option.some.inj hb]
      exact ⟨_, hin, rfl, hab, hstart⟩
    | none =>
      rw [hrun] at h
      exact firstFrom_takes (hin.passes (.advance rfl)) h

theorem isMatch_of_mem_allFrom {p : Pattern} {limit : Nat} {text : Text} {f : Found} :
    ∀ {fuel : Nat} {before : Option Char} {rest : Text} {index : Nat} {last : Option Nat},
      Attempt.IsIn ⟨before, rest, index, []⟩ text →
      f ∈ p.allFrom limit fuel before rest index last → p.IsMatch text f
  | 0, _, _, _, _, _, h => absurd h (by simp [allFrom])
  | fuel + 1, before, rest, index, last, hin, h => by
    unfold allFrom at h
    cases hfirst : p.firstFrom limit before rest index with
    | none => rw [hfirst] at h; exact absurd h (by simp)
    | some found =>
      obtain ⟨start, e⟩ := found
      rw [hfirst] at h
      obtain ⟨a, ha, hgroups, hae, hstart⟩ := firstFrom_takes hin hfirst
      simp only at h
      split at h
      · -- an empty match where the last one ended: the search goes on one character further
        cases rest with
        | nil => exact absurd h (by simp)
        | cons c cs => exact isMatch_of_mem_allFrom (hin.passes (.advance rfl)) h
      · rcases List.mem_cons.mp h with rfl | h
        · exact ⟨a, e, ha, hgroups, hae, by rw [hstart]⟩
        · obtain ⟨w, hw, -⟩ := hae.exists_passes
          exact isMatch_of_mem_allFrom (ha.passes ⟨hw.rest_eq, hw.index_eq, hw.before_eq⟩) h

/-- Every match that a search reports is one. -/
theorem isMatch_of_mem_all {p : Pattern} {text : Text} {f : Found} (h : f ∈ p.all text) :
    p.IsMatch text f :=
  isMatch_of_mem_allFrom (Attempt.isIn_start text) h

theorem isMatch_of_first? {p : Pattern} {text : Text} {f : Found} (h : p.first? text = some f) :
    p.IsMatch text f := by
  rw [first?, Option.map_eq_some_iff] at h
  obtain ⟨⟨start, e⟩, hfirst, rfl⟩ := h
  obtain ⟨a, ha, hgroups, hae, hstart⟩ := firstFrom_takes (Attempt.isIn_start text) hfirst
  exact ⟨a, e, ha, hgroups, hae, by rw [hstart]⟩

/-- A match of a pattern that takes something leaves less of the text. -/
theorem lt_of_firstFrom {p : Pattern} (hp : p.isNullable = false) {limit : Nat} :
    ∀ {rest : Text} {before : Option Char} {index start : Nat} {e : Attempt},
      p.firstFrom limit before rest index = some (start, e) →
        e.rest.length < rest.length ∧ start < e.index := by
  have hrun : ∀ {a e : Attempt}, p.run limit some a = some e →
      e.rest.length < a.rest.length ∧ a.index < e.index := by
    intro a e he
    obtain ⟨b, hab, hb⟩ := run_sound limit p _ _ _ he
    obtain rfl := Option.some.inj hb
    obtain ⟨w, hw, hopens⟩ := hab.exists_passes
    have hlen : 0 < w.length := List.length_pos_iff.mpr (hopens.ne_nil hp)
    rw [hw.rest_eq, hw.index_eq, List.length_append]
    omega
  intro rest
  induction rest with
  | nil =>
    intro before index start e h
    rw [firstFrom, Option.map_eq_some_iff] at h
    obtain ⟨e', he', heq⟩ := h
    obtain ⟨rfl, rfl⟩ := Prod.mk.inj heq
    exact hrun he'
  | cons c cs ih =>
    intro before index start e h
    rw [firstFrom] at h
    split at h
    · rename_i e' he'
      obtain ⟨rfl, rfl⟩ := Prod.mk.inj (Option.some.inj h)
      exact hrun he'
    · obtain ⟨hlen, hindex⟩ := ih h
      exact ⟨Nat.lt_succ_of_lt hlen, hindex⟩

/-- A match that does not end where the last one ended is followed by those behind its end. -/
theorem allFrom_of_firstFrom {p : Pattern} (hp : p.isNullable = false) {limit : Nat}
    {before : Option Char} {rest : Text} {index start : Nat} {e : Attempt}
    (h : p.firstFrom limit before rest index = some (start, e)) (n : Nat) (last : Option Nat) :
    p.allFrom limit (n + 1) before rest index last = ⟨start, e.index, e.groups⟩ ::
      p.allFrom limit n e.before e.rest e.index (some e.index) := by
  have hlt := (lt_of_firstFrom hp h).2
  rw [allFrom.eq_def]
  simp only [h]
  rw [if_neg fun hsame => Nat.ne_of_gt hlt hsame.1]

/-- A match of a pattern that takes something begins at a character, which is none of those that
the pattern avoids. -/
theorem exists_char_of_mem_all {p : Pattern} {text : Text} {f : Found} (h : f ∈ p.all text)
    (hp : p.isNullable = false) :
    ∃ pre c post, text = pre ++ c :: post ∧ f.start = pre.length ∧
      ∀ bad, p.avoids bad = true → c ≠ bad := by
  obtain ⟨a, b, ⟨pre, htext, hindex, -⟩, -, hab, rfl⟩ := isMatch_of_mem_all h
  obtain ⟨w, hw, hopens⟩ := hab.exists_passes
  obtain ⟨c, cs, rfl⟩ := List.exists_cons_of_ne_nil (hopens.ne_nil hp)
  refine ⟨pre, c, cs ++ b.rest, ?_, hindex, fun bad hbad hc => ?_⟩
  · rw [htext, hw.rest_eq, List.cons_append]
  · exact hopens.head?_ne bad hbad (by rw [List.head?_cons, hc])

end Pattern

end Outline

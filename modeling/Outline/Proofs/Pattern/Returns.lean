import Mathlib.Data.List.Forall2
import Mathlib.Data.Option.Basic
import Outline.Proofs.Pattern.Match
import Outline.Proofs.Text.Returns

/-!
# Matches among line ends of two characters

How does a search go in a text whose line feeds have been given carriage returns?  Place by place as
before: at characters that end no line both runs take the same, so the two places they reach mirror
each other (`Attempt.Mirrors`).  At a line end they part.  Where the one text goes on with a line
feed the other one goes on with a carriage return, and a class of characters may treat the two
differently.

* A class that takes the line feed only stops in the other text.  So the search goes there as that
  of a pattern whose classes do not take it (`Pattern.withoutLoneFeeds`).
* A class that takes the carriage return only goes on by mistake.  Then the place it has reached
  lies before a line feed, and what comes next must not be able to go on from there.
* A class that takes both goes on in both texts.  If nothing comes after, the one has passed the
  line feed and the other one the carriage return (`Attempt.Straddles`).  If it is repeated, the
  next round makes up for it, as long as nothing else can go on in between.

`Pattern.tolerates` works through a pattern and asks for this.  Its two flags say what is known
about what comes after: that it cannot go on before a line feed, and that nothing comes after at
all.

One more thing is changed: the end of a line is no longer seen, because a carriage return stands
before it.  Only the end of the text is (`Pattern.withoutLineEnds`).  Conditions for which a
carriage return ends a line, too, are not troubled, if the text had none before.

* `run_mirrors`: one run of the matcher.
* `all_mirrors`: all successive matches.
-/

namespace Outline

/-! ## Places -/

/-- The places of a group in the text with carriage returns. -/
def mirroredGroup (t : Text) (g : Nat × Nat × Nat) : Nat × Nat × Nat :=
  (g.1, t.mirrored g.2.1, t.mirrored g.2.2)

/-- What lies between two places, with carriage returns. -/
theorem cut_mirrored (t : Text) (start stop : Nat) :
    Found.cut t.withReturns (t.mirrored start) (t.mirrored stop) =
      Text.withReturns (Found.cut t start stop) := by
  rw [Found.cut, Found.cut, Text.drop_mirrored]
  rcases Nat.le_total start stop with h | h
  · obtain ⟨n, rfl⟩ := Nat.le.dest h
    rw [Text.mirrored_add, Nat.add_sub_cancel_left, Nat.add_sub_cancel_left, Text.take_mirrored]
  · obtain ⟨n, rfl⟩ := Nat.le.dest h
    have hle : t.mirrored stop - t.mirrored (stop + n) = 0 := by
      rw [Text.mirrored_add]
      omega
    rw [hle, Nat.sub_eq_zero_of_le h]
    rfl

namespace Attempt

/-- The same place in a text and in the text with carriage returns. -/
structure Mirrors (t : Text) (a a' : Attempt) : Prop where
  isIn : a.IsIn t
  rest_eq : a'.rest = a.rest.withReturns
  index_eq : a'.index = t.mirrored a.index
  before_eq : a'.before = a.before
  groups_eq : a'.groups = a.groups.map (mirroredGroup t)

/-- The one text has passed a line feed, the other one only the carriage return before it. -/
structure Straddles (t : Text) (a a' : Attempt) : Prop where
  rest_eq : a'.rest = '\n' :: a.rest.withReturns
  before_eq : a'.before = some '\r'
  mirrors : Mirrors t a (a'.advance '\n' a.rest.withReturns)

/-- The places where two runs may end. -/
def EndsAlike (t : Text) (a a' : Attempt) : Prop := Mirrors t a a' ∨ Straddles t a a'

/-- From places that mirror each other a piece of the text, with carriage returns in the one that
has them, leads to places that do. -/
structure Reaches (t : Text) (a a' b b' : Attempt) (w : Text) : Prop where
  passes : a.Passes w b
  passes' : a'.Passes w.withReturns b'
  mirrors : Mirrors t b b'

variable {t : Text} {a a' b b' : Attempt}

theorem Mirrors.reaches (h : Mirrors t a a') : Reaches t a a' a a' [] :=
  ⟨.refl a, .refl a', h⟩

theorem Reaches.trans {c c' : Attempt} {v w : Text} (h : Reaches t a a' b b' v)
    (h' : Reaches t b b' c c' w) : Reaches t a a' c c' (v ++ w) where
  passes := h.passes.trans h'.passes
  passes' := by
    rw [Text.withReturns_append]
    exact h.passes'.trans h'.passes'
  mirrors := h'.mirrors

/-- A piece that is not empty leaves less of both texts. -/
theorem Reaches.length_lt {w : Text} (h : Reaches t a a' b b' w) (hw : w ≠ []) :
    b.rest.length < a.rest.length ∧ b'.rest.length < a'.rest.length := by
  have hpos : 0 < w.length := List.length_pos_iff.mpr hw
  have hle : w.length ≤ w.withReturns.length := Text.length_le_withReturns w
  rw [h.passes.rest_eq, h.passes'.rest_eq, List.length_append, List.length_append]
  omega

theorem Mirrors.length_le (h : Mirrors t a a') :
    a.rest.length ≤ t.length ∧ a'.rest.length ≤ t.withReturns.length := by
  obtain ⟨pre, rfl, -, -⟩ := h.isIn
  rw [h.rest_eq, Text.withReturns_append, List.length_append, List.length_append]
  exact ⟨Nat.le_add_left _ _, Nat.le_add_left _ _⟩

/-- A text without carriage returns has none before a place. -/
theorem IsIn.before_ne_return (h : a.IsIn t) (ht : '\r' ∉ t) : a.before ≠ some '\r' := by
  obtain ⟨pre, rfl, -, hbefore⟩ := h
  intro hr
  rw [hbefore] at hr
  exact ht (List.mem_append_left _ (List.mem_of_getLast? hr))

/-- Places that are reached by the same piece of the text. -/
theorem Mirrors.reaches_of_passes (h : Mirrors t a a') {w : Text} (hb : a.Passes w b)
    (hb' : a'.Passes w.withReturns b') (hgroups : b'.groups = b.groups.map (mirroredGroup t)) :
    Reaches t a a' b b' w := by
  refine ⟨hb, hb', h.isIn.passes hb, ?_, ?_, ?_, hgroups⟩
  · have hrest := h.rest_eq
    rw [hb'.rest_eq, hb.rest_eq, Text.withReturns_append] at hrest
    exact List.append_cancel_left hrest
  · have hmoved : Text.mirrored a.rest w.length = w.withReturns.length := by
      rw [hb.rest_eq, Text.mirrored_append]
    rw [hb'.index_eq, hb.index_eq, h.index_eq, Text.mirrored_add, h.isIn.drop_eq, hmoved]
  · rw [hb'.before_eq, hb.before_eq, h.before_eq, Text.getLast?_withReturns]

theorem Mirrors.advance (h : Mirrors t a a') {c : Char} {cs : Text} (hrest : a.rest = c :: cs)
    (hc : c ≠ '\n') :
    Reaches t a a' (a.advance c cs) (a'.advance c cs.withReturns) [c] := by
  have hrest' : a'.rest = c :: cs.withReturns := by
    rw [h.rest_eq, hrest, Text.withReturns_cons hc]
  refine h.reaches_of_passes (.advance hrest) ?_ h.groups_eq
  rw [Text.withReturns_cons hc]
  exact .advance hrest'

/-- Over a line end there is one step in the one text and two in the other one. -/
theorem Mirrors.advance_lineEnd (h : Mirrors t a a') {cs : Text} (hrest : a.rest = '\n' :: cs) :
    Reaches t a a' (a.advance '\n' cs)
      ((a'.advance '\r' ('\n' :: cs.withReturns)).advance '\n' cs.withReturns) ['\n'] := by
  have hrest' : a'.rest = '\r' :: '\n' :: cs.withReturns := by
    rw [h.rest_eq, hrest, Text.withReturns_newline]
  exact h.reaches_of_passes (.advance hrest) ((Passes.advance hrest').trans (.advance rfl))
    h.groups_eq

/-- At a line end, the one text may take the line feed and the other one the carriage return. -/
theorem Mirrors.straddles (h : Mirrors t a a') {cs : Text} (hrest : a.rest = '\n' :: cs) :
    Straddles t (a.advance '\n' cs) (a'.advance '\r' ('\n' :: cs.withReturns)) :=
  ⟨rfl, rfl, (h.advance_lineEnd hrest).mirrors⟩

/-- A group that was captured on the way lies between places that mirror each other. -/
theorem Reaches.record {w : Text} (ha : Mirrors t a a') (h : Reaches t a a' b b' w) (n : Nat) :
    Reaches t a a' (b.record n a.index) (b'.record n a'.index) w := by
  refine ha.reaches_of_passes (h.passes.record _ _) (h.passes'.record _ _) ?_
  rw [Attempt.record, Attempt.record, List.map_cons, mirroredGroup, h.mirrors.groups_eq,
    h.mirrors.index_eq, ha.index_eq]

end Attempt

/-! ## Patterns -/

/-- The condition that sees the end of the text where the given one sees the end of a line. -/
def Anchor.withoutLineEnd : Anchor → Anchor
  | .lineEnd => .textEnd
  | condition => condition

namespace Pattern

open Attempt

/-- The pattern that sees the end of the text where the given one sees the end of a line. -/
def withoutLineEnds : Pattern → Pattern
  | .empty => .empty
  | .char accepts => .char accepts
  | .anchor condition => .anchor condition.withoutLineEnd
  | .seq p q => .seq p.withoutLineEnds q.withoutLineEnds
  | .alt p q => .alt p.withoutLineEnds q.withoutLineEnds
  | .star greedy p => .star greedy p.withoutLineEnds
  | .group n p => .group n p.withoutLineEnds

/-- The pattern whose classes take a line feed only where they take a carriage return. -/
def withoutLoneFeeds : Pattern → Pattern
  | .empty => .empty
  | .char accepts => .char fun c => accepts c && (c != '\n' || accepts '\r')
  | .anchor condition => .anchor condition
  | .seq p q => .seq p.withoutLoneFeeds q.withoutLoneFeeds
  | .alt p q => .alt p.withoutLoneFeeds q.withoutLoneFeeds
  | .star greedy p => .star greedy p.withoutLoneFeeds
  | .group n p => .group n p.withoutLoneFeeds

/-- Whether a pattern asks for the end of a line. -/
def seesLineEnd : Pattern → Bool
  | .empty | .char _ => false
  | .anchor condition => condition == .lineEnd
  | .seq p q | .alt p q => p.seesLineEnd || q.seesLineEnd
  | .star _ p | .group _ p => p.seesLineEnd

/-- Whether a class of a pattern takes a line feed, but no carriage return. -/
def takesLoneFeed : Pattern → Bool
  | .empty | .anchor _ => false
  | .char accepts => accepts '\n' && !accepts '\r'
  | .seq p q | .alt p q => p.takesLoneFeed || q.takesLoneFeed
  | .star _ p | .group _ p => p.takesLoneFeed

theorem withoutLineEnds_eq_self {p : Pattern} (h : p.seesLineEnd = false) :
    p.withoutLineEnds = p := by
  induction p with
  | empty => rfl
  | char accepts => rfl
  | anchor condition =>
    cases condition with
    | lineEnd => exact absurd h (by decide)
    | _ => rfl
  | seq p q ihp ihq =>
    rw [seesLineEnd, Bool.or_eq_false_iff] at h
    rw [withoutLineEnds, ihp h.1, ihq h.2]
  | alt p q ihp ihq =>
    rw [seesLineEnd, Bool.or_eq_false_iff] at h
    rw [withoutLineEnds, ihp h.1, ihq h.2]
  | star greedy p ih => rw [withoutLineEnds, ih h]
  | group n p ih => rw [withoutLineEnds, ih h]

theorem withoutLoneFeeds_eq_self {p : Pattern} (h : p.takesLoneFeed = false) :
    p.withoutLoneFeeds = p := by
  induction p with
  | char accepts =>
    rw [withoutLoneFeeds]
    congr 1
    funext c
    by_cases hc : c = '\n'
    · subst hc
      rw [takesLoneFeed, Bool.and_eq_false_iff, Bool.not_eq_false'] at h
      rcases h with h | h <;> simp [h]
    · simp [hc]
  | empty => rfl
  | anchor condition => rfl
  | seq p q ihp ihq =>
    rw [takesLoneFeed, Bool.or_eq_false_iff] at h
    rw [withoutLoneFeeds, ihp h.1, ihq h.2]
  | alt p q ihp ihq =>
    rw [takesLoneFeed, Bool.or_eq_false_iff] at h
    rw [withoutLoneFeeds, ihp h.1, ihq h.2]
  | star greedy p ih => rw [withoutLoneFeeds, ih h]
  | group n p ih => rw [withoutLoneFeeds, ih h]

/-- The pattern that reads a text as the given one reads the text with carriage returns. -/
def mirrored (p : Pattern) : Pattern := p.withoutLoneFeeds.withoutLineEnds

theorem mirrored_eq_withoutLineEnds {p : Pattern} (h : p.takesLoneFeed = false) :
    p.mirrored = p.withoutLineEnds := by
  rw [mirrored, withoutLoneFeeds_eq_self h]

theorem seesLineEnd_withoutLoneFeeds (p : Pattern) :
    p.withoutLoneFeeds.seesLineEnd = p.seesLineEnd := by
  induction p with
  | seq p q ihp ihq => rw [withoutLoneFeeds, seesLineEnd, seesLineEnd, ihp, ihq]
  | alt p q ihp ihq => rw [withoutLoneFeeds, seesLineEnd, seesLineEnd, ihp, ihq]
  | star greedy p ih => rw [withoutLoneFeeds, seesLineEnd, seesLineEnd, ih]
  | group n p ih => rw [withoutLoneFeeds, seesLineEnd, seesLineEnd, ih]
  | _ => rfl

theorem mirrored_eq_withoutLoneFeeds {p : Pattern} (h : p.seesLineEnd = false) :
    p.mirrored = p.withoutLoneFeeds :=
  withoutLineEnds_eq_self (by rw [seesLineEnd_withoutLoneFeeds, h])

theorem mirrored_char (accepts : Char → Bool) : (Pattern.char accepts).mirrored =
    .char fun c => accepts c && (c != '\n' || accepts '\r') := rfl

theorem mirrored_anchor (condition : Anchor) :
    (Pattern.anchor condition).mirrored = .anchor condition.withoutLineEnd := rfl

theorem mirrored_seq (p q : Pattern) :
    (Pattern.seq p q).mirrored = .seq p.mirrored q.mirrored := rfl

theorem mirrored_alt (p q : Pattern) :
    (Pattern.alt p q).mirrored = .alt p.mirrored q.mirrored := rfl

theorem mirrored_star (greedy : Bool) (p : Pattern) :
    (Pattern.star greedy p).mirrored = .star greedy p.mirrored := rfl

theorem mirrored_group (n : Nat) (p : Pattern) :
    (Pattern.group n p).mirrored = .group n p.mirrored := rfl

theorem isNullable_mirrored (p : Pattern) : p.mirrored.isNullable = p.isNullable := by
  induction p with
  | seq p q ihp ihq => rw [mirrored_seq, isNullable, isNullable, ihp, ihq]
  | alt p q ihp ihq => rw [mirrored_alt, isNullable, isNullable, ihp, ihq]
  | group n p ih => rw [mirrored_group, isNullable, isNullable, ih]
  | _ => rfl

/-- Whether a pattern is a class that takes both characters of a line end. -/
def takesLineEnd : Pattern → Bool
  | .char accepts => accepts '\n' && accepts '\r'
  | _ => false

/-- Whether carriage returns before line feeds change no match of a pattern but as `mirrored` says.
The first flag says that what comes after it cannot go on before a line feed, the second one that
nothing comes after. -/
def tolerates : (blocked last : Bool) → Pattern → Bool
  | _, _, .empty | _, _, .anchor _ => true
  | blocked, last, .char accepts => !accepts '\r' || if accepts '\n' then last else blocked
  | blocked, last, .seq p q =>
    p.tolerates (q.avoids '\n' && (blocked || !q.isNullable)) false && q.tolerates blocked last
  | blocked, last, .alt p q => p.tolerates blocked last && q.tolerates blocked last
  | blocked, _, .star _ p =>
    blocked && p.takesLineEnd || p.tolerates (blocked && p.avoids '\n') false
  | blocked, _, .group _ p => p.tolerates blocked false

/-- What comes after cannot go on before a line feed. -/
def IsBlocked (k : Attempt → Option Attempt) : Prop :=
  ∀ a, a.rest.head? = some '\n' → k a = none

/-- Before a line feed, a pattern that does not begin with one takes nothing. -/
theorem Takes.passes_nil {p : Pattern} {a b : Attempt} (h : p.Takes a b)
    (hp : p.avoids '\n' = true) (ha : a.rest.head? = some '\n') :
    a.Passes [] b ∧ p.isNullable = true := by
  obtain ⟨w, hw, hopens⟩ := h.exists_passes
  cases w with
  | nil => exact ⟨hw, eq_true_of_ne_false fun hn => hopens.ne_nil hn rfl⟩
  | cons c cs =>
    rw [hw.rest_eq] at ha
    exact absurd ha (hopens.head?_ne '\n' hp)

/-- A pattern that does not begin with a line feed cannot go on before one, if what comes after
it cannot, or if it takes a character. -/
theorem isBlocked_run {p : Pattern} {m : Matcher} (hm : p.IsSound m) (hp : p.avoids '\n' = true)
    {k : Attempt → Option Attempt} (hk : IsBlocked k ∨ p.isNullable = false) :
    IsBlocked (m k) := by
  intro a ha
  rw [Option.eq_none_iff_forall_ne_some]
  intro e he
  obtain ⟨b, hab, hb⟩ := hm k a e he
  obtain ⟨hpasses, hnullable⟩ := hab.passes_nil hp ha
  rcases hk with hk | hk
  · rw [hpasses.rest_eq, List.nil_append] at ha
    rw [hk b ha] at hb
    exact absurd hb (by simp)
  · rw [hk] at hnullable
    exact absurd hnullable (by decide)

/-- A round of a repetition, which has to take something, cannot begin where its body takes
nothing. -/
theorem round_eq_none {p : Pattern} {m : Matcher} (hm : p.IsSound m)
    {next : Attempt → Option Attempt} {a : Attempt}
    (h : ∀ b, p.Takes a b → a.Passes [] b) :
    m (fun b => if b.index = a.index then none else next b) a = none := by
  rw [Option.eq_none_iff_forall_ne_some]
  intro e he
  obtain ⟨b, hab, hb⟩ := hm _ a e he
  have hindex : b.index = a.index := (h b hab).index_eq
  rw [if_pos hindex] at hb
  exact absurd hb (by simp)

/-- Where the body of a repetition takes nothing, there is no round. -/
theorem rounds_eq {p : Pattern} {m : Matcher} (hm : p.IsSound m) {a : Attempt}
    (h : ∀ b, p.Takes a b → a.Passes [] b) (greedy : Bool) (k : Attempt → Option Attempt)
    (n : Nat) : m.rounds greedy n k a = k a := by
  cases n with
  | zero => rw [Matcher.rounds_zero]
  | succ n =>
    rw [Matcher.rounds_succ, round_eq_none hm h]
    cases greedy with
    | true => rfl
    | false => cases k a <;> rfl

/-- At the end of the text every pattern takes nothing. -/
theorem Takes.passes_nil_of_end {p : Pattern} {a b : Attempt} (h : p.Takes a b)
    (ha : a.rest = []) : a.Passes [] b := by
  obtain ⟨w, hw, -⟩ := h.exists_passes
  have hrest := hw.rest_eq
  rw [ha, eq_comm, List.append_eq_nil_iff] at hrest
  rwa [hrest.1] at hw

/-! ## One run -/

variable {t : Text}

theorem rel_orElse {α β : Type} {r : α → β → Prop} {x y : Option α} {x' y' : Option β}
    (hx : Option.Rel r x x') (hy : Option.Rel r y y') :
    Option.Rel r (x.orElse fun _ => y) (x'.orElse fun _ => y') := by
  cases hx with
  | some h => exact .some h
  | none => exact hy

/-- A condition holds in both texts or in neither. -/
theorem holds_withoutLineEnd {condition : Anchor} {a a' : Attempt} (ht : '\r' ∉ t)
    (h : Mirrors t a a') : condition.withoutLineEnd.holds a = condition.holds a' := by
  have hbefore : a.before ≠ some '\r' := h.isIn.before_ne_return ht
  have hhead : a'.rest.head?.any isWord = a.rest.head?.any isWord ∧
      a'.rest.isEmpty = a.rest.isEmpty ∧ a'.rest.head? ≠ some '\n' ∧
      ((a'.rest.head? == some '\r') = (a.rest.head? == some '\n')) ∧
      a.rest.head? ≠ some '\r' := by
    have hrest : '\r' ∉ a.rest := by
      obtain ⟨pre, rfl, -, -⟩ := h.isIn
      exact fun hr => ht (List.mem_append_right _ hr)
    rw [h.rest_eq]
    cases hcs : a.rest with
    | nil => exact ⟨rfl, rfl, by simp, rfl, by simp⟩
    | cons c cs =>
      have hreturn : c ≠ '\r' := fun hc => hrest (by rw [hcs, hc]; exact List.mem_cons_self)
      by_cases hc : c = '\n'
      · subst hc
        have hword : isWord '\r' = isWord '\n' := by decide
        exact ⟨hword, rfl, by simp, by simp, by simp⟩
      · rw [Text.withReturns_cons hc]
        exact ⟨rfl, rfl, by simpa using hc, by simp [hc, hreturn], by simpa using hreturn⟩
  obtain ⟨hword, hempty, hnewline, hend, hreturn⟩ := hhead
  cases condition with
  | textStart => simp only [Anchor.withoutLineEnd, Anchor.holds, h.before_eq]
  | textEnd => simp only [Anchor.withoutLineEnd, Anchor.holds, hempty]
  | lineStart => simp only [Anchor.withoutLineEnd, Anchor.holds, h.before_eq]
  | lineEnd =>
    rw [Anchor.withoutLineEnd, Anchor.holds, Anchor.holds, hempty,
      beq_eq_false_iff_ne.mpr hnewline, Bool.or_false]
  | rowStart =>
    simp only [Anchor.withoutLineEnd, Anchor.holds, h.before_eq,
      beq_eq_false_iff_ne.mpr hbefore, Bool.false_and]
  | rowEnd =>
    simp only [Anchor.withoutLineEnd, Anchor.holds, hempty, hend,
      beq_eq_false_iff_ne.mpr hnewline, beq_eq_false_iff_ne.mpr hreturn, bne_iff_ne.mpr hbefore,
      Bool.false_and, Bool.or_false, Bool.and_true]
  | boundary => simp only [Anchor.withoutLineEnd, Anchor.holds, hword, h.before_eq]

/-- What `run_mirrors` says of a pattern: with both texts running alike afterwards, they run
alike. -/
def RunsAlike (t : Text) (blocked last : Bool) (m m' : Matcher) : Prop :=
  ∀ {k k' : Attempt → Option Attempt} {a a' : Attempt}, Mirrors t a a' →
    (∀ b b' w, Reaches t a a' b b' w → Option.Rel (EndsAlike t) (k b) (k' b')) →
    (blocked = true → IsBlocked k') →
    (last = true → ∀ b b', Straddles t b b' → Option.Rel (EndsAlike t) (k b) (k' b')) →
    Option.Rel (EndsAlike t) (m k a) (m' k' a')

/-- A class at a character of the text. -/
theorem run_char_cons {accepts : Char → Bool} {limit : Nat} {k : Attempt → Option Attempt}
    {a : Attempt} {c : Char} {cs : Text} (h : a.rest = c :: cs) :
    (Pattern.char accepts).run limit k a = if accepts c then k (a.advance c cs) else none := by
  rw [run, h]

/-- Where the text ends, a class takes nothing. -/
theorem run_char_nil {accepts : Char → Bool} {limit : Nat} {k : Attempt → Option Attempt}
    {a : Attempt} (h : a.rest = []) : (Pattern.char accepts).run limit k a = none := by
  rw [run, h]

/-- At a line end the text with carriage returns goes on with one of these. -/
theorem rest_eq_of_lineEnd {a a' : Attempt} {cs : Text} (ha : Mirrors t a a')
    (hrest : a.rest = '\n' :: cs) : a'.rest = '\r' :: '\n' :: Text.withReturns cs := by
  rw [ha.rest_eq, hrest, Text.withReturns_newline]

/-- Away from the line ends a class takes the same character in both. -/
theorem rel_run_char {accepts : Char → Bool} {limit limit' : Nat}
    {k k' : Attempt → Option Attempt} {a a' : Attempt} (ha : Mirrors t a a')
    (hend : ∀ cs, a.rest ≠ '\n' :: cs)
    (hk : ∀ b b' w, Reaches t a a' b b' w → Option.Rel (EndsAlike t) (k b) (k' b')) :
    Option.Rel (EndsAlike t) ((Pattern.char accepts).mirrored.run limit k a)
      ((Pattern.char accepts).run limit' k' a') := by
  rw [mirrored_char]
  cases hrest : a.rest with
  | nil =>
    rw [run_char_nil hrest, run_char_nil (by rw [ha.rest_eq, hrest]; rfl)]
    exact .none
  | cons c cs =>
    have hc : c ≠ '\n' := fun hc => hend cs (hc ▸ hrest)
    have hrest' : a'.rest = c :: Text.withReturns cs := by
      rw [ha.rest_eq, hrest, Text.withReturns_cons hc]
    rw [run_char_cons hrest, run_char_cons hrest', bne_iff_ne.mpr hc, Bool.true_or, Bool.and_true]
    split
    · exact hk _ _ _ (ha.advance hrest hc)
    · exact .none

theorem runsAlike_char {blocked last : Bool} {accepts : Char → Bool} {limit limit' : Nat}
    (h : (Pattern.char accepts).tolerates blocked last = true) :
    RunsAlike t blocked last ((Pattern.char accepts).mirrored.run limit)
      ((Pattern.char accepts).run limit') := by
  intro k k' a a' ha hk hblocked hlast
  by_cases hend : ∃ cs, a.rest = '\n' :: cs
  · obtain ⟨cs, hrest⟩ := hend
    rw [mirrored_char, run_char_cons hrest,
      run_char_cons (rest_eq_of_lineEnd ha hrest), bne_self_eq_false, Bool.false_or]
    rw [tolerates, Bool.or_eq_true, Bool.not_eq_true'] at h
    rcases h with h | h
    · rw [h, Bool.and_false, if_neg Bool.false_ne_true, if_neg Bool.false_ne_true]
      exact .none
    · split at h
      · -- nothing comes after: one line feed here, one carriage return there
        rename_i hn
        rw [hn, Bool.true_and]
        split
        · exact hlast h _ _ (ha.straddles hrest)
        · exact .none
      · rename_i hn
        rw [eq_false_of_ne_true hn, Bool.false_and, if_neg Bool.false_ne_true]
        split
        · rw [hblocked h _ rfl]
          exact .none
        · exact .none
  · exact rel_run_char ha (fun cs h => hend ⟨cs, h⟩) hk

/-- What comes after a round of a repetition is tried in both texts or in neither. -/
theorem rel_round {next next' : Attempt → Option Attempt} {a a' b b' : Attempt} {w : Text}
    (hb : Reaches t a a' b b' w) (hnext : w ≠ [] → Option.Rel (EndsAlike t) (next b) (next' b')) :
    Option.Rel (EndsAlike t) (if b.index = a.index then none else next b)
      (if b'.index = a'.index then none else next' b') := by
  rw [hb.passes.index_eq, hb.passes'.index_eq]
  by_cases hw : w = []
  · subst hw
    rw [Text.withReturns_nil, List.length_nil, if_pos (Nat.add_zero _), if_pos (Nat.add_zero _)]
    exact .none
  · have hpos : 0 < w.length := List.length_pos_iff.mpr hw
    have hle : w.length ≤ w.withReturns.length := Text.length_le_withReturns w
    rw [if_neg (by omega), if_neg (by omega)]
    exact hnext hw

/-- A round of a repetition runs alike, if what comes after it does. -/
theorem RunsAlike.round {blocked : Bool} {m m' : Matcher} (hm : RunsAlike t blocked false m m')
    {next next' : Attempt → Option Attempt} {a a' : Attempt} (ha : Mirrors t a a')
    (hnext : ∀ b b' w, Reaches t a a' b b' w → w ≠ [] →
      Option.Rel (EndsAlike t) (next b) (next' b'))
    (hblocked : blocked = true → IsBlocked next') :
    Option.Rel (EndsAlike t) (m (fun b => if b.index = a.index then none else next b) a)
      (m' (fun b => if b.index = a'.index then none else next' b) a') := by
  refine hm ha (fun b b' w hb => rel_round hb (hnext b b' w hb)) (fun h b hb => ?_)
    fun h => absurd h (by decide)
  split
  · rfl
  · exact hblocked h b hb

section Repetition

variable {p q : Pattern} {m m' : Matcher} (hp : p.IsSound m) (hq : q.IsSound m')

include hq in
/-- A repetition cannot go on before a line feed, if its body does not begin with one. -/
theorem isBlocked_rounds (hn : q.avoids '\n' = true) {k : Attempt → Option Attempt}
    (hk : IsBlocked k) (greedy : Bool) (n : Nat) : IsBlocked (m'.rounds greedy n k) := by
  intro a ha
  rw [rounds_eq hq (fun b hb => (hb.passes_nil hn ha).1), hk a ha]

include hp hq in
/-- At the end of the text there are no rounds. -/
theorem rel_rounds_of_end {k k' : Attempt → Option Attempt} {a a' : Attempt} (ha : Mirrors t a a')
    (hrest : a.rest = []) (hk : Option.Rel (EndsAlike t) (k a) (k' a')) (greedy : Bool)
    (n n' : Nat) :
    Option.Rel (EndsAlike t) (m.rounds greedy n k a) (m'.rounds greedy n' k' a') := by
  have hrest' : a'.rest = [] := by rw [ha.rest_eq, hrest]; rfl
  rw [rounds_eq hp fun b hb => hb.passes_nil_of_end hrest,
    rounds_eq hq fun b hb => hb.passes_nil_of_end hrest']
  exact hk

include hp hq in
/-- Repetitions run alike, if one round and what follows it do. -/
theorem rel_rounds {greedy : Bool} {k k' : Attempt → Option Attempt}
    (hround : ∀ {n n' : Nat} {a a' : Attempt}, Mirrors t a a' → a'.rest.length ≤ n' + 1 →
      (∀ b b' w l, Reaches t a a' b b' w → w ≠ [] → b'.rest.length ≤ l →
        Option.Rel (EndsAlike t) (m.rounds greedy n k b) (m'.rounds greedy l k' b')) →
      Option.Rel (EndsAlike t)
        (m (fun b => if b.index = a.index then none else m.rounds greedy n k b) a)
        (m' (fun b => if b.index = a'.index then none else m'.rounds greedy n' k' b) a'))
    {n : Nat} : ∀ {n' : Nat} {a a' : Attempt}, Mirrors t a a' → a.rest.length ≤ n →
      a'.rest.length ≤ n' →
      (∀ b b' w, Reaches t a a' b b' w → Option.Rel (EndsAlike t) (k b) (k' b')) →
        Option.Rel (EndsAlike t) (m.rounds greedy n k a) (m'.rounds greedy n' k' a') := by
  induction n with
  | zero =>
    intro n' a a' ha hn hn' hk
    have hrest : a.rest = [] := List.eq_nil_of_length_eq_zero (Nat.le_zero.mp hn)
    exact rel_rounds_of_end hp hq ha hrest (hk a a' [] ha.reaches) greedy 0 n'
  | succ n ih =>
    intro n' a a' ha hn hn' hk
    by_cases hrest : a.rest = []
    · exact rel_rounds_of_end hp hq ha hrest (hk a a' [] ha.reaches) greedy (n + 1) n'
    · -- both texts go on, so there are rounds left for both
      have hpos : 0 < a'.rest.length := by
        rw [ha.rest_eq]
        exact Nat.lt_of_lt_of_le (List.length_pos_iff.mpr hrest)
          (Text.length_le_withReturns a.rest)
      obtain ⟨n', rfl⟩ : ∃ i, n' = i + 1 := ⟨n' - 1, by omega⟩
      have hfirst := hround (n := n) ha hn' fun b b' w l hb hw hl =>
        ih hb.mirrors (Nat.le_of_lt_succ (Nat.lt_of_lt_of_le (hb.length_lt hw).1 hn)) hl
          fun c c' v hc => hk c c' _ (hb.trans hc)
      rw [Matcher.rounds_succ, Matcher.rounds_succ]
      split
      · exact rel_orElse hfirst (hk a a' [] ha.reaches)
      · exact rel_orElse (hk a a' [] ha.reaches) hfirst

include hp hq in
/-- Repetitions run alike, if their bodies do and no end is set to them but that of the text. -/
theorem RunsAlike.rounds {blocked : Bool}
    (hm : RunsAlike t (blocked && q.avoids '\n') false m m') (greedy : Bool)
    {k k' : Attempt → Option Attempt} (hblocked : blocked = true → IsBlocked k') {n n' : Nat}
    {a a' : Attempt} (ha : Mirrors t a a') (hn : a.rest.length ≤ n) (hn' : a'.rest.length ≤ n')
    (hk : ∀ b b' w, Reaches t a a' b b' w → Option.Rel (EndsAlike t) (k b) (k' b')) :
    Option.Rel (EndsAlike t) (m.rounds greedy n k a) (m'.rounds greedy n' k' a') := by
  refine rel_rounds hp hq (fun {n n' a a'} ha hn' hnext => ?_) ha hn hn' hk
  refine hm.round ha (fun b b' w hb hw => hnext b b' w n' hb hw ?_) fun h => ?_
  · exact Nat.le_of_lt_succ (Nat.lt_of_lt_of_le (hb.length_lt hw).2 hn')
  · rw [Bool.and_eq_true] at h
    exact isBlocked_rounds hq h.2 (hblocked h.1) greedy n'

end Repetition

section Class

variable {accepts : Char → Bool} {limit : Nat} {a : Attempt} {c : Char} {cs : Text}

/-- A round of a repetition whose body is a class. -/
theorem run_char_round {next : Attempt → Option Attempt} (h : a.rest = c :: cs) :
    (Pattern.char accepts).run limit (fun b => if b.index = a.index then none else next b) a =
      if accepts c then next (a.advance c cs) else none := by
  have hindex : (a.advance c cs).index ≠ a.index := Nat.succ_ne_self a.index
  rw [run_char_cons h]
  simp only [if_neg hindex]

/-- Where what comes after a repetition fails, a class that takes the next character does so. -/
theorem rounds_char_of_eq_none {k : Attempt → Option Attempt} (h : a.rest = c :: cs)
    (hc : accepts c = true) (hk : k a = none) (greedy : Bool) (n : Nat) :
    ((Pattern.char accepts).run limit).rounds greedy (n + 1) k a =
      ((Pattern.char accepts).run limit).rounds greedy n k (a.advance c cs) := by
  rw [Matcher.rounds_succ, run_char_round h, if_pos hc, hk]
  cases greedy <;> simp

end Class

/-- A repeated class that takes both characters of a line end takes them one after the other, if
what comes after cannot go on in between. -/
theorem runsAlike_star_of_takesLineEnd {p : Pattern} (hp : p.takesLineEnd = true) (greedy : Bool)
    {limit limit' : Nat} (hlimit : t.length ≤ limit) (hlimit' : t.withReturns.length ≤ limit')
    (last : Bool) :
    RunsAlike t true last ((Pattern.star greedy p).mirrored.run limit)
      ((Pattern.star greedy p).run limit') := by
  intro k k' a a' ha hk hblocked _
  obtain ⟨hlen, hlen'⟩ := ha.length_le
  obtain ⟨accepts, rfl⟩ : ∃ accepts, p = .char accepts := by
    cases p with
    | char accepts => exact ⟨accepts, rfl⟩
    | _ => exact absurd hp (by simp [takesLineEnd])
  rw [takesLineEnd, Bool.and_eq_true] at hp
  rw [mirrored_star, run_star, run_star]
  refine rel_rounds (run_sound limit _) (run_sound limit' _)
    (fun {n n' a a'} ha hn' hnext => ?_) ha (Nat.le_trans hlen hlimit)
    (Nat.le_trans hlen' hlimit') hk
  by_cases hend : ∃ cs, a.rest = '\n' :: cs
  · obtain ⟨cs, hrest⟩ := hend
    have hrest' := rest_eq_of_lineEnd ha hrest
    rw [hrest', List.length_cons, List.length_cons] at hn'
    obtain ⟨l, rfl⟩ : ∃ l, n' = l + 1 := ⟨n' - 1, by omega⟩
    have htakes : (accepts '\n' && ('\n' != '\n' || accepts '\r')) = true := by
      rw [hp.1, hp.2, Bool.or_true, Bool.and_true]
    rw [mirrored_char, run_char_round hrest, run_char_round hrest', if_pos htakes, if_pos hp.2,
      rounds_char_of_eq_none rfl hp.1 (hblocked rfl _ rfl)]
    have hl : (Text.withReturns cs).length ≤ l := by omega
    exact hnext _ _ _ l (ha.advance_lineEnd hrest) (List.cons_ne_nil _ _) hl
  · refine rel_run_char ha (fun cs h => hend ⟨cs, h⟩) fun b b' w hb => ?_
    refine rel_round hb fun hw => hnext b b' w n' hb hw ?_
    exact Nat.le_of_lt_succ (Nat.lt_of_lt_of_le (hb.length_lt hw).2 hn')

/-- A pattern that tolerates carriage returns runs in the text with them as its mirrored form does
in the text without. -/
theorem run_mirrors (ht : '\r' ∉ t) {limit limit' : Nat} (hlimit : t.length ≤ limit)
    (hlimit' : t.withReturns.length ≤ limit') (p : Pattern) :
    ∀ {blocked last : Bool}, p.tolerates blocked last = true →
      RunsAlike t blocked last (p.mirrored.run limit) (p.run limit') := by
  induction p with
  | empty =>
    intro blocked last _ k k' a a' ha hk _ _
    exact hk a a' [] ha.reaches
  | char accepts =>
    intro blocked last h
    exact runsAlike_char h
  | anchor condition =>
    intro blocked last _ k k' a a' ha hk _ _
    rw [mirrored_anchor, run, run, holds_withoutLineEnd ht ha]
    split
    · exact hk a a' [] ha.reaches
    · exact .none
  | seq p q ihp ihq =>
    intro blocked last h k k' a a' ha hk hblocked hlast
    rw [tolerates, Bool.and_eq_true] at h
    rw [mirrored_seq, run, run]
    refine ihp h.1 ha (fun b b' v hb => ?_) (fun h => ?_) fun h => absurd h (by decide)
    · exact ihq h.2 hb.mirrors (fun c c' w hc => hk c c' _ (hb.trans hc)) hblocked hlast
    · rw [Bool.and_eq_true, Bool.or_eq_true, Bool.not_eq_true'] at h
      exact isBlocked_run (run_sound limit' q) h.1 (h.2.imp_left hblocked)
  | alt p q ihp ihq =>
    intro blocked last h k k' a a' ha hk hblocked hlast
    rw [tolerates, Bool.and_eq_true] at h
    rw [mirrored_alt, run, run]
    exact rel_orElse (ihp h.1 ha hk hblocked hlast) (ihq h.2 ha hk hblocked hlast)
  | star greedy p ih =>
    intro blocked last h k k' a a' ha hk hblocked hlast
    rw [tolerates, Bool.or_eq_true, Bool.and_eq_true] at h
    rcases h with ⟨rfl, hends⟩ | h
    · exact runsAlike_star_of_takesLineEnd hends greedy hlimit hlimit' last ha hk hblocked hlast
    · obtain ⟨hlen, hlen'⟩ := ha.length_le
      rw [mirrored_star, run_star, run_star]
      exact RunsAlike.rounds (run_sound limit p.mirrored) (run_sound limit' p) (ih h) greedy
        hblocked ha (Nat.le_trans hlen hlimit) (Nat.le_trans hlen' hlimit') hk
  | group n p ih =>
    intro blocked last h k k' a a' ha hk hblocked _
    rw [mirrored_group, run, run]
    refine ih h ha (fun b b' w hb => ?_) (fun h b hb => hblocked h _ hb)
      fun h => absurd h (by decide)
    exact hk _ _ w (Reaches.record ha hb n)

/-! ## Searching -/

/-- Whether carriage returns before line feeds change no match of a pattern, wherever it is looked
for, but as `mirrored` says. -/
def isTolerant (p : Pattern) : Bool := p.tolerates false true && p.avoids '\n' && !p.isNullable

/-- The same match in a text and in the text with carriage returns. -/
structure FoundAlike (t : Text) (f f' : Found) : Prop where
  start_eq : f'.start = t.mirrored f.start
  groups_eq : f'.groups = f.groups.map (mirroredGroup t)

/-- A group of the one match lies at the place that mirrors that of the other. -/
theorem FoundAlike.span?_eq {f f' : Found} (h : FoundAlike t f f') (n : Nat) :
    f'.span? n = (f.span? n).map fun g => (t.mirrored g.1, t.mirrored g.2) := by
  rw [Found.span?, Found.span?, h.groups_eq]
  induction f.groups with
  | nil => rfl
  | cons g gs ih =>
    rw [List.map_cons, mirroredGroup, List.lookup_cons, List.lookup_cons]
    cases n == g.1 with
    | true => rfl
    | false => exact ih

/-- Two runs from the start of a match on. -/
structure MatchesAlike (t : Text) (x x' : Nat × Attempt) : Prop where
  start_eq : x'.1 = t.mirrored x.1
  endsAlike : EndsAlike t x.2 x'.2

section Search

variable (ht : '\r' ∉ t) {p : Pattern} {limit limit' : Nat} (hlimit : t.length ≤ limit)
  (hlimit' : t.withReturns.length ≤ limit') (hp : p.tolerates false true = true)
  (havoids : p.avoids '\n' = true) (hnullable : p.isNullable = false)

include havoids hnullable in
/-- No match begins between a carriage return and a line feed. -/
theorem firstFrom_of_return (cs : Text) (index : Nat) :
    p.firstFrom limit' (some '\r') ('\n' :: cs) index =
      p.firstFrom limit' (some '\n') cs (index + 1) := by
  have hnone : p.run limit' some ⟨some '\r', '\n' :: cs, index, []⟩ = none := by
    rw [Option.eq_none_iff_forall_ne_some]
    intro e he
    obtain ⟨b, hab, -⟩ := run_sound limit' p _ _ _ he
    have hnull := (hab.passes_nil havoids rfl).2
    rw [hnullable] at hnull
    exact absurd hnull (by decide)
  rw [firstFrom, hnone]

include ht hlimit hlimit' hp in
/-- The runs that begin at places that mirror each other. -/
theorem run_some_mirrors {a a' : Attempt} (h : Mirrors t a a') :
    Option.Rel (EndsAlike t) (p.mirrored.run limit some a) (p.run limit' some a') :=
  run_mirrors ht hlimit hlimit' p hp h (fun _ _ _ hb => .some (Or.inl hb.mirrors))
    (fun h => absurd h (by decide)) fun _ _ _ hb => .some (Or.inr hb)

include ht hlimit hlimit' hp in
/-- A match at places that mirror each other comes before those further on. -/
theorem firstFrom_cons_mirrors {c c' : Char} {cs cs' : Text} {before : Option Char}
    {index index' : Nat}
    (h : Mirrors t ⟨before, c :: cs, index, []⟩ ⟨before, c' :: cs', index', []⟩)
    (hmore : Option.Rel (MatchesAlike t) (p.mirrored.firstFrom limit (some c) cs (index + 1))
      (p.firstFrom limit' (some c') cs' (index' + 1))) :
    Option.Rel (MatchesAlike t) (p.mirrored.firstFrom limit before (c :: cs) index)
      (p.firstFrom limit' before (c' :: cs') index') := by
  have hrun := run_some_mirrors ht hlimit hlimit' hp h
  rw [firstFrom, firstFrom]
  generalize p.mirrored.run limit some _ = x at hrun ⊢
  generalize p.run limit' some _ = x' at hrun ⊢
  cases hrun with
  | some hends => exact .some ⟨h.index_eq, hends⟩
  | none => exact hmore

include ht hlimit hlimit' hp havoids hnullable in
/-- The first match from places that mirror each other. -/
theorem firstFrom_mirrors : ∀ {rest : Text} {before : Option Char} {index index' : Nat},
    Mirrors t ⟨before, rest, index, []⟩ ⟨before, rest.withReturns, index', []⟩ →
      Option.Rel (MatchesAlike t) (p.mirrored.firstFrom limit before rest index)
        (p.firstFrom limit' before rest.withReturns index')
  | [], before, index, index', h => by
    have hrun := run_some_mirrors ht hlimit hlimit' hp h
    rw [Text.withReturns_nil] at hrun ⊢
    rw [firstFrom, firstFrom]
    generalize p.mirrored.run limit some _ = x at hrun ⊢
    generalize p.run limit' some _ = x' at hrun ⊢
    cases hrun with
    | some hends => exact .some ⟨h.index_eq, hends⟩
    | none => exact .none
  | c :: cs, before, index, index', h => by
    by_cases hc : c = '\n'
    · subst hc
      have hnext := (h.straddles rfl).mirrors
      rw [Text.withReturns_newline] at h ⊢
      refine firstFrom_cons_mirrors ht hlimit hlimit' hp h ?_
      rw [firstFrom_of_return havoids hnullable]
      exact firstFrom_mirrors hnext
    · have hnext := (h.advance rfl hc).mirrors
      rw [Text.withReturns_cons hc] at h ⊢
      exact firstFrom_cons_mirrors ht hlimit hlimit' hp h (firstFrom_mirrors hnext)

include ht hlimit hlimit' hp havoids hnullable in
/-- The first match from places where two runs have ended. -/
theorem firstFrom_endsAlike {a a' : Attempt} (h : EndsAlike t a a') :
    Option.Rel (MatchesAlike t) (p.mirrored.firstFrom limit a.before a.rest a.index)
      (p.firstFrom limit' a'.before a'.rest a'.index) := by
  rcases h with h | h
  · rw [h.rest_eq, h.before_eq]
    exact firstFrom_mirrors ht hlimit hlimit' hp havoids hnullable
      ⟨h.isIn, rfl, h.index_eq, rfl, rfl⟩
  · rw [h.rest_eq, h.before_eq, firstFrom_of_return havoids hnullable]
    have hbefore : some '\n' = a.before := h.mirrors.before_eq
    rw [hbefore]
    exact firstFrom_mirrors ht hlimit hlimit' hp havoids hnullable
      ⟨h.mirrors.isIn, rfl, h.mirrors.index_eq, rfl, rfl⟩

include ht hlimit hlimit' hp havoids hnullable in
/-- The matches behind places where two runs have ended. -/
theorem allFrom_mirrors {n : Nat} : ∀ {n' : Nat} {a a' : Attempt}, EndsAlike t a a' →
    a.rest.length < n → a'.rest.length < n' → ∀ last last',
      List.Forall₂ (FoundAlike t)
        (p.mirrored.allFrom limit n a.before a.rest a.index last)
        (p.allFrom limit' n' a'.before a'.rest a'.index last') := by
  induction n with
  | zero => exact fun _ hn => absurd hn (Nat.not_lt_zero _)
  | succ n ih =>
    intro n' a a' ha hn hn' last last'
    obtain ⟨n', rfl⟩ : ∃ i, n' = i + 1 := ⟨n' - 1, by omega⟩
    have hfirst := firstFrom_endsAlike ht hlimit hlimit' hp havoids hnullable ha
    have hnullable' : p.mirrored.isNullable = false := by
      rw [isNullable_mirrored, hnullable]
    generalize hx : p.mirrored.firstFrom limit a.before a.rest a.index = x at hfirst
    generalize hx' : p.firstFrom limit' a'.before a'.rest a'.index = x' at hfirst
    cases hfirst with
    | none =>
      unfold allFrom
      rw [hx, hx']
      exact .nil
    | @some found found' hfound =>
      obtain ⟨start, e⟩ := found
      obtain ⟨start', e'⟩ := found'
      have hlen := (lt_of_firstFrom hnullable' hx).1
      have hlen' := (lt_of_firstFrom hnullable hx').1
      rw [allFrom_of_firstFrom hnullable' hx, allFrom_of_firstFrom hnullable hx']
      obtain ⟨hstart, hends⟩ := hfound
      refine .cons ⟨hstart, ?_⟩ (ih hends ?_ ?_ (some e.index) (some e'.index))
      · rcases hends with hends | hends
        · exact hends.groups_eq
        · exact hends.mirrors.groups_eq
      · exact Nat.lt_of_lt_of_le hlen (Nat.le_of_lt_succ hn)
      · exact Nat.lt_of_lt_of_le hlen' (Nat.le_of_lt_succ hn')

end Search

/-- All matches of a pattern that tolerates carriage returns. -/
theorem all_mirrors {p : Pattern} (hp : p.isTolerant = true) {t : Text} (ht : '\r' ∉ t) :
    List.Forall₂ (FoundAlike t) (p.mirrored.all t) (p.all t.withReturns) := by
  rw [isTolerant, Bool.and_eq_true, Bool.and_eq_true, Bool.not_eq_true'] at hp
  obtain ⟨⟨htolerates, havoids⟩, hnullable⟩ := hp
  have hstart : Mirrors t ⟨none, t, 0, []⟩ ⟨none, t.withReturns, 0, []⟩ :=
    ⟨isIn_start t, rfl, rfl, rfl, rfl⟩
  exact allFrom_mirrors ht (Nat.le_refl _) (Nat.le_refl _) htolerates havoids hnullable
    (Or.inl hstart) (by simp only; omega) (by simp only; omega) none none

end Pattern

end Outline

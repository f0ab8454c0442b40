import Outline.Proofs.Pattern.Returns

/-!
# Matches that stay in their line

A pattern whose classes take fewer characters can match in a different way: at the same place it may
succeed by an alternative that comes later, or the search goes on to a later place.  It cannot, if
the match that is found takes none of the characters in question.  Then all that the matcher has
tried before fails for the narrower classes, too, and the way that it has gone is still open.

This is shown here for the line feeds that `Pattern.withoutLoneFeeds` takes away.  The induction
compares two runs that start from the same place (`Attempt.AgreeInLine`): where the first one fails
so does the second one, and where the first one ends without having passed a line feed the second
one ends in the same place.  Nothing is said where the first one has passed a line feed, so in a
choice between two alternatives nothing needs to be known of the second one.

* `run_agreesInLine`: one run of the matcher.
* `all_withoutLoneFeeds`: all successive matches.
-/

namespace Outline

namespace Attempt

/-- A run that fails, or ends in the line it started in, is the same as another one. -/
structure AgreeInLine (a : Attempt) (x y : Option Attempt) : Prop where
  eq_none : x = none → y = none
  eq_some : ∀ e w, x = some e → a.Passes w e → '\n' ∉ w → y = some e

/-- A continuation that leads from a place to none before it. -/
def GoesOn (k : Attempt → Option Attempt) : Prop :=
  ∀ a e, k a = some e → ∃ w, a.Passes w e

variable {a : Attempt} {x x' y y' : Option Attempt}

theorem AgreeInLine.none_none : AgreeInLine a none none := ⟨fun _ => rfl, by simp⟩

theorem AgreeInLine.orElse (h : AgreeInLine a x y) (h' : AgreeInLine a x' y') :
    AgreeInLine a (x.orElse fun _ => x') (y.orElse fun _ => y') := by
  cases x with
  | none =>
    rw [h.eq_none rfl]
    exact h'
  | some e =>
    refine ⟨fun hnone => absurd hnone (by simp), fun e' w he hw hline => ?_⟩
    rw [Option.orElse_some] at he
    rw [h.eq_some e' w he hw hline, Option.orElse_some]

/-- From one character on, which ends no line. -/
theorem AgreeInLine.of_advance {c : Char} {cs : Text} (hrest : a.rest = c :: cs)
    (hx : ∀ e, x = some e → ∃ w, (a.advance c cs).Passes w e)
    (h : AgreeInLine (a.advance c cs) x y) : AgreeInLine a x y := by
  refine ⟨h.eq_none, fun e w he hw hline => ?_⟩
  obtain ⟨v, hv⟩ := hx e he
  have hw' : w = [c] ++ v :=
    List.append_cancel_right (hw.rest_eq.symm.trans ((Passes.advance hrest).trans hv).rest_eq)
  exact h.eq_some e v he hv fun hmem => hline (hw' ▸ List.mem_append_right [c] hmem)

/-- A run over a line feed may be dropped. -/
theorem AgreeInLine.of_newline {cs : Text} (hrest : a.rest = '\n' :: cs)
    (hx : ∀ e, x = some e → ∃ w, (a.advance '\n' cs).Passes w e) : AgreeInLine a x none := by
  refine ⟨fun _ => rfl, fun e w he hw hline => ?_⟩
  obtain ⟨v, hv⟩ := hx e he
  have hw' : w = ['\n'] ++ v :=
    List.append_cancel_right (hw.rest_eq.symm.trans ((Passes.advance hrest).trans hv).rest_eq)
  exact absurd (hw' ▸ List.mem_cons_self) hline

end Attempt

namespace Pattern

open Attempt

theorem IsSound.goesOn {p : Pattern} {m : Matcher} (hm : p.IsSound m)
    {k : Attempt → Option Attempt} (hk : GoesOn k) : GoesOn (m k) := by
  intro a e he
  obtain ⟨b, hab, hb⟩ := hm k a e he
  obtain ⟨v, hv, -⟩ := hab.exists_passes
  obtain ⟨w, hw⟩ := hk b e hb
  exact ⟨v ++ w, hv.trans hw⟩

/-- What `run_agreesInLine` says of two matchers. -/
def RunsInLine (m m' : Matcher) : Prop :=
  ∀ {k k' : Attempt → Option Attempt}, GoesOn k → (∀ b, AgreeInLine b (k b) (k' b)) →
    ∀ a, AgreeInLine a (m k a) (m' k' a)

theorem runsInLine_char (limit : Nat) (accepts : Char → Bool) :
    RunsInLine ((Pattern.char accepts).run limit)
      ((Pattern.char accepts).withoutLoneFeeds.run limit) := by
  intro k k' hk hagree a
  rw [withoutLoneFeeds]
  cases hrest : a.rest with
  | nil =>
    rw [run_char_nil hrest, run_char_nil hrest]
    exact .none_none
  | cons c cs =>
    rw [run_char_cons hrest, run_char_cons hrest]
    cases hc : accepts c with
    | false => exact .none_none
    | true =>
      rw [if_pos rfl, Bool.true_and]
      split
      · exact .of_advance hrest (hk _) (hagree _)
      · rename_i hkept
        have hnewline : c = '\n' := by
          by_contra hne
          exact hkept (by rw [bne_iff_ne.mpr hne, Bool.true_or])
        subst hnewline
        exact .of_newline hrest (hk _)

theorem RunsInLine.rounds {p : Pattern} {m m' : Matcher} (hm : p.IsSound m)
    (h : RunsInLine m m') (greedy : Bool) (n : Nat) :
    RunsInLine (m.rounds greedy n) (m'.rounds greedy n) := by
  induction n with
  | zero =>
    intro k k' _ hagree a
    rw [Matcher.rounds_zero, Matcher.rounds_zero]
    exact hagree a
  | succ n ih =>
    intro k k' hk hagree a
    have hround : AgreeInLine a
        (m (fun b => if b.index = a.index then none else m.rounds greedy n k b) a)
        (m' (fun b => if b.index = a.index then none else m'.rounds greedy n k' b) a) := by
      refine h (fun b e he => ?_) (fun b => ?_) a
      · rw [Option.ite_none_left_eq_some] at he
        exact (isSound_rounds hm greedy n).goesOn hk b e he.2
      · split
        · exact .none_none
        · exact ih hk hagree b
    rw [Matcher.rounds_succ, Matcher.rounds_succ]
    split
    · exact hround.orElse (hagree a)
    · exact (hagree a).orElse hround

/-- A run that ends in its line does not need the line feeds that some classes take. -/
theorem run_agreesInLine (limit : Nat) (p : Pattern) :
    RunsInLine (p.run limit) (p.withoutLoneFeeds.run limit) := by
  induction p with
  | empty => exact fun _ hagree a => hagree a
  | char accepts => exact runsInLine_char limit accepts
  | anchor condition =>
    intro k k' _ hagree a
    rw [withoutLoneFeeds, run, run]
    split
    · exact hagree a
    · exact .none_none
  | seq p q ihp ihq =>
    intro k k' hk hagree a
    rw [withoutLoneFeeds, run, run]
    exact ihp ((run_sound limit q).goesOn hk) (fun b => ihq hk hagree b) a
  | alt p q ihp ihq =>
    intro k k' hk hagree a
    rw [withoutLoneFeeds, run, run]
    exact (ihp hk hagree a).orElse (ihq hk hagree a)
  | star greedy p ih =>
    rw [withoutLoneFeeds, run_star, run_star]
    exact ih.rounds (run_sound limit p) greedy limit
  | group n p ih =>
    intro k k' hk hagree a
    rw [withoutLoneFeeds, run, run]
    refine ih (fun b e he => ?_) (fun b => ?_) a
    · obtain ⟨w, hw⟩ := hk _ e he
      exact ⟨w, hw.rest_eq, hw.index_eq, hw.before_eq⟩
    · have hb := hagree (b.record n a.index)
      exact ⟨hb.eq_none, fun e w he hw => hb.eq_some e w he ⟨hw.rest_eq, hw.index_eq, hw.before_eq⟩⟩

/-! ## Searching -/

variable {p : Pattern} {limit : Nat} {text : Text}

theorem run_some_agreesInLine (p : Pattern) (limit : Nat) (a : Attempt) :
    AgreeInLine a (p.run limit some a) (p.withoutLoneFeeds.run limit some a) := by
  refine run_agreesInLine limit p (fun b e he => ⟨[], ?_⟩) (fun b => ?_) a
  · rw [← Option.some.inj he]
    exact .refl b
  · exact ⟨fun h => h, fun e w he _ _ => he⟩

/-- The first match from a place on, unless it takes a line feed. -/
theorem firstFrom_withoutLoneFeeds : ∀ {rest : Text} {before : Option Char} {index : Nat},
    Attempt.IsIn ⟨before, rest, index, []⟩ text →
      (∀ start e, p.firstFrom limit before rest index = some (start, e) →
        '\n' ∉ Found.cut text start e.index) →
      p.withoutLoneFeeds.firstFrom limit before rest index =
        p.firstFrom limit before rest index
  | [], before, index, hin, h => by
    have hrun := run_some_agreesInLine p limit ⟨before, [], index, []⟩
    rw [firstFrom, firstFrom]
    cases hx : p.run limit some ⟨before, [], index, []⟩ with
    | none => rw [hrun.eq_none hx]
    | some e =>
      obtain ⟨b, hab, hb⟩ := run_sound limit p _ _ _ hx
      obtain rfl := Option.some.inj hb
      obtain ⟨w, hw, -⟩ := hab.exists_passes
      have hline := h index b (by rw [firstFrom, hx]; rfl)
      rw [hrun.eq_some b w hx hw (hin.cut_eq hw ▸ hline)]
  | c :: cs, before, index, hin, h => by
    have hrun := run_some_agreesInLine p limit ⟨before, c :: cs, index, []⟩
    rw [firstFrom, firstFrom]
    cases hx : p.run limit some ⟨before, c :: cs, index, []⟩ with
    | none =>
      rw [hrun.eq_none hx]
      refine firstFrom_withoutLoneFeeds (hin.passes (.advance rfl)) fun start e he => h start e ?_
      rw [firstFrom, hx]
      exact he
    | some e =>
      obtain ⟨b, hab, hb⟩ := run_sound limit p _ _ _ hx
      obtain rfl := Option.some.inj hb
      obtain ⟨w, hw, -⟩ := hab.exists_passes
      have hline := h index b (by rw [firstFrom, hx])
      rw [hrun.eq_some b w hx hw (hin.cut_eq hw ▸ hline)]

theorem allFrom_withoutLoneFeeds : ∀ {n : Nat} {before : Option Char} {rest : Text} {index : Nat}
    {last : Option Nat}, Attempt.IsIn ⟨before, rest, index, []⟩ text →
      (∀ f ∈ p.allFrom limit n before rest index last, '\n' ∉ Found.cut text f.start f.stop) →
      p.withoutLoneFeeds.allFrom limit n before rest index last =
        p.allFrom limit n before rest index last
  | 0, _, _, _, _, _, _ => rfl
  | n + 1, before, rest, index, last, hin, h => by
    have hfirst : p.withoutLoneFeeds.firstFrom limit before rest index =
        p.firstFrom limit before rest index := by
      refine firstFrom_withoutLoneFeeds hin fun start e he => ?_
      by_cases hrepeat : e.index = start ∧ last = some start
      · rw [hrepeat.1, Found.cut, Nat.sub_self, List.take_zero]
        exact List.not_mem_nil
      · refine h ⟨start, e.index, e.groups⟩ ?_
        rw [allFrom.eq_def]
        simp only [he, if_neg hrepeat, List.mem_cons, true_or]
    rw [allFrom.eq_def, allFrom.eq_def p]
    rw [allFrom.eq_def] at h
    simp only [hfirst] at h ⊢
    cases hx : p.firstFrom limit before rest index with
    | none => rfl
    | some found =>
      obtain ⟨start, e⟩ := found
      obtain ⟨a, ha, -, hae, -⟩ := firstFrom_takes hin hx
      obtain ⟨w, hw, -⟩ := hae.exists_passes
      simp only [hx] at h ⊢
      split
      · rename_i hrepeat
        rw [if_pos hrepeat] at h
        cases rest with
        | nil => rfl
        | cons c cs => exact allFrom_withoutLoneFeeds (hin.passes (.advance rfl)) h
      · rename_i hrepeat
        rw [if_neg hrepeat] at h
        have hin' : Attempt.IsIn ⟨e.before, e.rest, e.index, []⟩ text :=
          ha.passes ⟨hw.rest_eq, hw.index_eq, hw.before_eq⟩
        rw [allFrom_withoutLoneFeeds hin' fun f hf => h f (List.mem_cons_of_mem _ hf)]

/-- A search that finds no match with a line feed in it finds the same, if the classes do not take
line feeds. -/
theorem all_withoutLoneFeeds (h : ∀ f ∈ p.all text, '\n' ∉ Found.cut text f.start f.stop) :
    p.withoutLoneFeeds.all text = p.all text :=
  allFrom_withoutLoneFeeds (Attempt.isIn_start text) h

end Pattern

end Outline

import Outline.Proofs.Pattern.Complete

/-!
# The way that is tried first

That a pattern matches from one place to another says that there is a way, and not that it is the
one that the matcher takes.  For what a group captures the order matters: of all the ends that a
repetition may have, the longest is tried first.  `Pattern.Leads` says that the matcher tries no
other way with success: if what comes after succeeds from the place the pattern leads to, then that
is what the whole answers.

The rules are those of the constructors, read in order.  A greedy repetition of a class leads to
where the class stops (`Leads.many_char`), an optional part is gone through where it can be and
passed over where it cannot (`Leads.opt`, `Leads.opt_of_not_takes`), and of several words the one
that stands in the text is taken (`Leads.words`).

* `first?_eq_of_leads`: a search finds the first way from the first place that has one.
-/

namespace Outline.Pattern

open Attempt

/-- Whenever what comes after succeeds from `b`, the matcher answers with that from `a`. -/
def Leads (limit : Nat) (p : Pattern) (a b : Attempt) : Prop :=
  ∀ k e, k b = some e → p.run limit k a = some e

variable {limit : Nat} {p q : Pattern} {a b c : Attempt}

/-- Where a pattern takes nothing, the matcher fails. -/
theorem run_eq_none_of_not_takes (h : ∀ b, ¬ p.Takes a b) (k : Attempt → Option Attempt) :
    p.run limit k a = none := by
  rw [Option.eq_none_iff_forall_ne_some]
  intro e he
  obtain ⟨b, hab, -⟩ := run_sound limit p k a e he
  exact h b hab

namespace Leads

theorem empty (limit : Nat) (a : Attempt) : Leads limit .empty a a := fun _ _ h => h

theorem char {accepts : Char → Bool} {ch : Char} (h : a.Skips [ch] b) (hch : accepts ch = true) :
    Leads limit (.char accepts) a b := by
  intro k e hk
  have hrest : a.rest = ch :: b.rest := h.rest_eq
  rw [h.unique (.advance hrest)] at hk
  rw [run, hrest]
  simp only [hch, if_true]
  exact hk

theorem anchor {condition : Anchor} (h : condition.holds a = true) :
    Leads limit (.anchor condition) a a := by
  intro k e hk
  rw [run, if_pos h, hk]

theorem seq (hp : Leads limit p a b) (hq : Leads limit q b c) : Leads limit (.seq p q) a c :=
  fun k e hk => hp _ e (hq k e hk)

theorem altLeft (hp : Leads limit p a b) : Leads limit (.alt p q) a b := by
  intro k e hk
  rw [run, hp k e hk]
  rfl

theorem altRight (hp : ∀ b, ¬ p.Takes a b) (hq : Leads limit q a b) :
    Leads limit (.alt p q) a b := by
  intro k e hk
  rw [run, run_eq_none_of_not_takes hp, hq k e hk]
  rfl

theorem group (n : Nat) (hp : Leads limit p a b) :
    Leads limit (.group n p) a (b.record n a.index) :=
  fun k e hk => hp (fun b => k (b.record n a.index)) e hk

theorem chain_cons {ps : List Pattern} (hp : Leads limit p a b)
    (hps : Leads limit (chain ps) b c) : Leads limit (chain (p :: ps)) a c := by
  cases ps with
  | nil => exact fun k e hk => hp k e (hps k e hk)
  | cons q ps => exact hp.seq hps

/-- A string leads over itself. -/
theorem literal {s : String} (h : a.Skips s.toList b) : Leads limit (literal s) a b := by
  have hfold : ∀ {w : Text} {p : Pattern} {a b c : Attempt}, Leads limit p a b → b.Skips w c →
      Leads limit ((w.map fun c => Pattern.char (· == c)).foldl .seq p) a c := by
    intro w
    induction w with
    | nil =>
      intro p a b c hp hc
      rw [Skips.nil_iff.mp hc]
      exact hp
    | cons ch w ih =>
      intro p a b c hp hc
      obtain ⟨d, hd, hc⟩ := Skips.cons_iff.mp hc
      exact ih (hp.seq (.char hd (beq_self_eq_true ch))) hc
  rw [Pattern.literal]
  generalize s.toList = w at h
  cases w with
  | nil =>
    rw [Skips.nil_iff.mp h]
    exact .empty limit a
  | cons ch w =>
    obtain ⟨d, hd, hc⟩ := Skips.cons_iff.mp h
    exact hfold (.char hd (beq_self_eq_true ch)) hc

/-- An optional part leads as far as it can. -/
theorem opt (hp : Leads limit p a b) : Leads limit (opt p) a b := hp.altLeft

/-- An optional part that cannot be gone through is passed over. -/
theorem opt_of_not_takes (hp : ∀ b, ¬ p.Takes a b) : Leads limit (Pattern.opt p) a a :=
  .altRight hp (.empty limit a)

/-- Of several words, of which none is the beginning of another one, the one that stands in the text
leads over itself. -/
theorem words {s : String} (h : a.Skips s.toList b) : ∀ {ss : List String}, s ∈ ss →
    (∀ t ∈ ss, t.toList <+: s.toList ∨ s.toList <+: t.toList → t = s) →
      Leads limit (words ss) a b
  | [], hs, _ => absurd hs List.not_mem_nil
  | [t], hs, _ => by
    rw [← List.mem_singleton.mp hs]
    exact .literal h
  | t :: u :: ss, hs, hother => by
    have hcons : Pattern.words (t :: u :: ss) =
        .alt (Pattern.literal t) (Pattern.words (u :: ss)) := rfl
    rw [hcons]
    by_cases ht : t = s
    · rw [ht]
      exact altLeft (.literal h)
    · refine .altRight (fun c hc => ht (hother t List.mem_cons_self ?_)) ?_
      · -- both stand at the same place
        have hfirst : t.toList <+: a.rest := ⟨c.rest, (takes_literal_iff.mp hc).rest_eq.symm⟩
        exact List.prefix_or_prefix_of_prefix hfirst ⟨b.rest, h.rest_eq.symm⟩
      · exact words h ((List.mem_cons.mp hs).resolve_left (Ne.symm ht))
          fun t ht => hother t (List.mem_cons_of_mem _ ht)

section Repetition

variable {accepts : Char → Bool} {w : Text}

theorem rounds_char (hend : b.rest.head?.any accepts = false) {n : Nat} :
    ∀ {w : Text} {a : Attempt}, (∀ ch ∈ w, accepts ch = true) → a.Skips w b → w.length ≤ n →
      ∀ k e, k b = some e →
        ((Pattern.char accepts).run limit).rounds true n k a = some e := by
  induction n with
  | zero =>
    intro w a _ h hn k e hk
    rw [List.eq_nil_of_length_eq_zero (Nat.le_zero.mp hn), Skips.nil_iff] at h
    rw [Matcher.rounds_zero, ← h, hk]
  | succ n ih =>
    intro w a hw h hn k e hk
    rw [Matcher.rounds_succ, if_pos rfl]
    cases w with
    | nil =>
      -- the class stops here, so there is no further round
      rw [Skips.nil_iff] at h
      subst h
      rw [run_eq_none_of_not_takes, Option.orElse_none, hk]
      intro c hc
      obtain ⟨ch, hch, hskip⟩ := takes_char_iff.mp hc
      rw [hskip.rest_eq, List.singleton_append, List.head?_cons, Option.any_some, hch] at hend
      exact absurd hend (by decide)
    | cons ch w =>
      obtain ⟨hch, hw⟩ := List.forall_mem_cons.mp hw
      obtain ⟨d, hd, hdb⟩ := Skips.cons_iff.mp h
      have hindex : d.index ≠ a.index := by
        rw [hd.index_eq]
        exact Nat.succ_ne_self _
      have hround : (Pattern.char accepts).run limit (fun b => if b.index = a.index then none
          else ((Pattern.char accepts).run limit).rounds true n k b) a = some e := by
        refine Leads.char hd hch _ e ?_
        rw [if_neg hindex]
        exact ih hw hdb (Nat.le_of_succ_le_succ hn) k e hk
      rw [hround, Option.orElse_some]

/-- A greedy repetition of a class leads to where the class stops. -/
theorem many_char (hw : ∀ ch ∈ w, accepts ch = true) (h : a.Skips w b)
    (hend : b.rest.head?.any accepts = false) (hlimit : a.rest.length ≤ limit) :
    Leads limit (many (.char accepts)) a b := by
  intro k e hk
  have hlen : w.length ≤ limit := by
    refine Nat.le_trans ?_ hlimit
    rw [h.rest_eq, List.length_append]
    exact Nat.le_add_right _ _
  rw [many, run_star]
  exact rounds_char hend hw h hlen k e hk

theorem many1_char (hne : w ≠ []) (hw : ∀ ch ∈ w, accepts ch = true) (h : a.Skips w b)
    (hend : b.rest.head?.any accepts = false) (hlimit : a.rest.length ≤ limit) :
    Leads limit (many1 (.char accepts)) a b := by
  obtain ⟨ch, w, rfl⟩ := List.exists_cons_of_ne_nil hne
  obtain ⟨hch, hw⟩ := List.forall_mem_cons.mp hw
  obtain ⟨d, hd, hdb⟩ := Skips.cons_iff.mp h
  exact (Leads.char hd hch).seq (many_char hw hdb hend (Nat.le_trans hd.length_le hlimit))

end Repetition

end Leads

/-! ## Searching -/

theorem firstFrom_eq_of_leads {e : Attempt} (h : Leads limit p b e) (hgroups : b.groups = []) :
    ∀ {u : Text} {a : Attempt}, a.groups = [] → a.Skips u b →
      (∀ v c d, a.Skips v c → v.length < u.length → ¬ p.Takes c d) →
      p.firstFrom limit a.before a.rest a.index = some (b.index, e)
  | [], a, hnone, hab, _ => by
    rw [Skips.nil_iff] at hab
    subst hab
    have hrun := h some e rfl
    rw [← eta_of_groups_eq_nil hnone] at hrun
    cases hrest : b.rest with
    | nil =>
      rw [hrest] at hrun
      rw [firstFrom, hrun, Option.map_some]
    | cons ch cs =>
      rw [hrest] at hrun
      rw [firstFrom, hrun]
  | ch :: u, a, hnone, hab, hbefore => by
    obtain ⟨d, hd, hdb⟩ := Skips.cons_iff.mp hab
    have hrest : a.rest = ch :: d.rest := hd.rest_eq
    have hfail : p.run limit some a = none :=
      run_eq_none_of_not_takes (fun d => hbefore [] a d (.refl a) (Nat.succ_pos _)) some
    rw [← eta_of_groups_eq_nil hnone, hrest] at hfail
    have hnext := firstFrom_eq_of_leads h hgroups (hd.groups_eq.trans hnone) hdb
      fun v c e hv hlt => hbefore (ch :: v) c e (Skips.cons_iff.mpr ⟨d, hd, hv⟩)
        (Nat.succ_lt_succ hlt)
    rw [hd.unique (.advance hrest)] at hnext
    rw [hrest, firstFrom, hfail]
    exact hnext

/-- A search finds the first way from the first place from which there is one. -/
theorem first?_eq_of_leads {text u : Text} {e : Attempt} (ha : (front text).Skips u a)
    (h : Leads text.length p a e)
    (hbefore : ∀ v b c, (front text).Skips v b → v.length < u.length → ¬ p.Takes b c) :
    p.first? text = some ⟨a.index, e.index, e.groups⟩ := by
  have hfirst := firstFrom_eq_of_leads h (ha.groups_eq.trans rfl) rfl ha hbefore
  rw [first?]
  exact congrArg _ hfirst

end Outline.Pattern

import Outline.Json.Basic
import Outline.Json.Numeral
import Outline.Proofs.Text.Pieces

/-!
# Numbers are written as numerals

A numeral is read part by part: digits, then perhaps a point with digits, then perhaps an exponent.
Each part is a run of digits as long as possible, so a numeral is read back whole if what stands
behind it goes on with none of its parts (`Numeral.read?_text_append`).

The numbers of a report or a settings file are put together from the digits of a whole number, a
point, noughts and an exponent, in one of several ways that depend on where the point falls.  In all
of them the result is the text of a numeral (`IsNumeralText`).

* `Numeral.text`, `Numeral.IsProper`: the text of a numeral, and the numerals that can be read.
* `IsNumeralText`: the texts of such numerals that have no sign.
* `Decimal.isNumeralText_written`, `Decimal.isNumeralText_positional`: both ways to write a decimal.
-/

namespace Outline

/-- There are only digits, at least one. -/
structure AreDigits (t : Text) : Prop where
  ne_nil : t ≠ []
  isDigit : ∀ c ∈ t, c.isDigit = true

namespace AreDigits

variable {t u : Text}

theorem append (ht : AreDigits t) (hu : ∀ c ∈ u, c.isDigit = true) : AreDigits (t ++ u) where
  ne_nil := List.append_ne_nil_of_left_ne_nil ht.ne_nil u
  isDigit c hc := (List.mem_append.mp hc).elim (ht.isDigit c) (hu c)

theorem append_left (ht : ∀ c ∈ t, c.isDigit = true) (hu : AreDigits u) : AreDigits (t ++ u) where
  ne_nil := List.append_ne_nil_of_right_ne_nil t hu.ne_nil
  isDigit c hc := (List.mem_append.mp hc).elim (ht c) (hu.isDigit c)

theorem exists_cons (ht : AreDigits t) : ∃ c cs, t = c :: cs ∧ c.isDigit = true := by
  obtain ⟨c, cs, rfl⟩ := List.exists_cons_of_ne_nil ht.ne_nil
  exact ⟨c, cs, rfl, ht.isDigit c List.mem_cons_self⟩

end AreDigits

namespace Numeral

/-! ## The text of a numeral -/

/-- The digits after the point, with the point. -/
def fractionText : Option Text → Text
  | none => []
  | some ds => '.' :: ds

/-- The exponent, with its letter. -/
def exponentText : Option (Bool × Text) → Text
  | none => []
  | some (negative, ds) => 'e' :: if negative then '-' :: ds else ds

/-- The text of a numeral. -/
def text (n : Numeral) : Text :=
  (if n.negative then ['-'] else []) ++
    (n.whole ++ (fractionText n.fraction ++ exponentText n.exponent))

/-- Each part has digits, and no nought comes before another digit. -/
structure IsProper (n : Numeral) : Prop where
  whole : AreDigits n.whole
  leading : n.whole.head? = some '0' → n.whole.length = 1
  fraction : ∀ ds ∈ n.fraction, AreDigits ds
  exponent : ∀ e ∈ n.exponent, AreDigits e.2

/-- The characters that a numeral may go on with. -/
def goesOn (c : Char) : Bool := c.isDigit || c == '.' || c == 'e' || c == 'E'

/-! ## Reading -/

section Read

variable {ds rest : Text} {p : Char → Bool}

theorem any_head?_exponentText (he : p 'e' = false) (hrest : rest.head?.any p = false) :
    ∀ e, (exponentText e ++ rest).head?.any p = false
  | none => hrest
  | some (_, _) => he

theorem any_head?_fractionText (hp : p '.' = false) (hrest : rest.head?.any p = false) :
    ∀ f, (fractionText f ++ rest).head?.any p = false
  | none => hrest
  | some _ => hp

/-- A text that begins with no character of a class begins with none of a narrower class. -/
theorem any_head?_mono {q : Char → Bool} (hp : ∀ c, p c = true → q c = true)
    (hrest : rest.head?.any q = false) : rest.head?.any p = false := by
  cases rest with
  | nil => rfl
  | cons c cs =>
    rw [List.head?_cons, Option.any_some] at hrest ⊢
    exact Bool.eq_false_iff.mpr fun hc => Bool.eq_false_iff.mp hrest (hp c hc)

theorem digits?_append (h : AreDigits ds) (hrest : rest.head?.any Char.isDigit = false) :
    digits? (ds ++ rest) = some (ds, rest) := by
  obtain ⟨c, cs, rfl, -⟩ := h.exists_cons
  rw [digits?, Text.takeWhile_append_stop h.isDigit hrest,
    Text.dropWhile_append_stop h.isDigit hrest]

theorem whole?_append (h : AreDigits ds) (hlead : ds.head? = some '0' → ds.length = 1)
    (hrest : rest.head?.any Char.isDigit = false) : whole? (ds ++ rest) = some (ds, rest) := by
  rw [whole?, digits?_append h hrest]
  simp only [Option.bind_eq_bind, Option.bind_some]
  rw [if_neg]
  simp only [Bool.and_eq_true, decide_eq_true_eq]
  rintro ⟨hhead, hlen⟩
  rw [hlead hhead] at hlen
  omega

theorem fraction?_append {f : Option Text} (h : ∀ ds ∈ f, AreDigits ds)
    (hrest : rest.head?.any (fun c => c.isDigit || c == '.') = false) :
    fraction? (fractionText f ++ rest) = some (f, rest) := by
  cases f with
  | none =>
    rw [fractionText, List.nil_append]
    cases rest with
    | nil => rfl
    | cons c cs =>
      rw [List.head?_cons, Option.any_some, Bool.or_eq_false_iff, beq_eq_false_iff_ne] at hrest
      rw [fraction?]
      intro t ht
      exact hrest.2 (List.cons.inj ht).1
  | some ds =>
    have hdigit : rest.head?.any Char.isDigit = false :=
      any_head?_mono (fun c hc => by simp [hc]) hrest
    rw [fractionText, List.cons_append, fraction?, digits?_append (h ds rfl) hdigit]
    rfl

theorem exponentSign_of_isDigit {c : Char} (hc : c.isDigit = true) (cs : Text) :
    exponentSign (c :: cs) = (false, c :: cs) := by
  rw [exponentSign]
  · rintro t ht
    rw [(List.cons.inj ht).1] at hc
    exact absurd hc (by decide)
  · rintro t ht
    rw [(List.cons.inj ht).1] at hc
    exact absurd hc (by decide)

theorem exponent?_append {e : Option (Bool × Text)} (h : ∀ x ∈ e, AreDigits x.2)
    (hrest : rest.head?.any goesOn = false) :
    exponent? (exponentText e ++ rest) = some (e, rest) := by
  cases e with
  | none =>
    rw [exponentText, List.nil_append]
    cases rest with
    | nil => rfl
    | cons c cs =>
      rw [List.head?_cons, Option.any_some] at hrest
      have hne : ¬ (c = 'e' ∨ c = 'E') := by
        rintro (rfl | rfl) <;> exact absurd hrest (by decide)
      rw [exponent?, if_neg hne]
  | some x =>
    obtain ⟨negative, ds⟩ := x
    have hds : AreDigits ds := h _ rfl
    have hdigit : rest.head?.any Char.isDigit = false :=
      any_head?_mono (fun c hc => by simp [goesOn, hc]) hrest
    have hsign : exponentSign ((if negative then '-' :: ds else ds) ++ rest) =
        (negative, ds ++ rest) := by
      cases negative with
      | true => rfl
      | false =>
        obtain ⟨c, cs, rfl, hc⟩ := hds.exists_cons
        exact exponentSign_of_isDigit hc (cs ++ rest)
    rw [exponentText, List.cons_append, exponent?, if_pos (Or.inl rfl), hsign]
    simp only
    rw [digits?_append hds hdigit]
    rfl

theorem unsigned?_append {n : Numeral} (h : n.IsProper)
    (hrest : rest.head?.any goesOn = false) :
    unsigned? n.negative
        (n.whole ++ (fractionText n.fraction ++ (exponentText n.exponent ++ rest))) =
      some (n, rest) := by
  have hpoint : (exponentText n.exponent ++ rest).head?.any
      (fun c => c.isDigit || c == '.') = false :=
    any_head?_exponentText (by decide)
      (any_head?_mono (fun c hc => by simpa [goesOn, or_assoc] using Or.inl hc) hrest) _
  have hdigit : (fractionText n.fraction ++ (exponentText n.exponent ++ rest)).head?.any
      Char.isDigit = false :=
    any_head?_fractionText (by decide) (any_head?_mono (fun c hc => by simp [hc]) hpoint) _
  rw [unsigned?, whole?_append h.whole h.leading hdigit]
  simp only [Option.bind_eq_bind, Option.bind_some]
  rw [fraction?_append h.fraction hpoint]
  simp only [Option.bind_some]
  rw [exponent?_append h.exponent hrest]
  rfl

/-- A numeral is read back, if what stands behind it does not go on with it. -/
theorem read?_text_append {n : Numeral} (h : n.IsProper) (hrest : rest.head?.any goesOn = false) :
    read? (n.text ++ rest) = some (n, rest) := by
  have hread := unsigned?_append h hrest
  rw [text, List.append_assoc, List.append_assoc, List.append_assoc]
  cases hn : n.negative with
  | true =>
    rw [hn] at hread
    exact hread
  | false =>
    rw [hn] at hread
    rw [if_neg Bool.false_ne_true, List.nil_append]
    obtain ⟨c, cs, hwhole, hc⟩ := h.whole.exists_cons
    rw [hwhole, List.cons_append] at hread ⊢
    rw [read?, hread]
    rintro t ht
    rw [(List.cons.inj ht).1] at hc
    exact absurd hc (by decide)

theorem read?_text {n : Numeral} (h : n.IsProper) : read? n.text = some (n, []) := by
  have hread := read?_text_append h (show ([] : Text).head?.any goesOn = false from rfl)
  rwa [List.append_nil] at hread

end Read

end Numeral

/-! ## The digits of a whole number -/

section Digits

variable {n : Nat}

theorem areDigits_toDigits (n : Nat) : AreDigits (Nat.toDigits 10 n) where
  ne_nil := Nat.toDigits_ne_nil
  isDigit _ hc := Nat.isDigit_of_mem_toDigits (by decide) (by decide) hc

theorem areDigits_noughts (k : Nat) : ∀ c ∈ List.replicate k '0', c.isDigit = true := by
  intro c hc
  rw [List.eq_of_mem_replicate hc]
  rfl

theorem digitChar_ne_zero : ∀ n < 10, n ≠ 0 → n.digitChar ≠ '0' := by decide

/-- Only nought begins with a nought. -/
theorem head?_toDigits_ne (hn : n ≠ 0) : (Nat.toDigits 10 n).head? ≠ some '0' := by
  induction n using Nat.strong_induction_on with
  | h n ih =>
    rw [Nat.toDigits_eq_if (by decide)]
    split
    · rename_i hlt
      rw [List.head?_cons, ne_eq, Option.some_inj]
      exact digitChar_ne_zero n hlt hn
    · obtain ⟨c, cs, hc⟩ := List.exists_cons_of_ne_nil (Nat.toDigits_ne_nil (n := n / 10) (b := 10))
      have hhead := ih (n / 10) (by omega) (by omega)
      rw [hc, List.head?_cons] at hhead
      rw [hc, List.cons_append, List.head?_cons]
      exact hhead

theorem length_toDigits_of_head? (h : (Nat.toDigits 10 n).head? = some '0') :
    (Nat.toDigits 10 n).length = 1 := by
  by_cases hn : n = 0
  · rw [hn]
    rfl
  · exact absurd h (head?_toDigits_ne hn)

theorem Numeral.value_toDigits (n : Nat) : Numeral.value (Nat.toDigits 10 n) = n :=
  Nat.ofDigitChars_ten_toDigits

/-- The digits of a count, as a numeral. -/
theorem Numeral.isProper_toDigits (n : Nat) :
    (⟨false, Nat.toDigits 10 n, none, none⟩ : Numeral).IsProper :=
  ⟨areDigits_toDigits n, length_toDigits_of_head?, by simp, by simp⟩

end Digits

/-! ## Decimals -/

/-- The text of a numeral without a sign. -/
def IsNumeralText (t : Text) : Prop := ∃ n : Numeral, n.IsProper ∧ n.negative = false ∧ n.text = t

/-- A sign may stand before it. -/
theorem IsNumeralText.signed {s : String} (h : IsNumeralText s.toList) (negative : Prop)
    [Decidable negative] :
    ∃ n : Numeral, n.IsProper ∧ n.text = ((if negative then "-" else "") ++ s).toList := by
  obtain ⟨n, hn, hsign, htext⟩ := h
  by_cases hneg : negative
  · refine ⟨{ n with negative := true }, ⟨hn.whole, hn.leading, hn.fraction, hn.exponent⟩, ?_⟩
    rw [if_pos hneg, String.toList_append, ← htext, Numeral.text, Numeral.text, hsign]
    rfl
  · refine ⟨n, hn, ?_⟩
    rw [if_neg hneg, String.empty_append, htext]

theorem isNumeralText_parts {whole : Text} {f : Option Text} {e : Option (Bool × Text)}
    (hwhole : AreDigits whole) (hlead : whole.head? = some '0' → whole.length = 1)
    (hf : ∀ ds ∈ f, AreDigits ds) (he : ∀ x ∈ e, AreDigits x.2) :
    IsNumeralText (whole ++ (Numeral.fractionText f ++ Numeral.exponentText e)) :=
  ⟨⟨false, whole, f, e⟩, ⟨hwhole, hlead, hf, he⟩, rfl, rfl⟩

theorem areDigits_nought : AreDigits ['0'] := areDigits_toDigits 0

namespace Decimal

theorem toList_ofWhole (n : Nat) : (ofWhole n).toList = Nat.toDigits 10 n := String.toList_ofList

theorem toList_zeros (k : Nat) : (zeros k).toList = List.replicate k '0' := String.toList_ofList

/-- The digits of a number with a point among them, and perhaps an exponent. -/
theorem isNumeralText_withPoint {n k : Nat} (hk : 0 < k) (hlt : k < (Nat.toDigits 10 n).length)
    {e : Option (Bool × Text)} (he : ∀ x ∈ e, AreDigits x.2) :
    IsNumeralText ((withPoint (ofWhole n) k).toList ++ Numeral.exponentText e) := by
  have hds := areDigits_toDigits n
  -- more than one digit, so the number is not nought
  have hhead : (Nat.toDigits 10 n).head? ≠ some '0' := fun h => by
    have hone := length_toDigits_of_head? h
    omega
  have hwhole : AreDigits ((Nat.toDigits 10 n).take k) :=
    ⟨fun h => by simp at h; omega, fun c hc => hds.isDigit c (List.mem_of_mem_take hc)⟩
  have hfraction : AreDigits ((Nat.toDigits 10 n).drop k) :=
    ⟨fun h => by simp at h; omega, fun c hc => hds.isDigit c (List.mem_of_mem_drop hc)⟩
  have hlead : ((Nat.toDigits 10 n).take k).head? ≠ some '0' := by
    rwa [List.head?_take, if_neg (by omega)]
  have hparts := isNumeralText_parts (f := some ((Nat.toDigits 10 n).drop k)) hwhole
    (fun h => absurd h hlead) (by simpa using hfraction) he
  simpa [withPoint, toList_ofWhole, Numeral.fractionText] using hparts

/-- Behind a nought and a point there may be further noughts. -/
theorem isNumeralText_small (k n : Nat) :
    IsNumeralText ("0." ++ zeros k ++ ofWhole n).toList := by
  have hfraction := AreDigits.append_left (areDigits_noughts k) (areDigits_toDigits n)
  have hparts := isNumeralText_parts (f := some (List.replicate k '0' ++ Nat.toDigits 10 n))
    (e := none) areDigits_nought (fun _ => rfl) (by simpa using hfraction) (by simp)
  simpa [toList_ofWhole, toList_zeros, Numeral.fractionText, Numeral.exponentText] using hparts

/-- Behind the digits there may be further noughts before the point. -/
theorem isNumeralText_large {n : Nat} (hn : n ≠ 0) (k : Nat) :
    IsNumeralText (ofWhole n ++ zeros k ++ ".0").toList := by
  have hds := areDigits_toDigits n
  have hlead : (Nat.toDigits 10 n ++ List.replicate k '0').head? ≠ some '0' := by
    obtain ⟨c, cs, hc⟩ := List.exists_cons_of_ne_nil hds.ne_nil
    have hhead := head?_toDigits_ne hn
    rw [hc] at hhead ⊢
    exact hhead
  have hparts := isNumeralText_parts (f := some ['0']) (e := none)
    (hds.append (areDigits_noughts k)) (fun h => absurd h hlead)
    (by simpa using areDigits_nought) (by simp)
  simpa [toList_ofWhole, toList_zeros, Numeral.fractionText, Numeral.exponentText] using hparts

/-- Behind the first digit there may be a point, and then comes the exponent. -/
theorem isNumeralText_exponent (n : Nat) (power : Int) :
    IsNumeralText
      ((if (Nat.toDigits 10 n).length = 1 then ofWhole n else withPoint (ofWhole n) 1) ++ "e" ++
        (if power < 0 then "-" else "") ++ ofWhole power.natAbs).toList := by
  have he : ∀ x ∈ some (decide (power < 0), Nat.toDigits 10 power.natAbs), AreDigits x.2 := by
    simpa using areDigits_toDigits power.natAbs
  have htext : 'e' :: ((if power < 0 then "-" else "").toList ++ Nat.toDigits 10 power.natAbs) =
      Numeral.exponentText (some (decide (power < 0), Nat.toDigits 10 power.natAbs)) := by
    by_cases h : power < 0 <;> simp [h, Numeral.exponentText]
  split
  · rename_i hone
    have hparts := isNumeralText_parts (f := none) (areDigits_toDigits n) (fun _ => hone)
      (by simp) he
    simpa [toList_ofWhole, Numeral.fractionText, ← htext] using hparts
  · rename_i hone
    have hpos : 0 < (Nat.toDigits 10 n).length := Nat.length_toDigits_pos
    have hpoint := isNumeralText_withPoint (n := n) Nat.one_pos (by omega) he
    simpa [toList_ofWhole, ← htext] using hpoint

theorem isNumeralText_ofWhole (n : Nat) : IsNumeralText (ofWhole n).toList := by
  have hparts := isNumeralText_parts (f := none) (e := none) (areDigits_toDigits n)
    length_toDigits_of_head? (by simp) (by simp)
  simpa [toList_ofWhole, Numeral.fractionText, Numeral.exponentText] using hparts

/-- A decimal without an exponent, whose last digit stands behind the point or just before it. -/
theorem isNumeralText_positional {d : Decimal} (h : d.exponent ≤ 0) :
    IsNumeralText d.positional.toList := by
  have hlen : (ofWhole d.digits).length = (Nat.toDigits 10 d.digits).length := by
    rw [← String.length_toList, toList_ofWhole]
  simp only [positional, hlen]
  split
  · rename_i hwhole
    have hzero : d.exponent = 0 := by omega
    simpa [hzero, zeros] using isNumeralText_ofWhole d.digits
  split
  · have hpoint := isNumeralText_withPoint (n := d.digits)
      (k := ((Nat.toDigits 10 d.digits).length + d.exponent).toNat) (e := none) (by omega)
      (by omega) (by simp)
    simpa [Numeral.exponentText] using hpoint
  · exact isNumeralText_small _ d.digits

/-- A decimal with a point kept, or with an exponent. -/
theorem isNumeralText_written (p : Positions) (d : Decimal) :
    IsNumeralText (d.written p).toList := by
  have hlen : (ofWhole d.digits).length = (Nat.toDigits 10 d.digits).length := by
    rw [← String.length_toList, toList_ofWhole]
  simp only [written, hlen]
  split
  · have hparts := isNumeralText_parts (f := some ['0']) (e := none) areDigits_nought (fun _ => rfl)
      (by simpa using areDigits_nought) (by simp)
    simpa [Numeral.fractionText, Numeral.exponentText] using hparts
  rename_i hdigits
  split
  · exact isNumeralText_large hdigits _
  rename_i hlarge
  simp only [Bool.and_eq_true, decide_eq_true_eq] at hlarge ⊢
  split
  · have hpoint := isNumeralText_withPoint (n := d.digits)
      (k := ((Nat.toDigits 10 d.digits).length + d.exponent).toNat) (e := none) (by omega)
      (by omega) (by simp)
    simpa [Numeral.exponentText] using hpoint
  split
  · exact isNumeralText_small _ d.digits
  · exact isNumeralText_exponent d.digits _

end Decimal

end Outline

import Outline.Json.Basic
import Outline.Json.Reader

/-!
# Quoted texts are read back

Between quotes a character stands for itself, or it is written as a backslash with a letter or with
four hexadecimal digits.  Each character is read back from what is written for it, whatever stands
behind (`Quoted.exists_read?_escapeChar`), and so is a whole text up to the closing quote.

The hexadecimal digits are those of a UTF-16 unit, and two units together may be one character; but
the characters that are written so are control characters, which are never half of a pair.

* `Quoted.exists_read?_quoted`: a quoted text is read, and means what was written.
-/

namespace Outline

namespace Quoted

theorem hexValue?_hexDigit : ∀ n < 16, hexValue? (Json.hexDigit n) = some n := by
  decide

/-- A unit below those that form pairs is a character of its own. -/
theorem text?_unit {n : Nat} (h : n < 0xD800) (parts : List Quoted) :
    text? (.unit n :: parts) = (text? parts).map (Char.ofNat n :: ·) := by
  have hhigh : isHigh n = false := by simp [isHigh]; omega
  have hlow : isLow n = false := by simp [isLow]; omega
  cases parts with
  | nil => simp [text?, hhigh, hlow]
  | cons part parts =>
    cases part with
    | char c => simp [text?, hhigh, hlow]
    | unit m => rw [text?, hhigh, hlow]; rfl

/-- A backslash with one of the letters. -/
theorem read?_escape {c : Char} {part : Quoted} (hc : c ≠ 'u') (h : escape? c = some part)
    (rest : Text) :
    read? ('\\' :: c :: rest) = (read? rest).map fun r => (part :: r.1, r.2) := by
  rw [read?]
  · rw [h]
    cases read? rest <;> rfl
  · rintro _ _ _ _ _ hu
    exact absurd hu hc

/-- A backslash with hexadecimal digits. -/
theorem read?_unit {n : Nat} (hn : n < 32) (rest : Text) :
    read? ('\\' :: 'u' :: '0' :: '0' :: Json.hexDigit (n / 16) :: Json.hexDigit (n % 16) :: rest) =
      (read? rest).map fun r => (.unit n :: r.1, r.2) := by
  have hunit : unit? '0' '0' (Json.hexDigit (n / 16)) (Json.hexDigit (n % 16)) =
      some (.unit n) := by
    have hzero : hexValue? '0' = some 0 := by decide
    rw [unit?, hzero, hexValue?_hexDigit (n / 16) (by omega),
      hexValue?_hexDigit (n % 16) (by omega)]
    simp only [Option.bind_eq_bind, Option.bind_some, Option.pure_def, Option.some_inj,
      Quoted.unit.injEq]
    omega
  rw [read?, hunit]
  cases read? rest <;> rfl

/-- A character that stands for itself. -/
theorem read?_plain {c : Char} (hquote : c ≠ '"') (hslash : c ≠ '\\') (hc : 32 ≤ c.toNat)
    (rest : Text) :
    read? (c :: rest) = (read? rest).map fun r => (.char c :: r.1, r.2) := by
  rw [read?]
  · rw [if_neg (by simp [hslash]; omega)]
  · exact hquote
  · exact fun _ _ _ _ _ h => absurd h hslash
  · exact fun _ _ h => absurd h hslash

theorem text?_char (c : Char) (parts : List Quoted) :
    text? (.char c :: parts) = (text? parts).map (c :: ·) := by
  rw [text?]

/-- What is written for a character: a backslash with a letter, a backslash with four digits, or the
character. -/
theorem escapeChar_cases (c : Char) :
    (∃ d, d ≠ 'u' ∧ escape? d = some (.char c) ∧ Json.escapeChar c = ['\\', d]) ∨
      (c.toNat < 32 ∧ Json.escapeChar c = ['\\', 'u', '0', '0', Json.hexDigit (c.toNat / 16),
        Json.hexDigit (c.toNat % 16)]) ∨
      (c ≠ '"' ∧ c ≠ '\\' ∧ 32 ≤ c.toNat ∧ Json.escapeChar c = [c]) := by
  by_cases hletter : c ∈ ['"', '\\', '\n', '\r', '\t', '\x08', '\x0c']
  · refine Or.inl ?_
    simp only [List.mem_cons, List.not_mem_nil, or_false] at hletter
    rcases hletter with rfl | rfl | rfl | rfl | rfl | rfl | rfl <;>
      exact ⟨_, by decide, rfl, rfl⟩
  · refine Or.inr ?_
    simp only [List.mem_cons, List.not_mem_nil, or_false, not_or] at hletter
    obtain ⟨hquote, hslash, hn, hr, ht, hb, hf⟩ := hletter
    rw [Json.escapeChar, if_neg hquote, if_neg hslash, if_neg hn, if_neg hr, if_neg ht, if_neg hb,
      if_neg hf]
    by_cases hlt : c.toNat < 32
    · exact Or.inl ⟨hlt, if_pos hlt⟩
    · exact Or.inr ⟨hquote, hslash, Nat.not_lt.mp hlt, if_neg hlt⟩

/-- Each character is read back from what is written for it. -/
theorem exists_read?_escapeChar (c : Char) (rest : Text) :
    ∃ part, read? (Json.escapeChar c ++ rest) =
        (read? rest).map (fun r => (part :: r.1, r.2)) ∧
      ∀ parts, text? (part :: parts) = (text? parts).map (c :: ·) := by
  rcases escapeChar_cases c with ⟨d, hd, hletter, h⟩ | ⟨hlt, h⟩ | ⟨hquote, hslash, hge, h⟩
  · rw [h]
    exact ⟨.char c, read?_escape hd hletter rest, text?_char c⟩
  · rw [h]
    refine ⟨.unit c.toNat, read?_unit hlt rest, fun parts => ?_⟩
    rw [text?_unit (by omega), Char.ofNat_toNat]
  · rw [h]
    exact ⟨.char c, read?_plain hquote hslash hge rest, text?_char c⟩

/-- A quoted text is read up to the closing quote, and means what was written. -/
theorem exists_read?_quoted (t rest : Text) :
    ∃ parts, read? (t.flatMap Json.escapeChar ++ '"' :: rest) = some (parts, rest) ∧
      text? parts = some t := by
  induction t with
  | nil => exact ⟨[], by rw [List.flatMap_nil, List.nil_append, read?], by rw [text?]⟩
  | cons c t ih =>
    obtain ⟨parts, hread, htext⟩ := ih
    obtain ⟨part, hpart, hmeans⟩ :=
      exists_read?_escapeChar c (t.flatMap Json.escapeChar ++ '"' :: rest)
    refine ⟨part :: parts, ?_, ?_⟩
    · rw [List.flatMap_cons, List.append_assoc, hpart, hread]
      rfl
    · rw [hmeans, htext]
      rfl

end Quoted

end Outline

import Outline.Proofs.Text.Lines

/-!
# Cutting a text at bytes

A byte position cuts a text in two only where it lies between two characters, and then the first
part is that many bytes long (`eq_append_of_splitAtByte?`).  So a range of bytes, if it can be cut
out at all, is a piece of the text with something before and after it (`exists_of_byteRange?`).

The lines of a text are known by the bytes at which they begin, in ascending order
(`pairwise_lt_lineStarts`): the first one, and those just after a line feed (`mem_lineStarts_iff`).
So the number of the line that holds a byte is the number of lines that have begun there
(`lineOfByte_eq`).  At a cut these are the first line and one for each line feed before the cut
(`length_filter_lineStarts`).
-/

namespace Outline.Text

@[simp] theorem byteLength_nil : byteLength [] = 0 := rfl

@[simp] theorem byteLength_cons (c : Char) (t : Text) :
    byteLength (c :: t) = c.utf8Size + byteLength t := rfl

theorem byteLength_append : ∀ t u : Text, byteLength (t ++ u) = byteLength t + byteLength u
  | [], u => (Nat.zero_add _).symm
  | c :: t, u => by
    rw [List.cons_append, byteLength_cons, byteLength_append t u, byteLength_cons, Nat.add_assoc]

/-! ## Cuts -/

theorem eq_append_of_splitAtByte? : ∀ {t : Text} {n : Nat} {a b : Text},
    splitAtByte? n t = some (a, b) → t = a ++ b ∧ byteLength a = n
  | t, 0, a, b, h => by
    rw [splitAtByte?] at h
    obtain ⟨rfl, rfl⟩ := Prod.mk.inj (Option.some.inj h)
    exact ⟨rfl, rfl⟩
  | [], n + 1, a, b, h => by
    rw [splitAtByte?] at h
    exact absurd h (by simp)
  | c :: cs, n + 1, a, b, h => by
    rw [splitAtByte?] at h
    split at h
    · rename_i hle
      obtain ⟨⟨u, v⟩, huv, hab⟩ := Option.map_eq_some_iff.mp h
      obtain ⟨rfl, rfl⟩ := Prod.mk.inj hab
      obtain ⟨rfl, hlength⟩ := eq_append_of_splitAtByte? huv
      refine ⟨rfl, ?_⟩
      rw [byteLength_cons, hlength]
      omega
    · exact absurd h (by simp)

/-- What lies between two bytes is a piece of the text. -/
theorem exists_of_byteRange? {t piece : Text} {start stop : Nat}
    (h : t.byteRange? start stop = some piece) :
    ∃ pre post, t = pre ++ piece ++ post ∧ byteLength pre = start ∧
      byteLength (pre ++ piece) = stop := by
  rw [byteRange?] at h
  split at h
  · exact absurd h (by simp)
  · rename_i hle
    obtain ⟨⟨pre, rest⟩, hpre, h⟩ := Option.bind_eq_some_iff.mp h
    obtain ⟨⟨middle, post⟩, hmiddle, h⟩ := Option.bind_eq_some_iff.mp h
    obtain rfl : middle = piece := Option.some.inj h
    obtain ⟨rfl, hstart⟩ := eq_append_of_splitAtByte? hpre
    obtain ⟨rfl, hstop⟩ := eq_append_of_splitAtByte? hmiddle
    refine ⟨pre, post, (List.append_assoc _ _ _).symm, hstart, ?_⟩
    rw [byteLength_append, hstart, hstop]
    omega

/-! ## Line starts -/

/-- Later lines begin behind the text before them. -/
theorem lt_of_mem_startsAfter : ∀ {t : Text} {start byte : Nat},
    byte ∈ startsAfter start t → start < byte
  | [], start, byte, h => absurd h List.not_mem_nil
  | c :: cs, start, byte, h => by
    have hpos := c.utf8Size_pos
    rw [startsAfter] at h
    split at h
    · rcases List.mem_cons.mp h with rfl | h
      · omega
      · have hlt := lt_of_mem_startsAfter h
        omega
    · have hlt := lt_of_mem_startsAfter h
      omega

/-- A line begins at a byte: at the first one, or at one just after a line feed. -/
def BeginsLine (t : Text) (byte : Nat) : Prop :=
  byte = 0 ∨ ∃ pre post, t = pre ++ '\n' :: post ∧ byte = byteLength pre + 1

theorem mem_startsAfter_iff : ∀ {t : Text} {start byte : Nat}, byte ∈ startsAfter start t ↔
    ∃ pre post, t = pre ++ '\n' :: post ∧ byte = start + byteLength pre + 1
  | [], start, byte => by simp [startsAfter]
  | c :: cs, start, byte => by
    have hrest := @mem_startsAfter_iff cs (start + c.utf8Size) byte
    constructor
    · intro h
      rw [startsAfter] at h
      by_cases hc : c = '\n' ∧ byte = start + c.utf8Size
      · obtain ⟨rfl, rfl⟩ := hc
        exact ⟨[], cs, rfl, rfl⟩
      · have hlater : byte ∈ startsAfter (start + c.utf8Size) cs := by
          split at h
          · exact (List.mem_cons.mp h).resolve_left fun hb => hc ⟨‹_›, hb⟩
          · exact h
        obtain ⟨pre, post, rfl, rfl⟩ := hrest.mp hlater
        exact ⟨c :: pre, post, rfl, by rw [byteLength_cons, Nat.add_assoc start]⟩
    · rintro ⟨pre, post, hsplit, rfl⟩
      rw [startsAfter]
      cases pre with
      | nil =>
        obtain ⟨rfl, -⟩ := List.cons.inj hsplit
        exact List.mem_cons_self
      | cons d pre =>
        obtain ⟨rfl, rfl⟩ := List.cons.inj hsplit
        have hbyte : start + byteLength (c :: pre) + 1 =
            start + c.utf8Size + byteLength pre + 1 := by
          rw [byteLength_cons, ← Nat.add_assoc]
        have hlater := hrest.mpr ⟨pre, post, rfl, hbyte⟩
        split
        · exact List.mem_cons_of_mem _ hlater
        · exact hlater

/-- The bytes at which lines begin. -/
theorem mem_lineStarts_iff {t : Text} {byte : Nat} : byte ∈ lineStarts t ↔ t.BeginsLine byte := by
  rw [lineStarts, List.mem_cons, mem_startsAfter_iff, BeginsLine]
  simp only [Nat.zero_add]

theorem le_byteLength_of_mem_lineStarts {t : Text} {byte : Nat} (h : byte ∈ lineStarts t) :
    byte ≤ byteLength t := by
  rcases mem_lineStarts_iff.mp h with rfl | ⟨pre, post, rfl, rfl⟩
  · exact Nat.zero_le _
  · have hfeed : Char.utf8Size '\n' = 1 := rfl
    rw [byteLength_append, byteLength_cons, hfeed]
    omega

theorem newlinesBefore_zero (t : Text) : newlinesBefore 0 t = 0 := by
  cases t <;> rfl

/-- The line feeds among some bytes are those after which a line has begun. -/
theorem newlinesBefore_eq : ∀ (t : Text) (n start : Nat),
    newlinesBefore n t = ((startsAfter start t).filter (· ≤ start + n)).length
  | [], n, start => rfl
  | c :: cs, n, start => by
    have hpos := c.utf8Size_pos
    by_cases hn : c.utf8Size ≤ n
    · have hrest := newlinesBefore_eq cs (n - c.utf8Size) (start + c.utf8Size)
      have hend : start + c.utf8Size + (n - c.utf8Size) = start + n := by omega
      rw [newlinesBefore, if_neg (by omega), hrest, hend, startsAfter]
      split
      · rw [List.filter_cons, if_pos (decide_eq_true (by omega)), List.length_cons, Nat.add_comm]
      · rw [Nat.zero_add]
    · -- the bytes end inside the first character, which is then not a line feed
      have hnone : (startsAfter start (c :: cs)).filter (· ≤ start + n) = [] := by
        refine List.filter_eq_nil_iff.mpr fun byte hbyte => ?_
        rw [startsAfter] at hbyte
        have hle : start + c.utf8Size ≤ byte := by
          split at hbyte
          · rcases List.mem_cons.mp hbyte with rfl | hbyte
            · exact Nat.le_refl _
            · exact Nat.le_of_lt (lt_of_mem_startsAfter hbyte)
          · exact Nat.le_of_lt (lt_of_mem_startsAfter hbyte)
        rw [decide_eq_true_eq]
        omega
      have hfeed : n ≠ 0 → c ≠ '\n' := by
        rintro hzero rfl
        have hone : Char.utf8Size '\n' = 1 := rfl
        omega
      rw [hnone, newlinesBefore, Nat.sub_eq_zero_of_le (by omega), newlinesBefore_zero]
      split
      · rfl
      · rw [if_neg (hfeed ‹_›)]
        rfl

/-- The line that holds a byte is the last one that has begun there. -/
theorem lineOfByte_eq (t : Text) (offset : Nat) :
    t.lineOfByte offset = (t.lineStarts.filter (· ≤ offset)).length := by
  have hlater := newlinesBefore_eq t offset 0
  rw [Nat.zero_add] at hlater
  rw [lineOfByte, hlater, lineStarts, List.filter_cons, if_pos (by simp), List.length_cons]

theorem pairwise_lt_startsAfter : ∀ (t : Text) (start : Nat),
    (startsAfter start t).Pairwise (· < ·)
  | [], start => List.Pairwise.nil
  | c :: cs, start => by
    have hrest := pairwise_lt_startsAfter cs (start + c.utf8Size)
    rw [startsAfter]
    split
    · exact List.Pairwise.cons (fun byte h => lt_of_mem_startsAfter h) hrest
    · exact hrest

/-- Lines begin one after the other. -/
theorem pairwise_lt_lineStarts (t : Text) : (lineStarts t).Pairwise (· < ·) :=
  List.Pairwise.cons (fun _ h => lt_of_mem_startsAfter h) (pairwise_lt_startsAfter t 0)

/-- The line feeds before a cut. -/
theorem newlinesBefore_append (post : Text) : ∀ pre : Text,
    newlinesBefore (byteLength pre) (pre ++ post) = newlines pre
  | [] => newlinesBefore_zero post
  | c :: cs => by
    have hpos := c.utf8Size_pos
    rw [List.cons_append, byteLength_cons, newlinesBefore, if_neg (by omega),
      Nat.add_sub_cancel_left, newlinesBefore_append post cs, newlines_cons, Nat.add_comm]

/-- Of the lines of a text, the first one and one for each line feed have begun at a cut. -/
theorem length_filter_lineStarts (pre post : Text) :
    ((lineStarts (pre ++ post)).filter (· ≤ byteLength pre)).length = newlines pre + 1 := by
  rw [← lineOfByte_eq, lineOfByte, newlinesBefore_append]

end Outline.Text

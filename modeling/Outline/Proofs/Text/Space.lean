import Outline.Text.Basic

/-!
# White space

White space is a class of characters in the definition.  Here it is a list of code points, so that a
table can be checked against it by evaluation (`forall_of_spaceCodes`); the table of the characters
of words is one of these (`isWord_eq_false_of_isSpace`).

* `head?_dropWhile_reverse`: the last character of a text that is not white space.
-/

namespace Outline

/-- The code points of white space. -/
def spaceCodes : List Nat :=
  List.range' 9 5 ++ [32, 133, 160, 5760] ++ List.range' 8192 11 ++ [8232, 8233, 8239, 8287, 12288]

theorem toNat_mem_spaceCodes {c : Char} (h : isSpace c = true) : c.toNat ∈ spaceCodes := by
  simp only [isSpace, Bool.or_eq_true, Bool.and_eq_true, decide_eq_true_eq, beq_iff_eq] at h
  simp only [spaceCodes, List.mem_append, List.mem_range'_1, List.mem_cons, List.not_mem_nil,
    or_false]
  omega

/-- What is checked on the list holds of all white space. -/
theorem forall_of_spaceCodes {p : Char → Prop} (h : ∀ n ∈ spaceCodes, p (Char.ofNat n)) {c : Char}
    (hc : isSpace c = true) : p c := by
  have hp := h c.toNat (toNat_mem_spaceCodes hc)
  rwa [Char.ofNat_toNat] at hp

/-- White space separates words. -/
theorem isWord_eq_false_of_isSpace {c : Char} (h : isSpace c = true) : isWord c = false := by
  have hcodes : ∀ n ∈ spaceCodes, isWord (Char.ofNat n) = false := by decide +kernel
  exact forall_of_spaceCodes (p := fun d => isWord d = false) hcodes h

theorem isSpace_eq_false_of_isWord {c : Char} (h : isWord c = true) : isSpace c = false := by
  cases hspace : isSpace c with
  | false => rfl
  | true =>
    rw [isWord_eq_false_of_isSpace hspace] at h
    exact absurd h (by decide)

/-- The last character that is not white space is seen from behind. -/
theorem head?_dropWhile_reverse {u gap : Text} {c : Char} (hgap : ∀ c ∈ gap, isSpace c = true)
    (hc : isSpace c = false) : ((u ++ c :: gap).reverse.dropWhile isSpace).head? = some c := by
  rw [List.reverse_append, List.reverse_cons, List.append_assoc,
    List.dropWhile_append_of_pos fun d hd => hgap d (List.mem_reverse.mp hd),
    List.singleton_append, List.dropWhile_cons_of_neg (by rw [hc]; decide), List.head?_cons]

end Outline

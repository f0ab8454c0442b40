import Mathlib.Data.List.GetD
import Mathlib.Data.List.Pairwise
import Mathlib.Order.Bounds.Basic
import Outline.Number.Ascending

/-!
# Searching a list in ascending order

A search by halves keeps two facts up about the entries that it has left out: those before the ones
that may still be it are below the number, and those behind them are above it.  Each half that is
left out is on one side of the middle entry, so both facts follow from the order of the list
(`isOf_slotFrom`).  What is found in the end says which entries are not above the number: they are
the first ones of the list, as many as the slot counts (`filter_le_eq_take`).

* `Slot.IsOf`: a slot tells where a number belongs.
* `isOf_slotOf`: the search is right.
-/

namespace Outline

variable {entries : List Nat} {x : Nat}

/-- A slot tells the truth about a number: the number is the entry at an index, or all entries
before an index are below it and the others above it. -/
def Slot.IsOf (entries : List Nat) (x : Nat) : Slot → Prop
  | .found index => entries[index]? = some x
  | .missing index => index ≤ entries.length ∧
      (∀ y ∈ entries.take index, y < x) ∧ ∀ y ∈ entries.drop index, x < y

/-- The number of entries up to a slot. -/
def Slot.count : Slot → Nat
  | .found index => index + 1
  | .missing index => index

/-! ## An entry and its two sides -/

theorem take_succ_eq_append_getD {base : Nat} (hbase : base < entries.length) :
    entries.take (base + 1) = entries.take base ++ [entries.getD base 0] := by
  rw [List.getD_eq_getElem _ _ hbase, List.take_append_getElem]

theorem drop_eq_getD_cons {base : Nat} (hbase : base < entries.length) :
    entries.drop base = entries.getD base 0 :: entries.drop (base + 1) := by
  rw [List.getD_eq_getElem _ _ hbase, List.drop_eq_getElem_cons hbase]

theorem drop_subset_drop {m n : Nat} (h : m ≤ n) : entries.drop n ⊆ entries.drop m := by
  obtain ⟨k, rfl⟩ := Nat.exists_eq_add_of_le h
  rw [← List.drop_drop]
  exact List.drop_subset k _

/-- What stands before an entry is below it, and what stands behind it is above it. -/
theorem lt_entry_and_entry_lt (h : entries.Pairwise (· < ·)) {base : Nat}
    (hbase : base < entries.length) : (∀ y ∈ entries.take base, y < entries.getD base 0) ∧
      ∀ y ∈ entries.drop (base + 1), entries.getD base 0 < y := by
  rw [← List.take_append_drop base entries, drop_eq_getD_cons hbase] at h
  obtain ⟨-, hbehind, hbefore⟩ := List.pairwise_append.mp h
  exact ⟨fun y hy => hbefore y hy _ List.mem_cons_self, (List.pairwise_cons.mp hbehind).1⟩

/-! ## The search -/

theorem isOf_slotFrom (h : entries.Pairwise (· < ·)) (base size : Nat) (hsize : 0 < size)
    (hle : base + size ≤ entries.length) (hbefore : ∀ y ∈ entries.take base, y < x)
    (hbehind : ∀ y ∈ entries.drop (base + size), x < y) :
    (slotFrom entries x base size).IsOf entries x := by
  induction base, size using slotFrom.induct entries x with
  | case1 base size hone entry heq =>
    have hbase : base < entries.length := by omega
    rw [slotFrom, if_pos hone, if_pos heq, Slot.IsOf, List.getElem?_eq_getElem hbase, ← heq,
      ← List.getD_eq_getElem _ 0 hbase]
  | case2 base size hone entry hne =>
    obtain rfl : size = 1 := by omega
    have hbase : base < entries.length := by omega
    rw [slotFrom, if_pos hone, if_neg hne]
    split
    · rename_i hlt
      refine ⟨hle, ?_, hbehind⟩
      rw [take_succ_eq_append_getD hbase]
      exact List.forall_mem_append.mpr ⟨hbefore, List.forall_mem_singleton.mpr hlt⟩
    · rename_i hge
      refine ⟨Nat.le_of_lt hbase, hbefore, ?_⟩
      rw [drop_eq_getD_cons hbase]
      exact List.forall_mem_cons.mpr ⟨by omega, hbehind⟩
  | case3 base size hone middle ih =>
    have hmiddle : middle < entries.length := by
      simp only [middle]
      omega
    obtain ⟨hbelow, habove⟩ := lt_entry_and_entry_lt h hmiddle
    rw [slotFrom, if_neg hone]
    change (slotFrom entries x (if x < entries.getD middle 0 then base else middle) _).IsOf _ _
    split at ih <;> rename_i hlt
    · -- the upper half is left out: all of it is above the number
      rw [if_pos hlt]
      refine ih (by omega) (by omega) hbefore fun y hy => ?_
      have hmem : y ∈ entries.drop middle := drop_subset_drop (by simp only [middle]; omega) hy
      rw [drop_eq_getD_cons hmiddle, List.mem_cons] at hmem
      rcases hmem with rfl | hmem
      · exact hlt
      · exact Nat.lt_trans hlt (habove y hmem)
    · rw [if_neg hlt]
      have hend : middle + (size - size / 2) = base + size := by
        simp only [middle]
        omega
      refine ih (by omega) (hend ▸ hle) ?_ (hend ▸ hbehind)
      exact fun y hy => Nat.lt_of_lt_of_le (hbelow y hy) (Nat.not_lt.mp hlt)

/-- In a list in ascending order, the search tells where a number belongs. -/
theorem isOf_slotOf (h : entries.Pairwise (· < ·)) (x : Nat) :
    (slotOf entries x).IsOf entries x := by
  rw [slotOf]
  split
  · rename_i hempty
    obtain rfl := List.isEmpty_iff.mp hempty
    exact ⟨Nat.le_refl 0, by simp, by simp⟩
  · rename_i hne
    have hpos : 0 < entries.length := List.length_pos_iff.mpr (by simpa using hne)
    exact isOf_slotFrom h 0 entries.length hpos (by omega) (by simp) (by simp)

/-- The entries that are not above a number are those up to its slot. -/
theorem filter_le_eq_take (h : entries.Pairwise (· < ·)) {slot : Slot}
    (hslot : slot.IsOf entries x) :
    slot.count ≤ entries.length ∧ entries.filter (· ≤ x) = entries.take slot.count := by
  have hsides : slot.count ≤ entries.length ∧ (∀ y ∈ entries.take slot.count, y ≤ x) ∧
      ∀ y ∈ entries.drop slot.count, x < y := by
    cases slot with
    | found index =>
      obtain ⟨hindex, hx⟩ := List.getElem?_eq_some_iff.mp hslot
      rw [← List.getD_eq_getElem _ 0 hindex] at hx
      obtain ⟨hbelow, habove⟩ := lt_entry_and_entry_lt h hindex
      rw [hx] at hbelow habove
      refine ⟨hindex, ?_, habove⟩
      rw [Slot.count, take_succ_eq_append_getD hindex, hx]
      exact List.forall_mem_append.mpr
        ⟨fun y hy => Nat.le_of_lt (hbelow y hy), List.forall_mem_singleton.mpr (Nat.le_refl x)⟩
    | missing index => exact ⟨hslot.1, fun y hy => Nat.le_of_lt (hslot.2.1 y hy), hslot.2.2⟩
  obtain ⟨hle, hbefore, hbehind⟩ := hsides
  refine ⟨hle, ?_⟩
  calc entries.filter (· ≤ x)
      = (entries.take slot.count ++ entries.drop slot.count).filter (· ≤ x) := by
        rw [List.take_append_drop]
    _ = entries.take slot.count := by
        rw [List.filter_append, List.filter_eq_self.mpr fun y hy => decide_eq_true (hbefore y hy),
          List.filter_eq_nil_iff.mpr fun y hy => by simpa using hbehind y hy, List.append_nil]

/-- The last entry is the greatest one. -/
theorem isGreatest_getLastD (h : entries.Pairwise (· < ·)) (hne : entries ≠ []) :
    IsGreatest {y | y ∈ entries} (entries.getLastD 0) := by
  obtain ⟨before, last, rfl⟩ := (List.eq_nil_or_concat entries).resolve_left hne
  rw [List.concat_eq_append, List.getLastD_concat]
  rw [List.concat_eq_append] at h
  refine ⟨List.mem_append_right _ List.mem_cons_self, fun y hy => ?_⟩
  rcases List.mem_append.mp hy with hy | hy
  · exact Nat.le_of_lt ((List.pairwise_append.mp h).2.2 y hy last List.mem_cons_self)
  · exact Nat.le_of_eq (List.mem_singleton.mp hy)

end Outline

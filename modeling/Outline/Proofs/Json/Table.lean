import Mathlib.Data.String.Basic
import Outline.Json.Basic

/-!
# Tables of attributes

A table is read with `lookup`.  Giving a key a value changes what is read under this key only
(`Fields.lookup_insert`), so a table with another one on top of it reads as the upper one where
that has a value and as the lower one elsewhere (`Fields.lookup_extend`).  A table in the order of
its keys is determined by what is read from it (`Fields.IsOrdered.eq_of_lookup_eq`).  So it does not
matter in which order three tables are put on top of each other (`Attributes.extend_assoc`).
-/

namespace Outline

namespace Fields

theorem lookup_cons (j : String) (v : Json) (rest : Fields) (k : String) :
    List.lookup k ((j, v) :: rest) = if k = j then some v else rest.lookup k := by
  rw [List.lookup_cons]
  by_cases hk : k = j
  · rw [if_pos hk, beq_iff_eq.mpr hk]
  · rw [if_neg hk, beq_eq_false_iff_ne.mpr hk]

theorem lookup_insert (key : String) (value : Json) (k : String) : ∀ table : Fields,
    (table.insert key value).lookup k = if k = key then some value else table.lookup k
  | [] => lookup_cons key value [] k
  | (j, v) :: rest => by
    rw [insert]
    split
    · rename_i hj
      rw [lookup_cons, lookup_cons, ← hj]
      split <;> rfl
    · rename_i hj
      split
      · rw [lookup_cons]
      · rw [lookup_cons, lookup_cons, lookup_insert key value k rest]
        by_cases hkj : k = j
        · have hk : k ≠ key := fun hk => hj (hk.symm.trans hkj)
          rw [if_pos hkj, if_neg hk, if_pos hkj]
        · rw [if_neg hkj, if_neg hkj]

/-- Under a key that is smaller than all others there is nothing. -/
theorem lookup_eq_none_of_lt {table : Fields} {k : String} (h : ∀ e ∈ table, k < e.1) :
    table.lookup k = none := by
  rw [List.lookup_eq_none_iff]
  exact fun e he => bne_iff_ne.mpr (ne_of_lt (h e he))

/-- What the upper table has no value for is read from the lower one. -/
theorem lookup_extend (k : String) : ∀ {new : Fields} (table : Fields), new.IsOrdered →
    (table.extend new).lookup k = (new.lookup k).or (table.lookup k)
  | [], _, _ => rfl
  | (j, v) :: new, table, h => by
    obtain ⟨hj, hnew⟩ := List.pairwise_cons.mp h
    have hextend : table.extend ((j, v) :: new) = (table.insert j v).extend new := rfl
    rw [hextend, lookup_extend k (table.insert j v) hnew, lookup_insert, lookup_cons]
    by_cases hk : k = j
    · -- the key of the first entry does not come again
      have hnone : new.lookup k = none := lookup_eq_none_of_lt fun e he => hk ▸ hj e he
      rw [hnone, if_pos hk, if_pos hk]
      rfl
    · rw [if_neg hk, if_neg hk]

/-- A first key that is smaller than all keys of another table cannot be read there. -/
theorem IsOrdered.le_of_lookup_eq {i j : String} {u v : Json} {a b : Fields}
    (hb : IsOrdered ((j, v) :: b))
    (h : ∀ k, List.lookup k ((i, u) :: a) = List.lookup k ((j, v) :: b)) : j ≤ i := by
  by_contra hlt
  have hnone : List.lookup i ((j, v) :: b) = none := by
    refine lookup_eq_none_of_lt (List.forall_mem_cons.mpr ⟨not_le.mp hlt, fun e he => ?_⟩)
    exact (not_le.mp hlt).trans ((List.pairwise_cons.mp hb).1 e he)
  rw [← h i, lookup_cons, if_pos rfl] at hnone
  cases hnone

/-- Tables in the order of their keys that read alike are equal. -/
theorem IsOrdered.eq_of_lookup_eq : ∀ {a b : Fields}, a.IsOrdered → b.IsOrdered →
    (∀ k, a.lookup k = b.lookup k) → a = b
  | [], [], _, _, _ => rfl
  | [], (j, v) :: b, _, _, h => by
    have hj := h j
    simp at hj
  | (i, u) :: a, [], _, _, h => by
    have hi := h i
    simp at hi
  | (i, u) :: a, (j, v) :: b, ha, hb, h => by
    obtain ⟨hi, ha'⟩ := List.pairwise_cons.mp ha
    obtain ⟨hj, hb'⟩ := List.pairwise_cons.mp hb
    have hij : i = j :=
      le_antisymm (ha.le_of_lookup_eq fun k => (h k).symm) (hb.le_of_lookup_eq h)
    subst hij
    have huv : u = v := by
      have hvalue := h i
      rw [lookup_cons, lookup_cons, if_pos rfl, if_pos rfl] at hvalue
      exact Option.some.inj hvalue
    subst huv
    refine congrArg ((i, u) :: ·) (eq_of_lookup_eq ha' hb' fun k => ?_)
    by_cases hk : k = i
    · rw [hk, lookup_eq_none_of_lt hi, lookup_eq_none_of_lt hj]
    · have hrest := h k
      rwa [lookup_cons, lookup_cons, if_neg hk, if_neg hk] at hrest

end Fields

/-- It does not matter in which order three tables are put on top of each other. -/
theorem Attributes.extend_assoc (a b c : Attributes) :
    (a.extend b).extend c = a.extend (b.extend c) := by
  refine Attributes.ext (((a.extend b).extend c).ordered.eq_of_lookup_eq
    (a.extend (b.extend c)).ordered fun k => ?_)
  have hleft : ((a.extend b).extend c).fields.lookup k =
      (c.fields.lookup k).or ((b.fields.lookup k).or (a.fields.lookup k)) := by
    rw [extend, Fields.lookup_extend k _ c.ordered, extend, Fields.lookup_extend k _ b.ordered]
  have hright : (a.extend (b.extend c)).fields.lookup k =
      ((c.fields.lookup k).or (b.fields.lookup k)).or (a.fields.lookup k) := by
    rw [extend, Fields.lookup_extend k _ (b.extend c).ordered, extend,
      Fields.lookup_extend k _ c.ordered]
  rw [hleft, hright, Option.or_assoc]

end Outline

/-!
# Lists in ascending order

Where a number stands in a list in ascending order is found by halves: of the entries that may
still be the one, the middle one is looked at, and half of them are left out.

* `Slot`: where a number stands, or where it would have to be put in.
* `slotOf`: the search.
-/

namespace Outline

/-- Where a number belongs in a list in ascending order. -/
inductive Slot where
  /-- It is the entry at an index. -/
  | found (index : Nat)
  /-- It is no entry, and would have to be put in at an index. -/
  | missing (index : Nat)
  deriving DecidableEq, Repr

/-- The search among `size` entries from `base` on, until one of them is left. -/
def slotFrom (entries : List Nat) (x base size : Nat) : Slot :=
  if size ≤ 1 then
    let entry := entries.getD base 0
    if entry = x then .found base
    else .missing (if entry < x then base + 1 else base)
  else
    let middle := base + size / 2
    slotFrom entries x (if x < entries.getD middle 0 then base else middle) (size - size / 2)
termination_by size

/-- Where a number belongs in a list in ascending order. -/
def slotOf (entries : List Nat) (x : Nat) : Slot :=
  if entries.isEmpty then .missing 0 else slotFrom entries x 0 entries.length

end Outline

/-!
# Locations

A location is a run of lines, counted from one, with its first and last line included.  The
bounds `1 ≤ start ≤ stop` belong to the type, so no user of a location has to check them.

* `Location.clamped`: from any two numbers.
* `Location.lineCount`, `Location.containsLine`.
* `Point`: a row and a byte column, counted from zero, in the order of reading.
-/

namespace Outline

/-- A run of lines. -/
@[ext] structure Location where
  start : Nat
  stop : Nat
  one_le_start : 1 ≤ start
  start_le_stop : start ≤ stop
  deriving DecidableEq, Repr

namespace Location

/-- The location nearest to the given lines: a start below one is one, an end before the start is
the start. -/
def clamped (start stop : Nat) : Location :=
  ⟨max start 1, max stop (max start 1), Nat.le_max_right .., Nat.le_max_right ..⟩

instance : Inhabited Location := ⟨clamped 1 1⟩

/-- The number of lines. -/
def lineCount (l : Location) : Nat := l.stop - l.start + 1

/-- Whether a line belongs to the location. -/
def containsLine (l : Location) (line : Nat) : Bool := l.start ≤ line && line ≤ l.stop

end Location

/-- A place in a text: row and byte column, counted from zero. -/
@[ext] structure Point where
  row : Nat
  column : Nat
  deriving DecidableEq, Repr, Inhabited

namespace Point

instance : LE Point := ⟨fun a b => a.row < b.row ∨ (a.row = b.row ∧ a.column ≤ b.column)⟩

instance (a b : Point) : Decidable (a ≤ b) :=
  inferInstanceAs (Decidable (a.row < b.row ∨ (a.row = b.row ∧ a.column ≤ b.column)))

end Point

end Outline

import Outline.Number.Double

/-!
# JSON values

The reports of the library are JSON values.  Objects keep their fields in order; numbers are
whole, decimal as they were given, or floats of one of the two formats.

* `Json`: the values.
* `Json.compact`, `Json.pretty`: their texts, on one line and on several.
* `Fields.insert`, `Fields.extend`: objects as tables from keys to values, in the order of keys.
* `Attributes`: such a table, with the order of its keys.
-/

namespace Outline

/-- A JSON value. -/
inductive Json where
  | null
  | bool (b : Bool)
  | whole (n : Int)
  /-- The number `digits · 10 ^ -places`. -/
  | decimal (digits : Int) (places : Nat)
  | single (x : Single)
  | double (x : Double)
  | text (s : String)
  | list (items : List Json)
  | object (fields : List (String × Json))
  deriving Repr, Inhabited

namespace Json

/-- A number that counts something. -/
def count (n : Nat) : Json := .whole n

/-- A value that may be absent, written as `null` when it is. -/
def optional {α : Type} (f : α → Json) : Option α → Json
  | none => .null
  | some a => f a

/-! ## Texts -/

/-- The digit of a number below sixteen. -/
def hexDigit (n : Nat) : Char := Char.ofNat (if n < 10 then 48 + n else 87 + n)

/-- A character inside quotes: quotes, backslashes and control characters are escaped. -/
def escapeChar (c : Char) : List Char :=
  if c = '"' then ['\\', '"']
  else if c = '\\' then ['\\', '\\']
  else if c = '\n' then ['\\', 'n']
  else if c = '\r' then ['\\', 'r']
  else if c = '\t' then ['\\', 't']
  else if c = '\x08' then ['\\', 'b']
  else if c = '\x0c' then ['\\', 'f']
  else if c.toNat < 32 then
    ['\\', 'u', '0', '0', hexDigit (c.toNat / 16), hexDigit (c.toNat % 16)]
  else [c]

/-- A text between quotes. -/
def quoted (s : String) : String :=
  "\"" ++ String.ofList (s.toList.flatMap escapeChar) ++ "\""

/-- A whole number. -/
def integer (n : Int) : String :=
  (if n < 0 then "-" else "") ++ Decimal.ofWhole n.natAbs

/-- A decimal number with a point before its last `places` digits. -/
def pointed (digits : Int) (places : Nat) : String :=
  (if digits < 0 then "-" else "") ++ Decimal.positional ⟨digits.natAbs, -(places : Int)⟩

/-- A 32-bit float; JSON has no infinite numbers. -/
def ofSingle (x : Single) : String := if x.isFinite then x.written else "null"

mutual

/-- The text of a value on one line. -/
def compact : Json → String
  | .null => "null"
  | .bool b => if b then "true" else "false"
  | .whole n => integer n
  | .decimal digits places => pointed digits places
  | .single x => ofSingle x
  | .double x => x.written
  | .text s => quoted s
  | .list items => "[" ++ compactItems items ++ "]"
  | .object fields => "\x7b" ++ compactFields fields ++ "\x7d"

/-- Values with commas between. -/
def compactItems : List Json → String
  | [] => ""
  | [v] => v.compact
  | v :: vs => v.compact ++ "," ++ compactItems vs

/-- Fields with commas between. -/
def compactFields : List (String × Json) → String
  | [] => ""
  | [(k, v)] => quoted k ++ ":" ++ v.compact
  | (k, v) :: fs => quoted k ++ ":" ++ v.compact ++ "," ++ compactFields fs

end

/-- The start of a line inside so many containers. -/
def lineBreak (depth : Nat) : String := "\n" ++ String.ofList (List.replicate (2 * depth) ' ')

mutual

/-- The text of a value on several lines, inside so many containers. -/
def prettyAt (depth : Nat) : Json → String
  | .list [] => "[]"
  | .object [] => "\x7b\x7d"
  | .list items => "[" ++ prettyItems (depth + 1) items ++ lineBreak depth ++ "]"
  | .object fields => "\x7b" ++ prettyFields (depth + 1) fields ++ lineBreak depth ++ "\x7d"
  | .null => "null"
  | .bool b => if b then "true" else "false"
  | .whole n => integer n
  | .decimal digits places => pointed digits places
  | .single x => ofSingle x
  | .double x => x.written
  | .text s => quoted s

/-- Values on lines of their own, with commas between. -/
def prettyItems (depth : Nat) : List Json → String
  | [] => ""
  | [v] => lineBreak depth ++ prettyAt depth v
  | v :: vs => lineBreak depth ++ prettyAt depth v ++ "," ++ prettyItems depth vs

/-- Fields on lines of their own, with commas between. -/
def prettyFields (depth : Nat) : List (String × Json) → String
  | [] => ""
  | [(k, v)] => lineBreak depth ++ quoted k ++ ": " ++ prettyAt depth v
  | (k, v) :: fs =>
    lineBreak depth ++ quoted k ++ ": " ++ prettyAt depth v ++ "," ++ prettyFields depth fs

end

/-- The text of a value on several lines. -/
def pretty (v : Json) : String := v.prettyAt 0

end Json

/-- A table from keys to values, in the order of keys. -/
abbrev Fields := List (String × Json)

namespace Fields

/-- Gives a key a value. -/
def insert (key : String) (value : Json) : Fields → Fields
  | [] => [(key, value)]
  | (k, v) :: rest =>
    if key = k then (key, value) :: rest
    else if key < k then (key, value) :: (k, v) :: rest
    else (k, v) :: insert key value rest

/-- Gives all keys of the second table their values there. -/
def extend (table new : Fields) : Fields := new.foldl (fun t e => t.insert e.1 e.2) table

/-- The table with the given entries; the last value of a key counts. -/
def ofList (entries : List (String × Json)) : Fields := extend [] entries

/-- A key stands before all greater ones, and only once. -/
def IsOrdered (table : Fields) : Prop := table.Pairwise fun a b => a.1 < b.1

theorem key_of_mem_insert {key : String} {value : Json} {e : String × Json} :
    ∀ {table : Fields}, e ∈ table.insert key value → e.1 = key ∨ e ∈ table
  | [], h => by
    rw [insert, List.mem_singleton] at h
    exact Or.inl (h ▸ rfl)
  | (k, v) :: rest, h => by
    rw [insert] at h
    split at h
    · rcases List.mem_cons.mp h with rfl | h
      · exact Or.inl rfl
      · exact Or.inr (List.mem_cons_of_mem _ h)
    · split at h
      · rcases List.mem_cons.mp h with rfl | h
        · exact Or.inl rfl
        · exact Or.inr h
      · rcases List.mem_cons.mp h with rfl | h
        · exact Or.inr List.mem_cons_self
        · exact (key_of_mem_insert h).imp_right (List.mem_cons_of_mem _)

theorem IsOrdered.insert (key : String) (value : Json) :
    ∀ {table : Fields}, table.IsOrdered → (table.insert key value).IsOrdered
  | [], _ => List.pairwise_singleton _ _
  | (k, v) :: rest, h => by
    obtain ⟨hk, hrest⟩ := List.pairwise_cons.mp h
    rw [Fields.insert]
    split
    · rename_i heq
      exact List.pairwise_cons.mpr ⟨fun e he => heq ▸ hk e he, hrest⟩
    · rename_i hne
      split
      · rename_i hlt
        refine List.pairwise_cons.mpr ⟨fun e he => ?_, h⟩
        rcases List.mem_cons.mp he with rfl | he
        · exact hlt
        · exact String.lt_trans hlt (hk e he)
      · rename_i hge
        refine List.pairwise_cons.mpr ⟨fun e he => ?_, IsOrdered.insert key value hrest⟩
        rcases key_of_mem_insert he with heq | he
        · exact heq ▸ Std.lt_of_le_of_ne (String.not_lt.mp hge) (Ne.symm hne)
        · exact hk e he

theorem IsOrdered.extend : ∀ (new : Fields) {table : Fields}, table.IsOrdered →
    (table.extend new).IsOrdered
  | [], _, h => h
  | e :: new, _, h => IsOrdered.extend new (h.insert e.1 e.2)

end Fields

/-- A table from keys to values whose keys are in order. -/
@[ext] structure Attributes where
  fields : Fields
  ordered : fields.IsOrdered

namespace Attributes

/-- The table without entries. -/
def empty : Attributes := ⟨[], .nil⟩

/-- Gives all keys of the second table their values there. -/
def extend (table new : Attributes) : Attributes :=
  ⟨table.fields.extend new.fields, table.ordered.extend new.fields⟩

/-- The table with the given entries; the last value of a key counts. -/
def ofList (entries : List (String × Json)) : Attributes :=
  ⟨.ofList entries, empty.ordered.extend entries⟩

instance : Coe Fields Attributes := ⟨ofList⟩

end Attributes

end Outline

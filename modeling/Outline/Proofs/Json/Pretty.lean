import Mathlib.Data.List.DropRight
import Outline.Proofs.Json.Numeral
import Outline.Proofs.Json.Quoted

/-!
# What is written is read

The text of a JSON value has less in it than the value: a whole float looks like a decimal, and an
infinite one is `null`.  So what is read from the text is not the value again; it shows the value
(`Shows`), with each number as it is spelled and each text as it means.

Values, items and fields are read back by recursion on the value, each with anything behind it
(`exists_value?_prettyAt`).  For a numeral there is a condition on what stands behind it, since more
digits would belong to it; inside a container there stands a comma or the start of a line.  Reading
counts its calls, and one call is made for at least one character; so what is shown is that the
characters of a text are enough calls for it.

* `WrittenJson.Shows`: what is read for a value.
* `WrittenJson.exists_read?_pretty`: a text on several lines is read, as something that shows the
  value.
-/

namespace Outline

open Json WrittenJson

/-! ## What a value shows -/

namespace WrittenJson

/-- The number that is written so. -/
def ShowsNumber (s : String) (w : WrittenJson) : Prop :=
  ∃ n : Numeral, w = .number n ∧ n.IsProper ∧ n.text = s.toList

mutual

/-- What is read from the text of a value: names and texts mean what they did, numbers have the same
digits, and an infinite number is absent. -/
def Shows : Json → WrittenJson → Prop
  | .null, w => w = .null
  | .bool b, w => w = .bool b
  | .whole n, w => ShowsNumber (integer n) w
  | .decimal digits places, w => ShowsNumber (pointed digits places) w
  | .single x, w => if x.isFinite then ShowsNumber x.written w else w = .null
  | .double x, w => ShowsNumber x.written w
  | .text s, w => ∃ parts, w = .text parts ∧ Quoted.text? parts = some s.toList
  | .list items, w => ∃ ws, w = .list ws ∧ ShowsItems items ws
  | .object fields, w => ∃ fs, w = .object fs ∧ ShowsFields fields fs

/-- The same of several values. -/
def ShowsItems : List Json → List WrittenJson → Prop
  | [], ws => ws = []
  | v :: vs, ws => ∃ w rest, ws = w :: rest ∧ Shows v w ∧ ShowsItems vs rest

/-- The same of fields. -/
def ShowsFields : List (String × Json) → List (List Quoted × WrittenJson) → Prop
  | [], fs => fs = []
  | (k, v) :: fields, fs => ∃ name w rest, fs = (name, w) :: rest ∧
      Quoted.text? name = some k.toList ∧ Shows v w ∧ ShowsFields fields rest

end

/-! ## Blanks -/

theorem skipBlanks_cons {c : Char} (hc : isBlankChar c = false) (t : Text) :
    skipBlanks (c :: t) = c :: t := by
  rw [skipBlanks, List.dropWhile_cons_of_neg (by rw [hc]; exact Bool.false_ne_true)]

theorem skipBlanks_skipBlanks (t : Text) : skipBlanks (skipBlanks t) = skipBlanks t :=
  List.dropWhile_idempotent isBlankChar t

theorem skipBlanks_append {t : Text} (ht : ∀ c ∈ t, isBlankChar c = true) (u : Text) :
    skipBlanks (t ++ u) = skipBlanks u :=
  List.dropWhile_append_of_pos ht

theorem isBlankChar_of_mem_lineBreak (depth : Nat) :
    ∀ c ∈ (lineBreak depth).toList, isBlankChar c = true := by
  intro c hc
  have hmem : c = '\n' ∨ (2 * depth ≠ 0 ∧ c = ' ') := by
    simpa [lineBreak] using hc
  rcases hmem with rfl | ⟨-, rfl⟩ <;> rfl

/-- The start of a line is passed over. -/
theorem skipBlanks_lineBreak (depth : Nat) (t : Text) :
    skipBlanks ((lineBreak depth).toList ++ t) = skipBlanks t :=
  skipBlanks_append (isBlankChar_of_mem_lineBreak depth) t

theorem value?_skipBlanks (fuel : Nat) (t : Text) : value? fuel (skipBlanks t) = value? fuel t := by
  cases fuel with
  | zero => rfl
  | succ fuel => rw [value?, value?, skipBlanks_skipBlanks]

theorem items?_skipBlanks (fuel : Nat) (t : Text) : items? fuel (skipBlanks t) = items? fuel t := by
  cases fuel with
  | zero => rfl
  | succ fuel => rw [items?, items?, value?_skipBlanks]

theorem fields?_skipBlanks (fuel : Nat) (t : Text) :
    fields? fuel (skipBlanks t) = fields? fuel t := by
  cases fuel with
  | zero => rfl
  | succ fuel => rw [fields?, fields?, fieldName?, fieldName?, skipBlanks_skipBlanks]

/-! ## Numbers -/

/-- The characters that a numeral may begin with. -/
def startsNumeral (c : Char) : Bool := c.isDigit || c == '-'

theorem isBlankChar_of_startsNumeral {c : Char} (hc : startsNumeral c = true) :
    isBlankChar c = false := by
  rw [Bool.eq_false_iff]
  intro hblank
  simp only [isBlankChar, Bool.or_eq_true, beq_iff_eq] at hblank
  rcases hblank with ((rfl | rfl) | rfl) | rfl <;> exact absurd hc (by decide)

theorem exists_cons_text {n : Numeral} (hn : n.IsProper) :
    ∃ c t, n.text = c :: t ∧ startsNumeral c = true := by
  cases hsign : n.negative with
  | true => exact ⟨'-', _, by rw [Numeral.text, hsign]; rfl, by decide⟩
  | false =>
    obtain ⟨c, cs, hwhole, hc⟩ := hn.whole.exists_cons
    exact ⟨c, _, by rw [Numeral.text, hsign, hwhole]; rfl, by simp [startsNumeral, hc]⟩

/-! ## One step of reading -/

section Step

variable {fuel : Nat} {t u rest : Text}

theorem value?_null : value? (fuel + 1) ("null".toList ++ rest) = some (.null, rest) := rfl

theorem value?_bool (b : Bool) :
    value? (fuel + 1) ((if b then "true" else "false").toList ++ rest) = some (.bool b, rest) := by
  cases b <;> rfl

theorem exists_value?_quoted (s : String) (fuel : Nat) (rest : Text) : ∃ parts,
    value? (fuel + 1) ((quoted s).toList ++ rest) = some (.text parts, rest) ∧
      Quoted.text? parts = some s.toList := by
  obtain ⟨parts, hread, htext⟩ := Quoted.exists_read?_quoted s.toList rest
  refine ⟨parts, ?_, htext⟩
  have htext : (quoted s).toList ++ rest =
      '"' :: (s.toList.flatMap escapeChar ++ '"' :: rest) := by
    simp [quoted]
  rw [htext, value?, skipBlanks_cons (by decide)]
  simp only
  rw [hread]
  rfl

/-- What begins with none of the marks and words of the other values is read as a number. -/
theorem value?_of_startsNumeral {c : Char} (hc : startsNumeral c = true) (t : Text) :
    value? (fuel + 1) (c :: t) = (Numeral.read? (c :: t)).map fun r => (.number r.1, r.2) := by
  have hne : ∀ d, startsNumeral d = false → c ≠ d := by
    rintro d hd rfl
    rw [hc] at hd
    exact Bool.noConfusion hd
  have hword : word? (c :: t) = none := by
    rw [word?]
    · exact fun _ h => hne 'n' (by decide) (List.cons.inj h).1
    · exact fun _ h => hne 't' (by decide) (List.cons.inj h).1
    · exact fun _ h => hne 'f' (by decide) (List.cons.inj h).1
  rw [value?, skipBlanks_cons (isBlankChar_of_startsNumeral hc)]
  split
  · rename_i h
    exact absurd (List.cons.inj h).1 (hne '[' (by decide))
  · rename_i h
    exact absurd (List.cons.inj h).1 (hne '\x7b' (by decide))
  · rename_i h
    exact absurd (List.cons.inj h).1 (hne '"' (by decide))
  · rw [hword]
    rfl

theorem value?_numeral {n : Numeral} (hn : n.IsProper)
    (hrest : rest.head?.any Numeral.goesOn = false) :
    value? (fuel + 1) (n.text ++ rest) = some (.number n, rest) := by
  obtain ⟨c, t, htext, hc⟩ := exists_cons_text hn
  have hread := Numeral.read?_text_append hn hrest
  rw [htext, List.cons_append] at hread ⊢
  rw [value?_of_startsNumeral hc, hread]
  rfl

theorem value?_emptyList : value? (fuel + 1) ("[]".toList ++ rest) = some (.list [], rest) := rfl

theorem value?_emptyObject :
    value? (fuel + 1) ("\x7b\x7d".toList ++ rest) = some (.object [], rest) := rfl

theorem value?_list (h : ∀ u, skipBlanks t ≠ ']' :: u) :
    value? (fuel + 1) ('[' :: t) = (items? fuel t).map fun r => (.list r.1, r.2) := by
  rw [value?, skipBlanks_cons (by decide)]
  simp only
  rw [items?_skipBlanks]

theorem value?_object (h : ∀ u, skipBlanks t ≠ '\x7d' :: u) :
    value? (fuel + 1) ('\x7b' :: t) = (fields? fuel t).map fun r => (.object r.1, r.2) := by
  rw [value?, skipBlanks_cons (by decide)]
  simp only
  rw [fields?_skipBlanks]

theorem items?_last {w : WrittenJson} (hw : value? fuel t = some (w, u))
    (hu : skipBlanks u = ']' :: rest) : items? (fuel + 1) t = some ([w], rest) := by
  rw [items?, hw]
  simp only
  rw [hu]
  rfl

theorem items?_more {w : WrittenJson} {ws : List WrittenJson} {v : Text}
    (hw : value? fuel t = some (w, ',' :: v)) (hv : items? fuel v = some (ws, rest)) :
    items? (fuel + 1) t = some (w :: ws, rest) := by
  rw [items?, hw]
  simp only
  rw [skipBlanks_cons (by decide)]
  simp only
  rw [hv]
  rfl

theorem exists_fieldName?_quoted (k : String) (rest : Text) : ∃ name,
    fieldName? ((quoted k).toList ++ ':' :: rest) = some (name, rest) ∧
      Quoted.text? name = some k.toList := by
  obtain ⟨name, hread, hname⟩ := Quoted.exists_read?_quoted k.toList (':' :: rest)
  refine ⟨name, ?_, hname⟩
  have htext : (quoted k).toList ++ ':' :: rest =
      '"' :: (k.toList.flatMap escapeChar ++ '"' :: ':' :: rest) := by
    simp [quoted]
  rw [htext, fieldName?, skipBlanks_cons (by decide)]
  simp only
  rw [hread]
  simp only
  rw [skipBlanks_cons (by decide)]
  rfl

theorem fields?_last {name : List Quoted} {w : WrittenJson} {v : Text}
    (hname : fieldName? t = some (name, v)) (hw : value? fuel v = some (w, u))
    (hu : skipBlanks u = '\x7d' :: rest) : fields? (fuel + 1) t = some ([(name, w)], rest) := by
  rw [fields?, hname]
  simp only
  rw [hw]
  simp only
  rw [hu]
  rfl

theorem fields?_more {name : List Quoted} {w : WrittenJson} {v x : Text}
    {fs : List (List Quoted × WrittenJson)} (hname : fieldName? t = some (name, v))
    (hw : value? fuel v = some (w, ',' :: x)) (hx : fields? fuel x = some (fs, rest)) :
    fields? (fuel + 1) t = some ((name, w) :: fs, rest) := by
  rw [fields?, hname]
  simp only
  rw [hw]
  simp only
  rw [skipBlanks_cons (by decide)]
  simp only
  rw [hx]
  rfl

end Step

/-! ## Written values -/

theorem exists_value?_number {s : String} (h : ∃ n : Numeral, n.IsProper ∧ n.text = s.toList)
    (fuel : Nat) {rest : Text} (hrest : rest.head?.any Numeral.goesOn = false) :
    ∃ w, value? (fuel + 1) (s.toList ++ rest) = some (w, rest) ∧ ShowsNumber s w := by
  obtain ⟨n, hn, htext⟩ := h
  exact ⟨.number n, by rw [← htext, value?_numeral hn hrest], n, rfl, hn, htext⟩

theorem exists_numeral_integer (n : Int) :
    ∃ m : Numeral, m.IsProper ∧ m.text = (integer n).toList :=
  (Decimal.isNumeralText_ofWhole n.natAbs).signed (n < 0)

theorem exists_numeral_pointed (digits : Int) (places : Nat) :
    ∃ n : Numeral, n.IsProper ∧ n.text = (pointed digits places).toList :=
  (Decimal.isNumeralText_positional (by simp)).signed (digits < 0)

theorem exists_numeral_single (x : Single) :
    ∃ n : Numeral, n.IsProper ∧ n.text = x.written.toList :=
  (Decimal.isNumeralText_written Positions.single _).signed (x.negative = true)

theorem exists_numeral_double (x : Double) :
    ∃ n : Numeral, n.IsProper ∧ n.text = x.written.toList := by
  obtain ⟨n, hn, -, htext⟩ := Decimal.isNumeralText_written Positions.double
    (Decimal.shortest Format.double x.units)
  exact ⟨n, hn, htext⟩

theorem prettyItems_cons_cons (depth : Nat) (v w : Json) (vs : List Json) :
    prettyItems depth (v :: w :: vs) =
      lineBreak depth ++ prettyAt depth v ++ "," ++ prettyItems depth (w :: vs) := rfl

theorem prettyFields_cons_cons (depth : Nat) (k : String) (v : Json) (f : String × Json)
    (fs : List (String × Json)) :
    prettyFields depth ((k, v) :: f :: fs) =
      lineBreak depth ++ quoted k ++ ": " ++ prettyAt depth v ++ "," ++
        prettyFields depth (f :: fs) := rfl

theorem prettyAt_list_cons (depth : Nat) (v : Json) (vs : List Json) :
    prettyAt depth (.list (v :: vs)) =
      "[" ++ prettyItems (depth + 1) (v :: vs) ++ lineBreak depth ++ "]" := rfl

theorem prettyAt_object_cons (depth : Nat) (f : String × Json) (fs : List (String × Json)) :
    prettyAt depth (.object (f :: fs)) =
      "\x7b" ++ prettyFields (depth + 1) (f :: fs) ++ lineBreak depth ++ "\x7d" := rfl

/-- A text that neither passes over a blank nor ends a list. -/
def BeginsValue (t : Text) : Prop := ∃ c u, t = c :: u ∧ isBlankChar c = false ∧ c ≠ ']'

theorem beginsValue_of_numeral {s : String} (h : ∃ n : Numeral, n.IsProper ∧ n.text = s.toList) :
    BeginsValue s.toList := by
  obtain ⟨n, hn, htext⟩ := h
  obtain ⟨c, t, hc, hstart⟩ := exists_cons_text hn
  refine ⟨c, t, by rw [← htext, hc], isBlankChar_of_startsNumeral hstart, ?_⟩
  rintro rfl
  exact absurd hstart (by decide)

theorem beginsValue_prettyAt (depth : Nat) (v : Json) : BeginsValue (prettyAt depth v).toList := by
  cases v with
  | null => exact ⟨'n', "ull".toList, by rw [prettyAt]; decide, by decide, by decide⟩
  | bool b =>
    cases b with
    | true => exact ⟨'t', "rue".toList, by rw [prettyAt]; decide, by decide, by decide⟩
    | false => exact ⟨'f', "alse".toList, by rw [prettyAt]; decide, by decide, by decide⟩
  | whole n => exact beginsValue_of_numeral (exists_numeral_integer n)
  | decimal digits places => exact beginsValue_of_numeral (exists_numeral_pointed digits places)
  | single x =>
    rw [prettyAt, ofSingle]
    split
    · exact beginsValue_of_numeral (exists_numeral_single x)
    · exact ⟨'n', "ull".toList, by decide, by decide, by decide⟩
  | double x => exact beginsValue_of_numeral (exists_numeral_double x)
  | text s => exact ⟨'"', _, by simp [prettyAt, quoted]; rfl, by decide, by decide⟩
  | list items =>
    cases items with
    | nil => exact ⟨'[', _, by simp [prettyAt]; rfl, by decide, by decide⟩
    | cons v vs => exact ⟨'[', _, by simp [prettyAt_list_cons]; rfl, by decide, by decide⟩
  | object fields =>
    cases fields with
    | nil => exact ⟨'\x7b', _, by simp [prettyAt]; rfl, by decide, by decide⟩
    | cons f fs => exact ⟨'\x7b', _, by simp [prettyAt_object_cons]; rfl, by decide, by decide⟩

/-- Where there are calls for an item, there are calls for the value in it. -/
theorem exists_calls {depth calls : Nat} (v : Json)
    (h : (prettyAt depth v).toList.length < calls) :
    ∃ k, calls = k + 2 ∧ (prettyAt depth v).toList.length ≤ k + 1 := by
  obtain ⟨c, t, htext, -⟩ := beginsValue_prettyAt depth v
  rw [htext, List.length_cons] at h ⊢
  exact ⟨calls - 2, by omega, by omega⟩

theorem value?_lineBreak (fuel depth : Nat) (t : Text) :
    value? fuel ((lineBreak depth).toList ++ t) = value? fuel t := by
  rw [← value?_skipBlanks, skipBlanks_lineBreak, value?_skipBlanks]

theorem fieldName?_lineBreak (depth : Nat) (t : Text) :
    fieldName? ((lineBreak depth).toList ++ t) = fieldName? t := by
  rw [fieldName?, skipBlanks_lineBreak, fieldName?]

/-- A blank between a colon and a value. -/
theorem value?_space (fuel : Nat) (t : Text) : value? fuel (' ' :: t) = value? fuel t := by
  rw [← value?_skipBlanks fuel (' ' :: t), ← value?_skipBlanks fuel t]
  rfl

theorem any_head?_lineBreak (depth : Nat) (t : Text) :
    ((lineBreak depth).toList ++ t).head?.any Numeral.goesOn = false := by
  simp [lineBreak]
  decide

theorem length_lineBreak (depth : Nat) : (lineBreak depth).toList.length = 2 * depth + 1 := by
  simp [lineBreak]

/-- Behind the bracket that opens a list with values there is a value, not the closing bracket. -/
theorem skipBlanks_prettyItems_ne (depth : Nat) (v : Json) (vs : List Json) (t u : Text) :
    skipBlanks ((prettyItems depth (v :: vs)).toList ++ t) ≠ ']' :: u := by
  obtain ⟨more, hmore⟩ : ∃ more, prettyItems depth (v :: vs) =
      lineBreak depth ++ (prettyAt depth v ++ more) := by
    cases vs with
    | nil => exact ⟨"", by rw [String.append_empty]; rfl⟩
    | cons w vs => exact ⟨"," ++ prettyItems depth (w :: vs), by
        rw [prettyItems_cons_cons, String.append_assoc, String.append_assoc]⟩
  obtain ⟨c, x, hx, hblank, hc⟩ := beginsValue_prettyAt depth v
  rw [hmore, String.toList_append, String.toList_append, List.append_assoc, skipBlanks_lineBreak,
    hx, List.cons_append, List.cons_append, skipBlanks_cons hblank]
  exact fun h => hc (List.cons.inj h).1

theorem skipBlanks_prettyFields_ne (depth : Nat) (f : String × Json) (fs : List (String × Json))
    (t u : Text) : skipBlanks ((prettyFields depth (f :: fs)).toList ++ t) ≠ '\x7d' :: u := by
  obtain ⟨k, v⟩ := f
  obtain ⟨more, hmore⟩ : ∃ more, prettyFields depth ((k, v) :: fs) =
      lineBreak depth ++ (quoted k ++ more) := by
    cases fs with
    | nil => exact ⟨": " ++ prettyAt depth v, by
        rw [prettyFields, String.append_assoc, String.append_assoc]⟩
    | cons g fs => exact ⟨": " ++ prettyAt depth v ++ "," ++ prettyFields depth (g :: fs), by
        rw [prettyFields_cons_cons]
        simp only [String.append_assoc]⟩
  have hquoted : (quoted k).toList = '"' :: (k.toList.flatMap escapeChar ++ ['"']) := by
    simp [quoted]
  rw [hmore, String.toList_append, String.toList_append, List.append_assoc, skipBlanks_lineBreak,
    hquoted, List.cons_append, List.cons_append, skipBlanks_cons (by decide)]
  exact fun h => absurd (List.cons.inj h).1 (by decide)

/-- A field up to its value. -/
theorem exists_fieldName?_field (depth : Nat) (k : String) (t : Text) : ∃ name,
    fieldName? ((lineBreak depth).toList ++ ((quoted k).toList ++ ':' :: t)) = some (name, t) ∧
      Quoted.text? name = some k.toList := by
  rw [fieldName?_lineBreak]
  exact exists_fieldName?_quoted k t

mutual

/-- A value is read from its text, whatever stands behind, unless it goes on with a number.  The
calls that reading takes are no more than the characters of the text. -/
theorem exists_value?_prettyAt : ∀ (v : Json) (depth fuel : Nat) (rest : Text),
    (prettyAt depth v).toList.length ≤ fuel + 1 → rest.head?.any Numeral.goesOn = false →
    ∃ w, value? (fuel + 1) ((prettyAt depth v).toList ++ rest) = some (w, rest) ∧ Shows v w
  | .null => by
    intro _ fuel rest _ _
    rw [prettyAt]
    exact ⟨.null, value?_null, by rw [Shows]⟩
  | .bool b => by
    intro _ fuel rest _ _
    rw [prettyAt]
    exact ⟨.bool b, value?_bool b, by rw [Shows]⟩
  | .whole n => by
    intro _ fuel rest _ hrest
    simp only [prettyAt, Shows]
    exact exists_value?_number (exists_numeral_integer n) fuel hrest
  | .decimal digits places => by
    intro _ fuel rest _ hrest
    simp only [prettyAt, Shows]
    exact exists_value?_number (exists_numeral_pointed digits places) fuel hrest
  | .single x => by
    intro _ fuel rest _ hrest
    simp only [prettyAt, ofSingle, Shows]
    split
    · exact exists_value?_number (exists_numeral_single x) fuel hrest
    · exact ⟨.null, value?_null, rfl⟩
  | .double x => by
    intro _ fuel rest _ hrest
    simp only [prettyAt, Shows]
    exact exists_value?_number (exists_numeral_double x) fuel hrest
  | .text s => by
    intro _ fuel rest _ _
    obtain ⟨parts, hread, hparts⟩ := exists_value?_quoted s fuel rest
    simp only [prettyAt, Shows]
    exact ⟨.text parts, hread, parts, rfl, hparts⟩
  | .list [] => by
    intro _ fuel rest _ _
    simp only [prettyAt, Shows, ShowsItems]
    exact ⟨.list [], value?_emptyList, [], rfl, rfl⟩
  | .list (v :: vs) => by
    intro depth fuel rest hfuel _
    rw [prettyAt_list_cons] at hfuel ⊢
    obtain ⟨ws, hread, hshows⟩ := exists_items?_prettyItems (v :: vs) (depth + 1) depth fuel
      rest (List.cons_ne_nil v vs) (by simp at hfuel; omega)
    refine ⟨.list ws, ?_, ws, rfl, hshows⟩
    have htext : ("[" ++ prettyItems (depth + 1) (v :: vs) ++ lineBreak depth ++ "]").toList ++
          rest =
        '[' :: ((prettyItems (depth + 1) (v :: vs)).toList ++
          ((lineBreak depth).toList ++ ']' :: rest)) := by
      simp
    rw [htext, value?_list (skipBlanks_prettyItems_ne (depth + 1) v vs _), hread]
    rfl
  | .object [] => by
    intro _ fuel rest _ _
    simp only [prettyAt, Shows, ShowsFields]
    exact ⟨.object [], value?_emptyObject, [], rfl, rfl⟩
  | .object ((k, v) :: fs) => by
    intro depth fuel rest hfuel _
    rw [prettyAt_object_cons] at hfuel ⊢
    obtain ⟨ws, hread, hshows⟩ := exists_fields?_prettyFields ((k, v) :: fs) (depth + 1) depth
      fuel rest (List.cons_ne_nil (k, v) fs) (by simp at hfuel; omega)
    refine ⟨.object ws, ?_, ws, rfl, hshows⟩
    have htext : ("\x7b" ++ prettyFields (depth + 1) ((k, v) :: fs) ++ lineBreak depth ++
          "\x7d").toList ++ rest =
        '\x7b' :: ((prettyFields (depth + 1) ((k, v) :: fs)).toList ++
          ((lineBreak depth).toList ++ '\x7d' :: rest)) := by
      simp
    rw [htext, value?_object (skipBlanks_prettyFields_ne (depth + 1) (k, v) fs _), hread]
    rfl

/-- Values up to the closing bracket. -/
theorem exists_items?_prettyItems : ∀ (vs : List Json) (depth outer fuel : Nat) (rest : Text),
    vs ≠ [] → (prettyItems depth vs).toList.length ≤ fuel →
    ∃ ws, items? fuel ((prettyItems depth vs).toList ++
        ((lineBreak outer).toList ++ ']' :: rest)) = some (ws, rest) ∧ ShowsItems vs ws
  | [] => fun _ _ _ _ hne _ => absurd rfl hne
  | [v] => by
    intro depth outer fuel rest _ hfuel
    have hlast : prettyItems depth [v] = lineBreak depth ++ prettyAt depth v := rfl
    rw [hlast, String.toList_append, List.length_append, length_lineBreak] at hfuel
    obtain ⟨fuel, rfl, hcalls⟩ :=
      exists_calls v (show (prettyAt depth v).toList.length < fuel by omega)
    obtain ⟨w, hread, hshows⟩ := exists_value?_prettyAt v depth fuel _ hcalls
      (any_head?_lineBreak outer (']' :: rest))
    refine ⟨[w], items?_last (u := (lineBreak outer).toList ++ ']' :: rest) ?_ ?_, w, [], rfl,
      hshows, rfl⟩
    · rw [hlast, String.toList_append, List.append_assoc, value?_lineBreak, hread]
    · rw [skipBlanks_lineBreak, skipBlanks_cons (by decide)]
  | v :: u :: vs => by
    intro depth outer fuel rest _ hfuel
    rw [prettyItems_cons_cons] at hfuel ⊢
    simp only [String.toList_append, List.length_append, length_lineBreak] at hfuel
    obtain ⟨fuel, rfl, hcalls⟩ :=
      exists_calls v (show (prettyAt depth v).toList.length < fuel by omega)
    obtain ⟨ws, hrest, hshowsRest⟩ := exists_items?_prettyItems (u :: vs) depth outer (fuel + 1)
      rest (List.cons_ne_nil u vs) (by simp at hfuel; omega)
    obtain ⟨w, hread, hshows⟩ := exists_value?_prettyAt v depth fuel
      (',' :: ((prettyItems depth (u :: vs)).toList ++ ((lineBreak outer).toList ++ ']' :: rest)))
      hcalls rfl
    refine ⟨w :: ws, items?_more ?_ hrest, w, ws, rfl, hshows, hshowsRest⟩
    simp only [String.toList_append, List.append_assoc]
    rw [value?_lineBreak]
    exact hread

/-- Fields up to the closing brace. -/
theorem exists_fields?_prettyFields : ∀ (fs : List (String × Json)) (depth outer fuel : Nat)
    (rest : Text), fs ≠ [] → (prettyFields depth fs).toList.length ≤ fuel →
    ∃ ws, fields? fuel ((prettyFields depth fs).toList ++
        ((lineBreak outer).toList ++ '\x7d' :: rest)) = some (ws, rest) ∧ ShowsFields fs ws
  | [] => fun _ _ _ _ hne _ => absurd rfl hne
  | [(k, v)] => by
    intro depth outer fuel rest _ hfuel
    have hlast : prettyFields depth [(k, v)] =
        lineBreak depth ++ quoted k ++ ": " ++ prettyAt depth v := rfl
    rw [hlast] at hfuel ⊢
    simp only [String.toList_append, List.length_append, length_lineBreak] at hfuel
    obtain ⟨fuel, rfl, hcalls⟩ :=
      exists_calls v (show (prettyAt depth v).toList.length < fuel by omega)
    obtain ⟨w, hread, hshows⟩ := exists_value?_prettyAt v depth fuel _ hcalls
      (any_head?_lineBreak outer ('\x7d' :: rest))
    obtain ⟨name, hname, hmeans⟩ := exists_fieldName?_field depth k
      (' ' :: ((prettyAt depth v).toList ++ ((lineBreak outer).toList ++ '\x7d' :: rest)))
    refine ⟨[(name, w)], fields?_last (u := (lineBreak outer).toList ++ '\x7d' :: rest)
      (by simpa using hname) ?_ ?_, name, w, [], rfl, hmeans, hshows, rfl⟩
    · rw [value?_space, hread]
    · rw [skipBlanks_lineBreak, skipBlanks_cons (by decide)]
  | (k, v) :: f :: fs => by
    intro depth outer fuel rest _ hfuel
    rw [prettyFields_cons_cons] at hfuel ⊢
    simp only [String.toList_append, List.length_append, length_lineBreak] at hfuel
    obtain ⟨fuel, rfl, hcalls⟩ :=
      exists_calls v (show (prettyAt depth v).toList.length < fuel by omega)
    obtain ⟨ws, hrest, hshowsRest⟩ := exists_fields?_prettyFields (f :: fs) depth outer (fuel + 1)
      rest (List.cons_ne_nil f fs) (by simp at hfuel; omega)
    obtain ⟨w, hread, hshows⟩ := exists_value?_prettyAt v depth fuel
      (',' :: ((prettyFields depth (f :: fs)).toList ++
        ((lineBreak outer).toList ++ '\x7d' :: rest))) hcalls rfl
    obtain ⟨name, hname, hmeans⟩ := exists_fieldName?_field depth k (' ' :: _)
    refine ⟨(name, w) :: ws, fields?_more (by simpa using hname) ?_ hrest, name, w, ws, rfl, hmeans,
      hshows, hshowsRest⟩
    rw [value?_space, hread]

end

/-- A value that is written on several lines is read back. -/
theorem exists_read?_pretty (v : Json) : ∃ w, read? v.pretty.toList = some w ∧ Shows v w := by
  obtain ⟨w, hread, hshows⟩ := exists_value?_prettyAt v 0 (2 * v.pretty.toList.length + 1) []
    (by rw [← pretty]; omega) rfl
  refine ⟨w, ?_, hshows⟩
  rw [List.append_nil, ← pretty] at hread
  rw [read?, hread]
  rfl

end WrittenJson

end Outline

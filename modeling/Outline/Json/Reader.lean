import Outline.Json.Numeral

/-!
# Reading JSON

A JSON text is read into a value that still shows how it was written: objects keep all their
fields, repeated ones too, numbers keep their digits, and a text that is no sequence of characters,
because one half of a surrogate pair stands alone, is still a value that can be passed over.

* `WrittenJson`: such a value.
* `Quoted.read?`, `Quoted.text?`: what stands between quotes, and the text it means.
* `WrittenJson.read?`: the value of a text.
-/

namespace Outline

/-! ## Quoted texts -/

/-- One part of a quoted text. -/
inductive Quoted where
  | char (c : Char)
  /-- A UTF-16 unit, written in hexadecimal. -/
  | unit (n : Nat)
  deriving DecidableEq, Repr

namespace Quoted

/-- The value of a hexadecimal digit. -/
def hexValue? (c : Char) : Option Nat :=
  if c.isDigit then some (c.toNat - 48)
  else if 'a' ≤ c ∧ c ≤ 'f' then some (c.toNat - 87)
  else if 'A' ≤ c ∧ c ≤ 'F' then some (c.toNat - 55)
  else none

/-- The unit that four hexadecimal digits stand for. -/
def unit? (a b c d : Char) : Option Quoted := do
  let a ← hexValue? a
  let b ← hexValue? b
  let c ← hexValue? c
  let d ← hexValue? d
  return .unit (4096 * a + 256 * b + 16 * c + d)

/-- The character that a letter after a backslash stands for. -/
def escape? : Char → Option Quoted
  | '"' => some (.char '"')
  | '\\' => some (.char '\\')
  | '/' => some (.char '/')
  | 'b' => some (.char '\x08')
  | 'f' => some (.char '\x0c')
  | 'n' => some (.char '\n')
  | 'r' => some (.char '\r')
  | 't' => some (.char '\t')
  | _ => none

/-- The parts up to the closing quote, and the rest.  Control characters must be escaped. -/
def read? : Text → Option (List Quoted × Text)
  | [] => none
  | '"' :: rest => some ([], rest)
  | '\\' :: 'u' :: a :: b :: c :: d :: rest => do
    let part ← unit? a b c d
    let (parts, rest) ← read? rest
    return (part :: parts, rest)
  | '\\' :: c :: rest => do
    let part ← escape? c
    let (parts, rest) ← read? rest
    return (part :: parts, rest)
  | c :: rest =>
    if c = '\\' ∨ c.toNat < 32 then none
    else (read? rest).map fun (parts, rest) => (.char c :: parts, rest)

/-- Whether a unit is the first half of a pair. -/
def isHigh (n : Nat) : Bool := 0xD800 ≤ n && n < 0xDC00

/-- Whether a unit is the second half of a pair. -/
def isLow (n : Nat) : Bool := 0xDC00 ≤ n && n < 0xE000

/-- The text that the parts mean; none if half a pair stands alone. -/
def text? : List Quoted → Option Text
  | [] => some []
  | .char c :: rest => (text? rest).map (c :: ·)
  | .unit n :: .unit m :: rest =>
    if isHigh n then
      if isLow m then
        (text? rest).map (Char.ofNat (0x10000 + 1024 * (n - 0xD800) + (m - 0xDC00)) :: ·)
      else none
    else if isLow n then none
    else (text? (.unit m :: rest)).map (Char.ofNat n :: ·)
  | .unit n :: rest =>
    if isHigh n || isLow n then none else (text? rest).map (Char.ofNat n :: ·)

end Quoted

/-! ## Values -/

/-- A JSON value as it was written. -/
inductive WrittenJson where
  | null
  | bool (b : Bool)
  | number (n : Numeral)
  | text (parts : List Quoted)
  | list (items : List WrittenJson)
  | object (fields : List (List Quoted × WrittenJson))
  deriving Repr

namespace WrittenJson

/-- The characters that may stand between the parts of a text. -/
def isBlankChar (c : Char) : Bool := c == ' ' || c == '\n' || c == '\t' || c == '\r'

/-- Without blanks at the front. -/
def skipBlanks (t : Text) : Text := t.dropWhile isBlankChar

/-- The words that are values. -/
def word? (t : Text) : Option (WrittenJson × Text) :=
  match t with
  | 'n' :: 'u' :: 'l' :: 'l' :: rest => some (.null, rest)
  | 't' :: 'r' :: 'u' :: 'e' :: rest => some (.bool true, rest)
  | 'f' :: 'a' :: 'l' :: 's' :: 'e' :: rest => some (.bool false, rest)
  | _ => none

/-- A field's name, with the colon after it. -/
def fieldName? (t : Text) : Option (List Quoted × Text) :=
  match skipBlanks t with
  | '"' :: t =>
    match Quoted.read? t with
    | some (name, t) =>
      match skipBlanks t with
      | ':' :: t => some (name, t)
      | _ => none
    | none => none
  | _ => none

mutual

/-- The value that a text begins with, and the rest. -/
def value? : Nat → Text → Option (WrittenJson × Text)
  | 0, _ => none
  | fuel + 1, t =>
    match skipBlanks t with
    | '[' :: t =>
      match skipBlanks t with
      | ']' :: t => some (.list [], t)
      | t => (items? fuel t).map fun (items, t) => (.list items, t)
    | '\x7b' :: t =>
      match skipBlanks t with
      | '\x7d' :: t => some (.object [], t)
      | t => (fields? fuel t).map fun (fields, t) => (.object fields, t)
    | '"' :: t => (Quoted.read? t).map fun (parts, t) => (.text parts, t)
    | t => (word? t).or ((Numeral.read? t).map fun (n, t) => (.number n, t))

/-- One value or more up to the closing bracket, and the rest. -/
def items? : Nat → Text → Option (List WrittenJson × Text)
  | 0, _ => none
  | fuel + 1, t =>
    match value? fuel t with
    | none => none
    | some (item, t) =>
      match skipBlanks t with
      | ']' :: t => some ([item], t)
      | ',' :: t => (items? fuel t).map fun (items, t) => (item :: items, t)
      | _ => none

/-- One field or more up to the closing brace, and the rest. -/
def fields? : Nat → Text → Option (List (List Quoted × WrittenJson) × Text)
  | 0, _ => none
  | fuel + 1, t =>
    match fieldName? t with
    | none => none
    | some (name, t) =>
      match value? fuel t with
      | none => none
      | some (value, t) =>
        match skipBlanks t with
        | '\x7d' :: t => some ([(name, value)], t)
        | ',' :: t => (fields? fuel t).map fun (fields, t) => ((name, value) :: fields, t)
        | _ => none

end

/-- The value of a text: nothing but blanks comes before or after it.  Every second call takes a
character, which bounds the number of calls. -/
def read? (t : Text) : Option WrittenJson :=
  match value? (2 * t.length + 2) t with
  | some (v, rest) => if (skipBlanks rest).isEmpty then some v else none
  | none => none

end WrittenJson

end Outline

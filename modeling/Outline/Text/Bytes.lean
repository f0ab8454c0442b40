import Outline.Text.Basic

/-!
# Byte positions

Syntax trees and offsets count bytes of the UTF-8 form.  A character is as many bytes wide as
its code point asks for, so a byte position is found by walking the characters.

* `Text.byteLength`: the width of the whole text.
* `Text.splitAtByte?`, `Text.byteRange?`: cutting at byte positions, when they fall between two
  characters.
* `Text.newlinesBefore`: line feeds among the first so many bytes.
* `Text.lineStarts`: the byte positions at which lines begin.
-/

namespace Outline.Text

/-- The number of bytes of the UTF-8 form. -/
def byteLength : Text → Nat
  | [] => 0
  | c :: cs => c.utf8Size + byteLength cs

/-- The text before and after byte `n`, if `n` lies between two characters or at an end. -/
def splitAtByte? : Nat → Text → Option (Text × Text)
  | 0, t => some ([], t)
  | _ + 1, [] => none
  | n + 1, c :: cs =>
    if c.utf8Size ≤ n + 1 then
      (splitAtByte? (n + 1 - c.utf8Size) cs).map fun (a, b) => (c :: a, b)
    else none
termination_by _ t => t.length

/-- The text from byte `start` up to byte `stop`, if both lie between characters and in order. -/
def byteRange? (t : Text) (start stop : Nat) : Option Text :=
  if stop < start then none
  else do
    let (_, rest) ← splitAtByte? start t
    let (piece, _) ← splitAtByte? (stop - start) rest
    return piece

/-- The number of line feeds among the first `n` bytes. -/
def newlinesBefore (n : Nat) : Text → Nat
  | [] => 0
  | c :: cs =>
    if n = 0 then 0
    else (if c = '\n' then 1 else 0) + newlinesBefore (n - c.utf8Size) cs

/-- The byte positions just after each line feed, for a text that begins at byte `start`. -/
def startsAfter (start : Nat) : Text → List Nat
  | [] => []
  | c :: cs =>
    let next := start + c.utf8Size
    if c = '\n' then next :: startsAfter next cs else startsAfter next cs

/-- The byte positions at which lines begin. -/
def lineStarts (t : Text) : List Nat := 0 :: startsAfter 0 t

end Outline.Text

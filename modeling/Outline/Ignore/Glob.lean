import Outline.Pattern.Build
import Outline.Pattern.Search

/-!
# Globs

A glob describes paths: a question mark stands for one byte, a star for any bytes of one step, two
stars between slashes for any number of steps, brackets for a set of bytes, and braces for a choice.
A backslash makes the next character stand for itself.  Paths are matched byte by byte, so a
character outside ASCII counts as several.

* `GlobPart`, `GlobPart.parse?`: the parts of a glob, and reading them.
* `GlobPart.pattern`: the pattern of a part.
* `Glob.matches`: whether a glob describes a whole path.
-/

namespace Outline

/-- A part of a glob. -/
inductive GlobPart where
  /-- The character itself. -/
  | literal (c : Char)
  /-- One byte of a step. -/
  | one
  /-- Any bytes of a step. -/
  | run
  /-- Any number of steps at the front. -/
  | leading
  /-- A slash, or any number of steps between two slashes. -/
  | between
  /-- All that is below. -/
  | trailing
  /-- A byte inside, or outside, of some ranges. -/
  | set (negated : Bool) (ranges : List (Char × Char))
  /-- One of several globs. -/
  | choice (options : List (List GlobPart))
  deriving Repr

/-- The bytes of a text, each as a character. -/
def byteText (s : String) : Text := s.toUTF8.toList.map fun b => Char.ofNat b.toNat

/-! ## Sets -/

namespace ByteSet

/-- The ranges of a set, when the one added last is still open to be made longer. -/
structure Draft where
  ranges : List (Char × Char) := []
  /-- Whether a hyphen came last. -/
  isOpen : Bool := false

/-- One more character in a set; none when a range would end before it begins. -/
def Draft.add? (d : Draft) (c : Char) : Option Draft :=
  match d.isOpen, d.ranges with
  | true, (low, _) :: rest => if c < low then none else some ⟨(low, c) :: rest, false⟩
  | _, ranges => some ⟨(c, c) :: ranges, false⟩

/-- The outcome of reading a set. -/
inductive Outcome where
  /-- The ranges and the rest. -/
  | found (ranges : List (Char × Char)) (rest : Text)
  /-- There is no closing bracket. -/
  | unclosed
  /-- A range ends before it begins. -/
  | faulty

/-- The ranges up to the closing bracket.  A bracket or a hyphen at the front stands for itself, and
so does a hyphen at the end. -/
def read (isFirst : Bool) (d : Draft) : Text → Outcome
  | [] => .unclosed
  | c :: rest =>
    if c = ']' && !isFirst then
      .found ((if d.isOpen then ('-', '-') :: d.ranges else d.ranges).reverse) rest
    else if c = '-' && !isFirst && !d.isOpen then read false { d with isOpen := true } rest
    else match d.add? c with
      | some d => read false d rest
      | none => .faulty

/-- The bytes that a range of characters covers: bytes of a character other than the one next to the
hyphen stand for themselves. -/
def byteRanges (low high : Char) : List (Char × Char) :=
  let single (b : Char) : Char × Char := (b, b)
  let lows := byteText low.toString
  let highs := byteText high.toString
  if low = high then lows.map single
  else lows.dropLast.map single ++ (lows.getLast?.toList.zip highs) ++ (highs.drop 1).map single

/-- Whether a byte lies in one of the ranges. -/
def holds (ranges : List (Char × Char)) (b : Char) : Bool :=
  (ranges.flatMap fun r => byteRanges r.1 r.2).any fun r => r.1 ≤ b && b ≤ r.2

end ByteSet

/-! ## Reading -/

namespace GlobPart

/-- A choice whose closing brace is still to come, or the glob as a whole. -/
structure Draft where
  /-- The finished options. -/
  options : List (List GlobPart) := []
  /-- The parts of the present option, the last one first. -/
  parts : List GlobPart := []

namespace Draft

/-- One more part. -/
def add (d : Draft) (p : GlobPart) : Draft := { d with parts := p :: d.parts }

/-- The end of an option. -/
def next (d : Draft) : Draft := ⟨d.options ++ [d.parts.reverse], []⟩

/-- The slash that came last becomes any number of steps. -/
def widen (d : Draft) (p : GlobPart) : Draft :=
  match d.parts with
  | .leading :: _ | .trailing :: _ => d
  | _ :: rest => { d with parts := p :: rest }
  | [] => d

end Draft

/-- Two stars after `before`: the draft with them, the character they end in, and the rest. -/
def doubleStar (before : Option Char) (inChoice : Bool) (d : Draft) (rest : Text) :
    Draft × Char × Text :=
  if d.parts.isEmpty then
    match rest with
    | [] => (d.add .leading, '*', [])
    | '/' :: rest => (d.add .leading, '/', rest)
    | rest => (d.add .run, '*', rest)
  else if before != some '/' then (d.add .run, '*', rest)
  else match rest with
    | [] => (d.widen .trailing, '*', [])
    | '/' :: rest => (d.widen .between, '/', rest)
    | c :: rest =>
      if inChoice && (c == ',' || c == '\x7d') then (d.widen .trailing, '*', c :: rest)
      else (d.add .run, '*', c :: rest)

/-- The parts of a glob, when `before` is the last character so far and `outer` are the drafts
around the present one.  Each call takes a character, so the length of the text is enough fuel. -/
def parseFrom : Nat → Option Char → Draft → List Draft → Text → Option (List GlobPart)
  | _, _, d, outer, [] => if outer.isEmpty then some d.parts.reverse else none
  | 0, _, _, _, _ :: _ => none
  | fuel + 1, before, d, outer, c :: rest =>
    match c, rest with
    | '?', rest => parseFrom fuel (some c) (d.add .one) outer rest
    | '*', '*' :: rest =>
      let (d, last, rest) := doubleStar before (!outer.isEmpty) d rest
      parseFrom fuel (some last) d outer rest
    | '*', rest => parseFrom fuel (some c) (d.add .run) outer rest
    | '[', rest =>
      let (negated, inside) := match rest with
        | '!' :: inside | '^' :: inside => (true, inside)
        | inside => (false, inside)
      match ByteSet.read true {} inside with
      | .found ranges rest => parseFrom fuel (some ']') (d.add (.set negated ranges)) outer rest
      | .unclosed => parseFrom fuel (some c) (d.add (.literal c)) outer rest
      | .faulty => none
    | '\x7b', rest => parseFrom fuel (some c) {} (d :: outer) rest
    | '\x7d', rest =>
      match outer with
      | [] => none
      | up :: outer => parseFrom fuel (some c) (up.add (.choice d.next.options)) outer rest
    | ',', rest =>
      if outer.isEmpty then parseFrom fuel (some c) (d.add (.literal c)) outer rest
      else parseFrom fuel (some c) d.next outer rest
    | '\\', e :: rest => parseFrom fuel (some e) (d.add (.literal e)) outer rest
    | '\\', [] => none
    | c, rest => parseFrom fuel (some c) (d.add (.literal c)) outer rest

/-- The parts of a glob; none if it has a fault. -/
def parse? (glob : Text) : Option (List GlobPart) := parseFrom glob.length none {} [] glob

/-! ## Patterns -/

open Pattern

/-- Any bytes. -/
def anyBytes : Pattern := many anything

mutual

/-- The pattern of a part. -/
def pattern : GlobPart → Pattern
  | .literal c => chain ((byteText c.toString).map fun b => .char (· == b))
  | .one => Pattern.except "/"
  | .run => many (Pattern.except "/")
  | .leading => oneOf [opt "/", chain [anyBytes, "/"]]
  | .between => oneOf ["/", chain ["/", anyBytes, "/"]]
  | .trailing => chain ["/", anyBytes]
  | .set negated ranges => .char fun b => ByteSet.holds ranges b != negated
  | .choice options => oneOf (optionPatterns options)

/-- The pattern of parts in a row. -/
def rowPattern : List GlobPart → Pattern
  | [] => .empty
  | p :: ps => .seq p.pattern (rowPattern ps)

/-- The patterns of the options that are not empty. -/
def optionPatterns : List (List GlobPart) → List Pattern
  | [] => []
  | [] :: rest => optionPatterns rest
  | (p :: ps) :: rest => .seq p.pattern (rowPattern ps) :: optionPatterns rest

end

/-- The pattern of a whole path.  Two stars alone describe every path. -/
def wholePattern : List GlobPart → Pattern
  | [.leading] => anyBytes
  | parts => chain [textStart, rowPattern parts, textEnd]

end GlobPart

end Outline

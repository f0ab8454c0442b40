import Outline.Pattern.Basic

/-!
# Searching a text for a pattern

A search tries the places of a text from left to right and takes the first at which the pattern
matches.  The next search begins where the last match ended; an empty match there would repeat
the place, so it is passed over by one character.

* `Found`: a match, by the places of its ends and of its groups.
* `Pattern.first?`, `Pattern.all`: the first match, and all successive ones.
* `Pattern.occursIn`: whether there is one.
* `Pattern.eraseFirst`, `Pattern.eraseAll`: the text without the matches.
-/

namespace Outline

/-- A match of a pattern in a text; places count characters. -/
structure Found where
  start : Nat
  stop : Nat
  groups : List (Nat × Nat × Nat)
  deriving DecidableEq, Repr, Inhabited

namespace Found

/-- The ends of group `n`, if it took part. -/
def span? (f : Found) (n : Nat) : Option (Nat × Nat) :=
  f.groups.lookup n

/-- The piece of text between two places. -/
def cut (text : Text) (start stop : Nat) : Text :=
  (text.drop start).take (stop - start)

/-- The text of group `n`, if it took part. -/
def group? (f : Found) (text : Text) (n : Nat) : Option Text :=
  (f.span? n).map fun (a, b) => cut text a b

end Found

namespace Pattern

/-- The first place at or after `a` where the pattern matches, with the end of the match. -/
def firstFrom (p : Pattern) (limit : Nat) (before : Option Char) :
    (rest : Text) → (index : Nat) → Option (Nat × Attempt)
  | [], index => (p.run limit some ⟨before, [], index, []⟩).map fun e => (index, e)
  | c :: cs, index =>
    match p.run limit some ⟨before, c :: cs, index, []⟩ with
    | some e => some (index, e)
    | none => firstFrom p limit (some c) cs (index + 1)

/-- The first match in a text. -/
def first? (p : Pattern) (text : Text) : Option Found :=
  (p.firstFrom text.length none text 0).map fun (start, e) => ⟨start, e.index, e.groups⟩

/-- Whether the pattern matches somewhere in a text. -/
def occursIn (p : Pattern) (text : Text) : Bool := (p.first? text).isSome

/-- Successive matches from a place on; `last` is where the previous one ended. -/
def allFrom (p : Pattern) (limit : Nat) :
    Nat → Option Char → Text → Nat → Option Nat → List Found
  | 0, _, _, _, _ => []
  | fuel + 1, before, rest, index, last =>
    match p.firstFrom limit before rest index with
    | none => []
    | some (start, e) =>
      if e.index = start ∧ last = some start then
        match rest with
        | [] => []
        | c :: cs => allFrom p limit fuel (some c) cs (index + 1) last
      else
        ⟨start, e.index, e.groups⟩ :: allFrom p limit fuel e.before e.rest e.index (some e.index)

/-- All successive matches in a text. -/
def all (p : Pattern) (text : Text) : List Found :=
  p.allFrom text.length (2 * text.length + 2) none text 0 none

/-- The text outside the given matches, from place `from` on. -/
def outside (text : Text) (start : Nat) : List Found → Text
  | [] => text.drop start
  | f :: fs => Found.cut text start f.start ++ outside text f.stop fs

/-- The text without the first match. -/
def eraseFirst (p : Pattern) (text : Text) : Text :=
  outside text 0 (p.first? text).toList

/-- The text without any of the successive matches. -/
def eraseAll (p : Pattern) (text : Text) : Text :=
  outside text 0 (p.all text)

end Pattern

end Outline

import Outline.Pattern.Basic

/-!
# Building patterns

The pattern tables are written with these words.  A string stands for itself, so a declaration
reads in the order of its parts:
`chain [lineStart, opt (chain ["pub", gap]), "fn", gap, captured identifier]`.
-/

namespace Outline.Pattern

/-- The characters of a string, one after the other. -/
def literal (s : String) : Pattern :=
  match s.toList.map fun c => Pattern.char (· == c) with
  | [] => .empty
  | p :: ps => ps.foldl .seq p

instance : Coe String Pattern := ⟨literal⟩

/-- Patterns one after the other. -/
def chain : List Pattern → Pattern
  | [] => .empty
  | [p] => p
  | p :: ps => .seq p (chain ps)

/-- The first alternative that works. -/
def oneOf : List Pattern → Pattern
  | [] => .empty
  | [p] => p
  | p :: ps => .alt p (oneOf ps)

/-- The pattern or nothing. -/
def opt (p : Pattern) : Pattern := .alt p .empty

/-- Any number of rounds, as many as possible. -/
def many (p : Pattern) : Pattern := .star true p

/-- One or more rounds, as many as possible. -/
def many1 (p : Pattern) : Pattern := .seq p (.star true p)

/-- Any number of rounds, as few as possible. -/
def fewest (p : Pattern) : Pattern := .star false p

/-- One or more rounds, as few as possible. -/
def fewest1 (p : Pattern) : Pattern := .seq p (.star false p)

/-- One of the characters of a string. -/
def among (s : String) : Pattern := .char fun c => s.toList.contains c

/-- Any character but those of a string. -/
def except (s : String) : Pattern := .char fun c => !s.toList.contains c

/-- A word character. -/
def word : Pattern := .char isWord

/-- A word character or one of the string. -/
def wordOr (s : String) : Pattern := .char fun c => isWord c || s.toList.contains c

/-- An ASCII letter or one of the string. -/
def letterOr (s : String) : Pattern := .char fun c => c.isAlpha || s.toList.contains c

/-- An ASCII capital or one of the string. -/
def capitalOr (s : String) : Pattern := .char fun c => c.isUpper || s.toList.contains c

/-- An ASCII capital. -/
def capital : Pattern := .char Char.isUpper

/-- A small ASCII letter or one of the string. -/
def smallOr (s : String) : Pattern := .char fun c => c.isLower || s.toList.contains c

/-- White space, line feeds included. -/
def space : Pattern := .char isSpace

/-- Any character at all. -/
def anything : Pattern := .char fun _ => true

/-- A space or a tab. -/
def blank : Pattern := among " \t"

/-- Spaces and tabs, perhaps none. -/
def blanks : Pattern := many blank

/-- Spaces and tabs, at least one. -/
def gap : Pattern := many1 blank

/-- White space, perhaps none. -/
def spaces : Pattern := many space

/-- White space, at least one. -/
def spaces1 : Pattern := many1 space

/-- Word characters, at least one. -/
def wordRun : Pattern := many1 word

/-- A name that begins with a letter or an underscore. -/
def identifier : Pattern := .seq (letterOr "_") (many word)

/-- A name in which a dollar sign counts as a letter. -/
def dollarName : Pattern := .seq (letterOr "_$") (many (wordOr "$"))

/-- Captured as group 1. -/
def captured (p : Pattern) : Pattern := .group 1 p

/-- One of several words; the first that works. -/
def words (ws : List String) : Pattern := oneOf (ws.map literal)

/-- Any number of the given words, each with a gap after it. -/
def modifiers (ws : List String) : Pattern := many (.seq (words ws) gap)

def textStart : Pattern := .anchor .textStart
def textEnd : Pattern := .anchor .textEnd
def lineStart : Pattern := .anchor .lineStart
def lineEnd : Pattern := .anchor .lineEnd
def rowStart : Pattern := .anchor .rowStart
def rowEnd : Pattern := .anchor .rowEnd
def boundary : Pattern := .anchor .boundary

end Outline.Pattern

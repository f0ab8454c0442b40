import Outline.Check.Report
import Outline.Proofs.Strict.Relation
import Outline.Summary

/-!
# The way of a text without a parser

What is done with a text when there is no tree for it: structures by patterns, their relations, a
summary, and a check of the brackets.  The strict forms of the first two stand in the modules
before; a summary adds no place of its own to them.

The check walks through the text by an index that moves on by one character and by those that a
comment, a quote or a character literal passes over, so it may step over the end.  It looks at a
character only at an index before the end, and at the text from there on only where it has just
seen a quote (`bracketsAt?_eq`).

Main statement: none of the strict forms ever fails (`textPath_eq_some`).  For every text and every
language, no difference is below zero, no index or range lies outside of its list and no group is
missing, and the results are those of the plain forms.  This holds with any reader of headings whose
lines are those of places in the text.
-/

namespace Outline.Strict

/-! ## Brackets -/

/-- The number of characters of a character literal at the front of a text, the quotes included. -/
def charLiteralLength? : Text → Option Nat
  | '\'' :: '\\' :: _ :: '\'' :: _ => some 4
  | '\'' :: c :: '\'' :: _ => if c = '\\' then none else some 3
  | _ => none

/-- The number of characters that a character literal passes over behind its first quote. -/
def charLiteralSkip? (t : Text) : Option Nat :=
  match charLiteralLength? t with
  | some length => sub? length 1
  | none => some 0

theorem charLiteralSkip?_eq (rest : Text) :
    charLiteralSkip? ('\'' :: rest) = some (charLiteralRest rest) := by
  rw [charLiteralSkip?, charLiteralLength?.eq_def, charLiteralRest.eq_def]
  grind [sub?]

/-- The state after the character at index `i`, and how many of the next characters are passed
over. -/
def step? (q : QuoteRules) (chars : Text) (i : Nat) (state : ScanState) (c : Char) :
    Option (ScanState × Nat) :=
  if state = .code ∧ c = '\'' ∧ q.charLiterals then do
    let here ← range? chars i chars.length
    let skip ← charLiteralSkip? here
    return (.code, skip)
  else some (state.step q c (chars.drop (i + 1)))

theorem step?_eq (q : QuoteRules) {chars : Text} {i : Nat} (state : ScanState) {c : Char}
    (h : chars.drop i = c :: chars.drop (i + 1)) (hi : i ≤ chars.length) :
    step? q chars i state c = some (state.step q c (chars.drop (i + 1))) := by
  rw [step?]
  split
  case isTrue hquote =>
    obtain ⟨rfl, rfl, hliterals⟩ := hquote
    rw [range?_length hi, h]
    simp only [Option.bind_eq_bind, Option.bind_some, charLiteralSkip?_eq]
    simp [ScanState.step, hliterals]
  case isFalse => rfl

/-- The brackets that count, from index `i` on. -/
def bracketsAt? (q : QuoteRules) (chars : Text) (state : ScanState) (i line column : Nat) :
    Option (List Bracket) :=
  if _h : i < chars.length then do
    let c ← chars[i]?
    let (next, skip) ← step? q chars i state c
    let more ←
      if c = '\n' then bracketsAt? q chars next (i + 1 + skip) (line + 1) skip
      else bracketsAt? q chars next (i + 1 + skip) line (column + 1 + skip)
    return if state = .code ∧ (isOpening c ∨ isClosing c) then ⟨c, line, column + 1⟩ :: more
      else more
  else some []
termination_by chars.length - i

/-- Characters that are passed over only move the column. -/
theorem bracketsFrom_skip (q : QuoteRules) (state : ScanState) (line : Nat) :
    ∀ (skip column : Nat) (t : Text), bracketsFrom q state skip line column t =
      bracketsFrom q state 0 line (column + skip) (t.drop skip)
  | 0, column, t => rfl
  | skip + 1, column, [] => by rw [List.drop_nil, bracketsFrom, bracketsFrom]
  | skip + 1, column, _ :: rest => by
    rw [bracketsFrom, bracketsFrom_skip q state line skip (column + 1) rest, List.drop_succ_cons,
      Nat.add_right_comm, Nat.add_assoc]

/-- Walking by an index is walking through what is left. -/
theorem bracketsAt?_eq (q : QuoteRules) (chars : Text) (state : ScanState) (i line column : Nat) :
    bracketsAt? q chars state i line column =
      some (bracketsFrom q state 0 line column (chars.drop i)) := by
  rw [bracketsAt?]
  split
  case isTrue hi =>
    -- the index is before the end here; only the one that is walked on to may be behind it
    have hdrop := List.drop_eq_getElem_cons hi
    generalize chars[i] = c at hdrop
    have hget : chars[i]? = some c := by rw [← List.head?_drop, hdrop, List.head?_cons]
    rw [hget, Option.bind_eq_bind, Option.bind_some, step?_eq q state hdrop (Nat.le_of_lt hi),
      hdrop, bracketsFrom]
    rcases state.step q c (chars.drop (i + 1)) with ⟨next, skip⟩
    simp only [Option.bind_eq_bind, Option.bind_some, bracketsFrom_skip q next _ skip,
      List.drop_drop, bracketsAt?_eq q chars next (i + 1 + skip), Nat.zero_add]
    split
    · rfl
    · rfl
  case isFalse hi =>
    rw [List.drop_eq_nil_of_le (Nat.le_of_not_lt hi), bracketsFrom]
termination_by chars.length - i

/-- The brackets of a text that do not match. -/
def bracketIssues? (q : QuoteRules) (content : Text) : Option (List Issue) := do
  let found ← bracketsAt? q content .code 0 1 0
  return (matchBrackets [] found).mergeSort Issue.le

theorem bracketIssues?_eq (q : QuoteRules) (content : Text) :
    bracketIssues? q content = some (bracketIssues q content) := by
  rw [bracketIssues?, bracketsAt?_eq]
  rfl

/-! ## Check and summary -/

/-- Checks the form of a text without a parser. -/
def checkSyntax? (content : Text) (language : String) : Option Report := do
  let r := rulesOf language
  let issues ←
    if r.blockStyle = .markdown then some []
    else bracketIssues? ⟨r.charLiterals, r.hashComments⟩ content
  return ⟨.text, issues⟩

theorem checkSyntax?_eq (content : Text) (language : String) :
    checkSyntax? content language = some (checkSyntax none content language) := by
  simp only [checkSyntax?, checkSyntax, treeOf?, bracketIssues?_eq]
  split
  · rfl
  · rfl

/-- The summary of a text without a parser. -/
def summarise? (content : Text) (language : String)
    (reader : Text → List Markdown.Heading := Markdown.headings) : Option FileSummary := do
  let found ← extractText? content language reader
  return {
    language
    strategy := found.strategy
    totalLines := content.lineCount
    topLevel := found.topLevel.length
    nested := found.nested.length
    internal := found.internal.length
    byKind := tally (found.topLevel.map (·.kind) ++ found.nested.map (·.kind) ++
      found.internal.map (·.kind))
    analysis := analyse content (fileKind (rulesOf language).blockStyle) none }

theorem summarise?_eq (maxDepth : Nat) {content : Text} {reader : Text → List Markdown.Heading}
    (hreader : Markdown.FindsPlaces reader content) (language : String) :
    summarise? content language reader =
      some (summarise none maxDepth content language reader) := by
  rw [summarise?, extractText?_eq hreader]
  rfl

/-- Without a parser every text goes through: its structures, their relations, its summary and the
check of its brackets come out without a difference below zero, a place out of range or a group
that is missing.  In Markdown this asks of the headings only that their lines are those of places in
the text, whatever finds them. -/
theorem textPath_eq_some (strategy : StrengthStrategy) (maxDepth : Nat) (content : Text)
    (language : String) :
    extractText? content language = some (extractText content language) ∧
      relate? strategy (extractText content language) content =
        some (relate strategy (extractText content language) content) ∧
      summarise? content language = some (summarise none maxDepth content language) ∧
      checkSyntax? content language = some (checkSyntax none content language) ∧
      ∀ reader, Markdown.FindsPlaces reader content →
        extractText? content language reader = some (extractText content language reader) ∧
          relate? strategy (extractText content language reader) content =
            some (relate strategy (extractText content language reader) content) ∧
          summarise? content language reader =
            some (summarise none maxDepth content language reader) := by
  have hrelate : ∀ reader, relate? strategy (extractText content language reader) content =
      some (relate strategy (extractText content language reader) content) := by
    intro reader
    have htree : (extractText content language reader).tree = none := rfl
    exact relate?_eq strategy htree content
  have hheadings : Markdown.FindsPlaces Markdown.headings content :=
    (Markdown.findsFilledLines_headings content).findsPlaces
  refine ⟨extractText?_eq hheadings language, hrelate _, summarise?_eq maxDepth hheadings language,
    checkSyntax?_eq content language, fun reader hreader => ?_⟩
  exact ⟨extractText?_eq hreader language, hrelate reader, summarise?_eq maxDepth hreader language⟩

/-- A note whose heading is known goes through as it does when the heading is read. -/
theorem textPath_eq_some_of_note :
    (extractText Markdown.noteText "markdown" Markdown.noteHeadings).topLevel.map
        (fun s => (s.location.start, s.location.stop)) = [(2, 3)] ∧
      extractText? Markdown.noteText "markdown" Markdown.noteHeadings =
        some (extractText Markdown.noteText "markdown" Markdown.noteHeadings) := by
  obtain ⟨-, -, -, -, hreader⟩ := textPath_eq_some .sizeRatio 10 Markdown.noteText "markdown"
  exact ⟨by decide +kernel,
    (hreader _ Markdown.findsFilledLines_noteHeadings.findsPlaces).1⟩

end Outline.Strict

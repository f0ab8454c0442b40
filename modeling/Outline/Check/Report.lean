import Outline.Check.Bracket
import Outline.Extraction.Basic

/-!
# Checking a text

With a tree, the nodes that could not be read are the faults of a text; without one, its
unmatched brackets are.  A Markdown text has no brackets to match.

* `Report`, `checkSyntax`.
-/

namespace Outline

/-- The outcome of a check. -/
structure Report where
  strategy : Strategy
  issues : List Issue
  deriving DecidableEq, Repr

/-- Whether no fault was found. -/
def Report.isValid (r : Report) : Bool := r.issues.isEmpty

/-- The most characters of a text that a message shows. -/
def snippetLength : Nat := 40

/-- The beginning of the first line of a text. -/
def snippet (t : Text) : String :=
  String.ofList (Text.trim ((t.lines.head?.getD []).take snippetLength))

/-- The fault that a node stands for. -/
def issueOfNode (content : Text) (n : Node) : Issue where
  line := n.start.row + 1
  column := n.start.column + 1
  cause :=
    if n.startByte = n.stopByte then .missing n.kind
    else .unexpected (snippet ((content.byteRange? n.startByte n.stopByte).getD []))

/-- Checks the form of a text. -/
def checkSyntax (parser : Option ParserService) (content : Text) (language : String) : Report :=
  match treeOf? parser content language with
  | some t => ⟨.tree, t.errors.map (issueOfNode content)⟩
  | none =>
    let r := rulesOf language
    ⟨.text,
      if r.blockStyle = .markdown then []
      else bracketIssues ⟨r.charLiterals, r.hashComments⟩ content⟩

end Outline

import Outline.Extraction.Distinct
import Outline.Language.BlockEnd
import Outline.Language.Registry
import Outline.Markdown.Section
import Outline.Structure.Basic

/-!
# Structures from text

Where there is no tree, the patterns of the language find the first line of each structure and
the block style finds its last one.

* `TextExtraction.topLevel`: one structure a line at most; the first pattern that names one there
  decides.  A document format is one structure, a Markdown text one per section.
* `TextExtraction.nested`: patterns inside the containers; a line belongs to the smallest one.
* `TextExtraction.internal`: statement patterns in function bodies; a statement belongs to the
  smallest function around it.
* `extractText`: the three tiers together.
-/

namespace Outline

/-- The whole text as one structure, unless it is blank. -/
def wholeText? (content : Text) (language : String) (node : Option Nat) : Option Structure :=
  if content.isBlank then none
  else some
    { kind := .document
      name := "document"
      content := String.ofList content
      location := .clamped 1 content.lineCount
      node
      language
      confidence := .percent 90 }

namespace TextExtraction

/-- A match of a rule: the line it begins on, counted from one in the searched text, and the name
it captured. -/
structure Hit where
  rule : PatternRule
  line : Nat
  name : Option String

namespace Hit

/-- The first group that holds more than blanks. -/
def capturedName? (pattern : Pattern) (text : Text) (f : Found) : Option String :=
  (List.range pattern.groupCount).findSome? fun i => do
    let name := Text.trim (← f.group? text (i + 1))
    if name.isEmpty then none else some (String.ofList name)

/-- The matches of a rule in a text. -/
def ofRule (text : Text) (rule : PatternRule) : List Hit :=
  (rule.pattern.all text).map fun f =>
    ⟨rule, text.lineAt f.start, capturedName? rule.pattern text f⟩

/-- The matches of several rules, rule by rule. -/
def ofRules (text : Text) (rules : List PatternRule) : List Hit := rules.flatMap (ofRule text)

/-- Whether the captured name declares nothing. -/
def isReserved (h : Hit) : Bool := h.name.any isReservedWord

end Hit

/-! ## Top level -/

/-- Lines `start` to `stop`, counted from one. -/
def slice (lines : List Text) (start stop : Nat) : String :=
  String.ofList (sliceLines lines (start - 1) (stop - 1))

/-- The last line of the construct that begins on a line, both counted from one. -/
def endLine (lines : List Text) (style : BlockStyle) (line : Nat) : Nat :=
  blockEnd lines (line - 1) style + 1

/-- The structure that a match announces. -/
def structureAt (lines : List Text) (style : BlockStyle) (language : String) (h : Hit) :
    Structure :=
  let stop := endLine lines style h.line
  { kind := h.rule.kind
    name := h.name.getD (defaultName h.rule.kind h.line)
    content := slice lines h.line stop
    location := .clamped h.line stop
    node := none
    language
    confidence := h.rule.confidence }

/-- By first line, then by last line. -/
def locationLe (a b : Location) : Bool :=
  a.start < b.start || (a.start == b.start && a.stop ≤ b.stop)

/-- The structures that the patterns of a language find at the top level. -/
def declarations (r : Rules) (content : Text) (language : String) : List Structure :=
  let hits := (Hit.ofRules content (r.patterns .topLevel)).filter fun h => !h.isReserved
  ((distinctBy Hit.line hits).map (structureAt content.lines r.blockStyle language)).mergeSort
    fun a b => locationLe a.location b.location

/-- The section under a heading. -/
def ofSection (lines : List Text) (language : String) (s : Markdown.Section) : Structure :=
  { kind := .sectionBlock
    name := if s.title.isEmpty then defaultName .sectionBlock s.start else s.title
    content := slice lines s.start s.stop
    location := .clamped s.start s.stop
    node := none
    language
    confidence := .percent 90 }

/-- The sections of a Markdown text; a text without headings is one document. -/
def sections (content : Text) (language : String)
    (reader : Text → List Markdown.Heading := Markdown.headings) : List Structure :=
  match Markdown.sections content reader with
  | [] => (wholeText? content language none).toList
  | found => found.map (ofSection content.lines language)

/-- The structures at the top level. -/
def topLevel (r : Rules) (content : Text) (language : String)
    (reader : Text → List Markdown.Heading := Markdown.headings) : List Structure :=
  match r.blockStyle with
  | .markdown => sections content language reader
  | .document => (wholeText? content language none).toList
  | _ => declarations r content language

/-! ## Nested -/

/-- The structure that a match inside a parent announces.  The first line of a parent is its own
header, except in a document. -/
def nestedAt? (lines : List Text) (style : BlockStyle) (language : String) (parent : Structure)
    (h : Hit) : Option NestedStructure :=
  let line := parent.location.start + h.line - 1
  if (line = parent.location.start ∧ parent.kind ≠ .document) ∨ h.isReserved then none
  else
    let kind := memberKind parent.kind h.rule.kind
    let stop := min (endLine lines style line) parent.location.stop
    some
      { kind
        name := h.name.getD (defaultName kind line)
        content := slice lines line stop
        location := .clamped line stop
        node := none
        language
        confidence := h.rule.confidence
        parent := parent.ref
        level := 0 }

/-- Whether patterns are looked for inside a structure. -/
def isSearched (s : Structure) : Bool := s.kind.isContainer || s.kind == .document

/-- The matches inside a parent. -/
def nestedIn (r : Rules) (lines : List Text) (language : String) (parent : Structure) :
    List NestedStructure :=
  (Hit.ofRules parent.content.toList (r.patterns .nested)).filterMap
    (nestedAt? lines r.blockStyle language parent)

/-- Keeps one entry a line: a new one takes the place of the held one only if its parent is
smaller. -/
def hold (held : List NestedStructure) (new : NestedStructure) : List NestedStructure :=
  match held with
  | [] => [new]
  | old :: rest =>
    if old.location.start = new.location.start then
      if old.parent.location.lineCount ≤ new.parent.location.lineCount then old :: rest
      else new :: rest
    else old :: hold rest new

/-- The structures inside the containers. -/
def nested (r : Rules) (content : Text) (language : String) (top : List Structure) :
    List NestedStructure :=
  let found := (top.filter isSearched).flatMap (nestedIn r content.lines language)
  (found.foldl hold []).mergeSort fun a b => a.location.start ≤ b.location.start

/-! ## Internal -/

/-- Whether a line lies in the body of a structure: after its first line. -/
def inBody (p : Ref) (line : Nat) : Bool := p.location.start < line && line ≤ p.location.stop

/-- The first of the smallest entries. -/
def smallest? {α : Type} (size : α → Nat) : List α → Option α
  | [] => none
  | a :: as =>
    match smallest? size as with
    | none => some a
    | some b => if size a ≤ size b then some a else some b

/-- The place, in the list of functions, of the smallest one whose body holds a line. -/
def innermost? (parents : List Ref) (line : Nat) : Option Nat :=
  (smallest? (fun p : Ref × Nat => p.1.location.lineCount)
    (parents.zipIdx.filter fun p => inBody p.1 line)).map (·.2)

/-- The statement that a match in the body of a function announces; the line is counted from one
in the whole text. -/
def statementAt (lines : List Text) (style : BlockStyle) (parent : Ref) (h : Hit) :
    InternalStructure :=
  let line := h.line
  let open? := hasUnclosedBracket ((lines[line - 1]?).getD [])
  let stop :=
    if h.rule.kind = .controlFlow ∨ open? then min (endLine lines style line) parent.location.stop
    else line
  { kind := h.rule.kind
    name := if h.rule.kind.isBinding then h.name else none
    content := slice lines line stop
    location := .clamped line stop
    parent
    importance := h.rule.importance
    confidence := h.rule.confidence }

/-- The matches in the body of a function, with their lines in the whole text. -/
def bodyHits (r : Rules) (lines : List Text) (parent : Ref) : List Hit :=
  let l := parent.location
  if l.stop ≤ l.start then []
  else
    (Hit.ofRules (sliceLines lines l.start (l.stop - 1)) (r.patterns .internal)).map fun h =>
      { h with line := l.start + h.line }

/-- The statements inside the functions. -/
def internal (r : Rules) (content : Text) (top : List Structure)
    (nested : List NestedStructure) : List InternalStructure :=
  let lines := content.lines
  let parents := (top.map Structure.ref ++ nested.map NestedStructure.ref).filter
    fun p => p.kind.isFunctionLike
  let owned := parents.zipIdx.flatMap fun (parent, index) =>
    ((bodyHits r lines parent).filter fun h => innermost? parents h.line == some index).map
      fun h => (parent, h)
  ((distinctBy (fun (_, h) => (h.line, h.rule.kind)) owned).map
    fun (parent, h) => statementAt lines r.blockStyle parent h).mergeSort
      fun a b => locationLe a.location b.location

end TextExtraction

/-- The structures of a text, found by patterns, and in Markdown by its headings. -/
def extractText (content : Text) (language : String)
    (reader : Text → List Markdown.Heading := Markdown.headings) : Extraction :=
  let r := rulesOf language
  let topLevel := TextExtraction.topLevel r content language reader
  let nested := TextExtraction.nested r content language topLevel
  { language
    strategy := .text
    topLevel
    nested
    internal := TextExtraction.internal r content topLevel nested
    tree := none }

end Outline

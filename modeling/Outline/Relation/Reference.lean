import Outline.Extraction.Distinct
import Outline.Language.Registry
import Outline.Pattern.Search
import Outline.Relation.Basic

/-!
# References

Calls come from the nodes of the tree or else from the lines of the text; names of types and of
variables come from the lines in either case.  A reference belongs to the smallest structure
around its line, or to the file.

* `treeCalls`, `textCalls`: calls.
* `typeReferences`, `variableReferences`: names.
* `findReferences`: all of them, by line, none twice.
-/

namespace Outline

open Pattern

/-- Words that look like calls and are none. -/
def callStopwords : List String :=
  ["and", "or", "not", "in", "is", "func", "fn", "def", "lambda", "except", "when", "unless",
   "until", "elsif", "print", "super", "self", "this"]

def isCallStopword (name : String) : Bool := isReservedWord name || callStopwords.contains name

/-- What a call means: a function of that name, else a type, else anything else but an import or
export. -/
def resolveCallee? (structures : List Ref) (name : String) : Option Ref :=
  let named := structures.filter fun s => s.name == name
  ((named.find? fun s => s.kind.isFunctionLike).or
    (named.find? fun s => s.kind.isTypeLike)).or
    (named.find? fun s => !s.kind.isBorder)

/-- The structure that a line belongs to. -/
def ownerOf (structures : List Ref) (scope : Ref) (line : Nat) : Ref :=
  (innermost? structures line).getD scope

/-- A call on a line. -/
def callOn (structures : List Ref) (scope : Ref) (name : String) (line : Nat) : Reference :=
  let target := resolveCallee? structures name
  { source := ownerOf structures scope line
    target
    kind := .functionCall
    name
    line
    confidence := if target.isSome then .percent 90 else .percent 50 }

/-! ## Calls in a tree -/

/-- The fields in which a call keeps what it calls. -/
def calleeFields : List String := ["function", "name", "method", "macro"]

/-- The name that a call node calls: the last identifier of the called expression. -/
def calleeName? (t : SyntaxTree) (call : Nat) : Option String := do
  let target ← (calleeFields.findSome? (t.childByField? call)).or
    ((t.children call).find? t.isNamed)
  let id ← if SyntaxTree.isIdentifierKind (t.kind target) then some target
    else (t.findAll target SyntaxTree.identifierKinds).getLast?
  return String.ofList (t.text id)

/-- The call of a node, if it is one. -/
def callAt? (r : Rules) (structures : List Ref) (t : SyntaxTree) (scope : Ref) (id : Nat) :
    Option Reference := do
  let n ← t.get? id
  if !n.named || !r.isCall n.kind then none
  else
    let name ← calleeName? t id
    if isCallStopword name then none
    else return callOn structures scope name (n.start.row + 1)

/-- The calls of a tree, in the order of its nodes. -/
def treeCalls (r : Rules) (structures : List Ref) (t : SyntaxTree) (scope : Ref) :
    List Reference :=
  (List.range t.size).filterMap (callAt? r structures t scope)

/-! ## Calls in text -/

/-- A name with an opening bracket after it. -/
def callPattern : Pattern := chain [boundary, captured dollarName, blanks, "("]

/-- A word that declares what follows it. -/
def declarationBefore : Pattern :=
  chain [oneOf [chain [boundary, "function", blanks, opt "*"],
    chain [boundary, words ["def", "fn", "func", "class", "interface", "struct", "trait", "enum",
      "sub", "proc"]]], blanks, textEnd]

/-- A word that constructs what follows it. -/
def constructionBefore : Pattern := chain [boundary, "new", gap, textEnd]

/-- The call that a match stands for.  A declaration is no call, and nor is a construction. -/
def callOfMatch? (structures : List Ref) (scope : Ref) (text : Text) (line : Nat) (f : Found) :
    Option Reference := do
  let (start, stop) ← f.span? 1
  let name := String.ofList (Found.cut text start stop)
  let before := text.take start
  let declared := structures.any fun s => s.location.start == line && s.name == name
  if isCallStopword name || declarationBefore.occursIn before ||
      constructionBefore.occursIn before || declared then none
  else return callOn structures scope name line

/-- The lines of a text with their numbers, counted from one. -/
def numberedLines (content : Text) : List (Text × Nat) := content.lines.zipIdx 1

/-- The calls of a text. -/
def textCalls (structures : List Ref) (content : Text) (scope : Ref) : List Reference :=
  (numberedLines content).flatMap fun (text, line) =>
    (callPattern.all text).filterMap (callOfMatch? structures scope text line)

/-! ## Names of types -/

/-- A capitalised name where a type is expected. -/
def typePattern : Pattern :=
  chain [oneOf [chain [words ["->", ":"], blanks], chain [boundary, "new", gap],
    chain ["<", blanks], chain [boundary, "as", gap]],
    captured (chain [capital, many (letterOr "0123456789_")])]

/-- The reference that a match stands for, unless the name is one letter or `Self`. -/
def typeOfMatch? (structures : List Ref) (scope : Ref) (text : Text) (line : Nat) (f : Found) :
    Option Reference := do
  let name := String.ofList (← f.group? text 1)
  if name.length < 2 || name == "Self" then none
  else
    let target := structures.find? fun s => s.kind.isTypeLike && s.name == name
    return {
      source := ownerOf structures scope line
      target
      kind := .typeName
      name
      line
      confidence := if target.isSome then .percent 80 else .percent 40 }

/-- Whether a type is declared on a line; such a line holds heritage, not usage. -/
def declaresType (structures : List Ref) (line : Nat) : Bool :=
  structures.any fun s => s.location.start == line && (s.kind.isTypeLike || s.kind == .impl)

/-- The names of types in a text. -/
def typeReferences (structures : List Ref) (content : Text) (scope : Ref) : List Reference :=
  ((numberedLines content).filter fun (_, line) => !declaresType structures line).flatMap
    fun (text, line) => (typePattern.all text).filterMap (typeOfMatch? structures scope text line)

/-! ## Names of variables -/

/-- Whether the uses of a structure are looked for: a variable or constant with a name of at least
two bytes that is one word. -/
def isTrackedVariable (s : Ref) : Bool :=
  s.kind.isBinding && 2 ≤ s.name.utf8ByteSize &&
    s.name.toList.all fun c => isAlphanumeric c || c == '_'

/-- The uses of a variable outside of its own lines. -/
def usesOf (structures : List Ref) (content : Text) (scope v : Ref) : List Reference :=
  let pattern := chain [boundary, literal v.name, boundary]
  ((numberedLines content).filter fun (text, line) =>
    !v.location.containsLine line && pattern.occursIn text).map fun (_, line) =>
      { source := (innermostWhere? (· != v) structures line).getD scope
        target := some v
        kind := .variableName
        name := v.name
        line
        confidence := .percent 70 }

/-- The uses of all variables. -/
def variableReferences (structures : List Ref) (content : Text) (scope : Ref) : List Reference :=
  (structures.filter isTrackedVariable).flatMap (usesOf structures content scope)

/-- All references, by line; of those that agree in everything but the target only the first. -/
def findReferences (r : Rules) (structures : List Ref) (content : Text)
    (tree : Option SyntaxTree) : List Reference :=
  let scope := fileScope content
  let calls := match tree with
    | some t => treeCalls r structures t scope
    | none => textCalls structures content scope
  (distinctBy (fun r : Reference => (r.source, r.kind, r.name, r.line))
    (calls ++ typeReferences structures content scope ++
      variableReferences structures content scope)).mergeSort fun a b => a.line ≤ b.line

end Outline

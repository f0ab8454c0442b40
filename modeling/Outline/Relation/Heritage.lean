import Outline.Language.Registry
import Outline.Pattern.Search
import Outline.Relation.Basic

/-!
# Heritage

What a type is built upon is read from the fields of its node, or else from the text of its
header, in the way of its language.

* `headerText`: the header of a declaration.
* `baseName`, `splitBases`: the names in a list of bases.
* `HeritageClause`, `textHeritage`, `treeHeritage`: the bases of one declaration.
* `HeritageLink`, `heritageLinks`: the bases of all declarations, resolved where they are
  declared in the same file.
-/

namespace Outline

open Pattern

/-! ## Names -/

/-- The last part of a path, without type arguments. -/
def baseName (t : Text) : Text :=
  let head := Text.trim (t.takeWhile fun c => !(c == '<' || c == '[' || c == '('))
  let parts := Text.splitWhere (fun c => c == '.' || c == ':' || c == '\\') head
  Text.trim ((parts.reverse.find? fun part => !part.isEmpty).getD [])

/-- Whether a name begins like one. -/
def beginsName (t : Text) : Bool :=
  match t with
  | [] => false
  | c :: _ => isAlphabetic c || c == '_' || c == '$'

/-- Type arguments without others inside. -/
def innerArguments : Pattern := chain ["<", many (except "<>"), ">"]

/-- Erases type arguments from the inside out; each round makes the text shorter. -/
def stripArgumentsFuel : Nat → Text → Text
  | 0, t => t
  | fuel + 1, t =>
    if innerArguments.occursIn t then stripArgumentsFuel fuel (innerArguments.eraseAll t) else t

/-- Without type arguments. -/
def stripArguments (t : Text) : Text := stripArgumentsFuel t.length t

/-- Words about access before a base. -/
def accessWords : Pattern :=
  chain [textStart, many1 (chain [words ["public", "private", "protected", "virtual", "internal",
    "open"], spaces1])]

/-- A base, and whether it is called like a constructor. -/
structure Base where
  name : Text
  called : Bool
  deriving DecidableEq, Repr

/-- The bases of a list with commas. -/
def splitBases (t : Text) : List Base :=
  (Text.splitOn ',' (stripArguments t)).filterMap fun part =>
    let part := accessWords.eraseFirst part.trim
    let name := baseName part
    if beginsName name then some ⟨name, part.any (· == '(')⟩ else none

/-! ## Headers -/

/-- The most lines of a header. -/
def headerLines : Nat := 5

/-- The text of header lines up to an opening brace or a line that ends in a colon. -/
def joinHeader : List Text → Text
  | [] => []
  | line :: rest =>
    if line.any (· == '\x7b') then line.takeWhile (· != '\x7b')
    else if line.trimEnd.getLast? = some ':' then line ++ [' ']
    else line ++ ' ' :: joinHeader rest

/-- The header of the declaration at a location. -/
def headerText (lines : List Text) (l : Location) : Text :=
  let start := l.start - 1
  let last := min (start + headerLines - 1) (l.stop - 1)
  joinHeader ((lines.take (last + 1)).drop start)

/-! ## Text -/

/-- The bases of one declaration. -/
structure HeritageClause where
  extended : List Text := []
  implemented : List Text := []
  deriving DecidableEq, Repr

/-- Whether there are no bases. -/
def HeritageClause.isEmpty (h : HeritageClause) : Bool :=
  h.extended.isEmpty && h.implemented.isEmpty

/-- Type arguments after a base. -/
def optionalArguments : Pattern := opt (chain [spaces, "<", many (except "\x7b>"), ">"])

/-- A keyword with a list of bases. -/
def baseClause (keyword : String) : Pattern :=
  let base := many1 (wordOr ".$")
  chain [boundary, keyword, spaces1, captured (chain [base, optionalArguments,
    many (chain [spaces, ",", spaces, base, optionalArguments])])]

/-- A declaration with bases after a colon. -/
def colonClause : Pattern :=
  chain [boundary, words ["class", "struct", "interface", "object", "record", "protocol", "enum"],
    spaces1, wordRun, opt (chain [spaces, "<", many (except ">\x7b"), ">"]),
    opt (chain [spaces, "(", many (except ")"), ")"]), spaces, ":", spaces,
    captured (many1 (except "\x7b;"))]

/-- Constraints behind a list of bases. -/
def whereClause : Pattern := chain [boundary, "where", boundary, many (except "\n"), textEnd]

/-- A class with bases between round brackets. -/
def argumentClause : Pattern :=
  chain [boundary, "class", spaces1, wordRun, spaces, "(", captured (many (except ")")), ")"]

/-- Type parameters with anything but a brace inside. -/
def optionalParameters : Pattern := opt (chain [spaces, "<", fewest (except "\x7b"), ">"])

/-- A trait implemented for a type. -/
def implClause : Pattern :=
  chain [boundary, "impl", optionalParameters, spaces1, captured (many1 (wordOr ":")),
    optionalParameters, spaces1, "for", spaces1, .group 2 (many1 (wordOr ":"))]

/-- A trait with traits that it demands. -/
def supertraitClause : Pattern :=
  chain [boundary, "trait", spaces1, wordRun, optionalParameters, spaces, ":", spaces,
    captured (many1 (except "\x7b"))]

/-- A class with one base after an angle bracket. -/
def angleClause : Pattern :=
  chain [boundary, "class", spaces1, many1 (wordOr ":"), spaces, "<", spaces,
    captured (many1 (wordOr ":"))]

/-- The first group of the first match. -/
def capture? (p : Pattern) (t : Text) : Option Text := (p.first? t).bind fun f => f.group? t 1

/-- The names of the bases after a keyword. -/
def clauseBases (keyword : String) (header : Text) : List Text :=
  ((capture? (baseClause keyword) header).map fun t => (splitBases t).map (·.name)).getD []

/-- Whether a base in a list after a colon is implemented rather than extended, by the customs of
the language: an interface only extends; otherwise a name in `I` and a capital, a base that is not
called, or a base that is not the first one, is an interface. -/
def isImplementedBase (language : String) (kind : Kind) (position : Nat) (b : Base) : Bool :=
  if kind = .interface then false
  else if language == "csharp" then
    match b.name with
    | 'I' :: c :: _ => isUppercase c
    | _ => false
  else if language == "kotlin" then !b.called
  else if language == "swift" then 0 < position
  else false

/-- The names in a list that satisfy `p`, reduced to their last parts. -/
def listedBases (separator : Char) (p : Text → Bool) (t : Text) : List Text :=
  ((((Text.splitOn separator t).map Text.trim).filter p).map baseName).filter beginsName

/-- The bases that the header of a declaration names. -/
def textHeritage (family : Heritage) (language : String) (kind : Kind) (header : Text) :
    HeritageClause :=
  match family with
  | .clauses => ⟨clauseBases "extends" header, clauseBases "implements" header⟩
  | .colonList =>
    match capture? colonClause header with
    | none => {}
    | some list =>
      let bases := splitBases (whereClause.eraseFirst list)
      let (implemented, extended) := bases.zipIdx.partition fun (b, position) =>
        isImplementedBase language kind position b
      ⟨extended.map (·.1.name), implemented.map (·.1.name)⟩
  | .argumentList =>
    match capture? argumentClause header with
    | none => {}
    | some list =>
      ⟨listedBases ','
        (fun b => !b.isEmpty && !b.any (· == '=') && b != "object".toList) list, []⟩
  | .implFor =>
    match (if kind = .trait then capture? supertraitClause header else none) with
    | none => {}
    | some list =>
      ⟨listedBases '+' (fun b => b.head? != some '\'' && b.head? != some '?') list, []⟩
  | .angle => ⟨((capture? angleClause header).map baseName).toList, []⟩
  | .none => {}

/-! ## Trees -/

/-- Nodes that name a base by themselves. -/
def baseNodeKinds : List String :=
  ["generic_type", "scoped_type_identifier", "scoped_identifier", "attribute", "subscript",
   "member_expression"]

/-- The names of the bases at and below a node. -/
def heritageNames (t : SyntaxTree) (id : Nat) : List Text :=
  let kind := t.kind id
  if kind == "keyword_argument" || kind == "comment" then []
  else if SyntaxTree.isIdentifierKind kind || baseNodeKinds.contains kind then
    let name := baseName (t.text id)
    if beginsName name then [name] else []
  else
    (t.children id).attach.flatMap fun ⟨c, _⟩ => if t.isNamed c then heritageNames t c else []
termination_by t.size - id
decreasing_by
  have := SyntaxTree.lt_of_mem_children (t := t) (p := id) (c := c) (by assumption)
  omega

/-- The bases that the fields of a node hold. -/
def treeHeritage (t : SyntaxTree) (node : Nat) : HeritageClause :=
  let names (field : String) : List Text :=
    ((t.childByField? node field).map (heritageNames t)).getD []
  ⟨names "superclass" ++ names "superclasses", names "interfaces"⟩

/-! ## All declarations -/

/-- A declaration with one of its bases. -/
structure HeritageLink where
  /-- The declaration that names the base. -/
  source : Ref
  /-- The type that has the base. -/
  child : Ref
  /-- The declaration of the base, if it is in the same file. -/
  parent : Option Ref
  target : String
  implemented : Bool
  deriving DecidableEq, Repr

namespace HeritageLink

/-- The link as something built upon. -/
def dependency (l : HeritageLink) : Dependency where
  source := some l.source
  kind := if l.implemented then .implementation else .inheritance
  target := l.target
  line := l.source.location.start
  confidence := if l.parent.isSome then .percent 90 else .percent 60

/-- The link as a pair of structures. -/
def edge? (l : HeritageLink) : Option Edge :=
  l.parent.map fun parent =>
    ⟨parent, l.child, if l.implemented then .implementation else .extension, .one⟩

end HeritageLink

/-- The first type with a name, other than one structure. -/
def findType? (structures : List Ref) (name : String) (other : Ref) : Option Ref :=
  structures.find? fun s => s.kind.isTypeLike && s.name == name && s != other

/-- The link of a trait with the type it is implemented for. -/
def implLink? (structures : List Ref) (header : Text) (s : Ref) : Option HeritageLink := do
  let f ← implClause.first? header
  let traitName := String.ofList (baseName (← f.group? header 1))
  let typeName := String.ofList (baseName (← f.group? header 2))
  let child := (findType? structures typeName s).getD s
  return ⟨s, child, findType? structures traitName child, traitName, true⟩

/-- The links of a declaration with the bases it names. -/
def baseLinks (structures : List Ref) (s : Ref) (h : HeritageClause) : List HeritageLink :=
  let link (implemented : Bool) (name : Text) : HeritageLink :=
    let target := String.ofList name
    ⟨s, s, findType? structures target s, target, implemented⟩
  h.extended.map (link false) ++ h.implemented.map (link true)

/-- The links of one declaration. -/
def linksOf (r : Rules) (structures : List Ref) (lines : List Text) (tree : Option SyntaxTree)
    (s : Ref) : List HeritageLink :=
  let header := headerText lines s.location
  if r.heritage = .implFor ∧ s.kind = .impl then (implLink? structures header s).toList
  else
    let inTree : HeritageClause := match tree, s.node with
      | some t, some node => treeHeritage t node
      | _, _ => {}
    baseLinks structures s
      (if inTree.isEmpty then textHeritage r.heritage r.name s.kind header else inTree)

/-- The links of all declarations. -/
def heritageLinks (r : Rules) (structures : List Ref) (content : Text)
    (tree : Option SyntaxTree) : List HeritageLink :=
  if r.heritage = .none then []
  else (structures.filter fun s => s.kind.isTypeLike || s.kind == .impl).flatMap
    (linksOf r structures content.lines tree)

end Outline

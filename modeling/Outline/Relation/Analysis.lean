import Outline.Import
import Outline.Relation.Containment
import Outline.Relation.Heritage
import Outline.Relation.Reference

/-!
# The relations of a file

* `Relations`: edges, references and dependencies.
* `relate`: the relations of what was extracted from a text.
* `Relations.callGraph`, `inheritanceHierarchy`, `moduleDependencies`: the relations as tables
  from names to names.
-/

namespace Outline

/-- The relations of a file. -/
structure Relations where
  edges : List Edge
  references : List Reference
  dependencies : List Dependency
  deriving DecidableEq, Repr

/-- The imports of a text as dependencies. -/
def importDependencies (structures : List Ref) (content : Text) : List Dependency :=
  (scanImports content).map fun i =>
    ⟨innermost? structures i.line, .importing, i.target, i.line, .percent 95⟩

/-- The use that a resolved reference to another type makes of it. -/
def Reference.usage? (r : Reference) : Option Edge :=
  match r.kind, r.target with
  | .typeName, some target =>
    if target = r.source then none else some ⟨r.source, target, .usage, r.confidence⟩
  | _, _ => none

/-- The uses of types, each pair of structures once. -/
def usageEdges (references : List Reference) : List Edge :=
  distinctBy (fun e : Edge => (e.parent, e.child)) (references.filterMap Reference.usage?)

/-- The relations of what was extracted from a text. -/
def relate (strategy : StrengthStrategy) (found : Extraction) (content : Text) : Relations :=
  let r := rulesOf found.language
  let links := heritageLinks r found.named content found.tree
  let references := findReferences r found.named content found.tree
  { edges := containment strategy found.named found.tree ++
      links.filterMap HeritageLink.edge? ++ usageEdges references
    references
    dependencies :=
      (importDependencies found.named content ++ links.map HeritageLink.dependency).mergeSort
        fun a b => a.line ≤ b.line }

/-! ## Tables -/

/-- Texts in order, each once. -/
def sortedOnce (xs : List String) : List String := xs.eraseDups.mergeSort fun a b => a ≤ b

/-- The values of each key; keys and values in order. -/
def group (pairs : List (String × String)) : List (String × List String) :=
  (sortedOnce (pairs.map (·.1))).map fun key =>
    (key, sortedOnce ((pairs.filter fun p => p.1 == key).map (·.2)))

namespace Relations

/-- The names that each structure calls. -/
def callGraph (r : Relations) : List (String × List String) :=
  group ((r.references.filter fun x => x.kind == .functionCall).map
    fun x => (x.source.name, x.name))

/-- The bases of each type. -/
def inheritanceHierarchy (r : Relations) : List (String × List String) :=
  group ((r.dependencies.filter fun d => d.kind != .importing).filterMap fun d =>
    d.source.map fun s => (s.name, d.target))

/-- What each structure, or the file, imports. -/
def moduleDependencies (r : Relations) : List (String × List String) :=
  group ((r.dependencies.filter fun d => d.kind == .importing).map fun d =>
    ((d.source.map (·.name)).getD fileScopeName, d.target))

end Relations

end Outline

import Outline.Extraction.Distinct
import Outline.Pattern.Build
import Outline.Pattern.Search
import Outline.Text.Lines

/-!
# Imports

Whatever language a file is written in, its imports are found by the forms that imports take.
Each form is a pattern whose first group is the target; the line of an import is the line on
which its target begins.

* `ImportForm`, `importRules`: the forms.
* `Import`: a target with its line and form.
* `scanImports`: the imports of a text, by line and target, each pair once.
-/

namespace Outline

open Pattern

/-- The form an import is written in. -/
inductive ImportForm where
  | esModule
  | commonJs
  | dynamicImport
  | python
  | useClause
  | go
  | java
  | inclusion
  | usingClause
  | ruby
  deriving DecidableEq, Repr

namespace ImportForm

/-- The written name. -/
def name : ImportForm → String
  | .esModule => "es_module"
  | .commonJs => "common_js"
  | .dynamicImport => "dynamic_import"
  | .python => "python"
  | .useClause => "use"
  | .go => "go"
  | .java => "java"
  | .inclusion => "include"
  | .usingClause => "using"
  | .ruby => "ruby"

end ImportForm

/-- An import found in a text. -/
structure Import where
  target : String
  line : Nat
  form : ImportForm
  deriving DecidableEq, Repr

/-- A pattern for imports of one form. -/
structure ImportRule where
  form : ImportForm
  pattern : Pattern
  /-- Whether the target may be several ones with commas between. -/
  splits : Bool := false

/-- A quoted target. -/
def quotedTarget : Pattern :=
  chain [among "'\"", captured (many1 (except "'\"\n")), among "'\""]

/-- A dotted name. -/
def dottedName : Pattern := many1 (wordOr ".")

/-- The forms of imports, in the order in which they are looked for. -/
def importRules : List ImportRule := [
  ⟨.esModule, chain [lineStart, blanks, words ["export", "import"], gap,
    opt (chain ["type", gap]),
    opt (chain [fewest1 (wordOr "*\x7b\x7d$, \t\n"), gap, "from", gap]), quotedTarget], false⟩,
  ⟨.commonJs, chain [boundary, "require", blanks, "(", blanks, quotedTarget, blanks, ")"],
    false⟩,
  ⟨.dynamicImport, chain [boundary, "import", blanks, "(", blanks, quotedTarget], false⟩,
  ⟨.python, chain [lineStart, blanks, "from", gap, captured dottedName, gap, "import", boundary],
    false⟩,
  ⟨.python, chain [rowStart, blanks, "import", gap,
    captured (chain [dottedName, many (chain [blanks, ",", blanks, dottedName])]), blanks,
    opt (chain ["#", many (except "\r\n")]), rowEnd], true⟩,
  ⟨.java, chain [lineStart, blanks, "import", gap, opt (chain ["static", gap]),
    captured (chain [dottedName, opt ".*"]), blanks, ";"], false⟩,
  ⟨.useClause, chain [lineStart, blanks,
    opt (chain ["pub", opt (chain ["(", many (except ")\n"), ")"]), gap]), "use", gap,
    captured (chain [many1 (wordOr ":\\"),
      opt (oneOf [chain ["::\x7b", many (except "\x7d"), "\x7d"], "::*"])]), blanks, ";"], false⟩,
  ⟨.go, chain [lineStart, blanks, "import", gap, opt (chain [dottedName, gap]), "\"",
    captured (many1 (except "\"\n")), "\""], false⟩,
  ⟨.inclusion, chain [lineStart, blanks, "#", blanks, "include", blanks, among "<\"",
    captured (many1 (except ">\"\n")), among ">\""], false⟩,
  ⟨.usingClause, chain [lineStart, blanks, "using", gap, opt (chain ["static", gap]),
    captured dottedName, blanks, ";"], false⟩,
  ⟨.ruby, chain [lineStart, blanks, "require", opt "_relative", blanks, opt "(", blanks,
    quotedTarget], false⟩]

/-- A block of imports between brackets. -/
def importBlock : Pattern :=
  chain [lineStart, blanks, "import", blanks, "(", captured (fewest anything), ")"]

/-- An entry of such a block. -/
def importEntry : Pattern :=
  chain [lineStart, blanks, opt (chain [dottedName, gap]), "\"", captured (many1 (except "\"\n")),
    "\""]

/-- The import with a captured target, unless the target is blank. -/
def importOf? (content : Text) (form : ImportForm) (index : Nat) (target : Text) : Option Import :=
  let target := target.trim
  if target.isEmpty then none else some ⟨String.ofList target, content.lineAt index, form⟩

/-- The imports that a rule finds. -/
def importsOfRule (content : Text) (rule : ImportRule) : List Import :=
  (rule.pattern.all content).flatMap fun f =>
    match f.span? 1 with
    | none => []
    | some (start, stop) =>
      let target := Found.cut content start stop
      (if rule.splits then Text.splitOn ',' target else [target]).filterMap
        (importOf? content rule.form start)

/-- The imports in blocks. -/
def importsInBlocks (content : Text) : List Import :=
  (importBlock.all content).flatMap fun block =>
    match block.span? 1 with
    | none => []
    | some (start, stop) =>
      let body := Found.cut content start stop
      (importEntry.all body).filterMap fun entry => do
        let (first, last) ← entry.span? 1
        importOf? content .go (start + first) (Found.cut body first last)

/-- By line, then by target. -/
def Import.le (a b : Import) : Bool :=
  a.line < b.line || (a.line == b.line && a.target ≤ b.target)

/-- The imports of a text, by line and target; where two forms find the same target on the same
line the first form stands. -/
def scanImports (content : Text) : List Import :=
  (distinctBy (fun i : Import => (i.line, i.target))
    (importRules.flatMap (importsOfRule content) ++ importsInBlocks content)).mergeSort Import.le

end Outline

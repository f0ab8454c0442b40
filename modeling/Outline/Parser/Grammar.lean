import Outline.File.PathName
import Outline.Parser.Service

/-!
# Grammars

The languages for which there are grammars, with their names and extensions.  The grammars
themselves are not part of this library; of them only the tree of the empty text is known, which
has its root and nothing else.

* `Grammar.table`, `Grammar.named?`, `Grammar.forExtension?`: look-ups.
* `Grammar.service`: the parser service of the table.
-/

namespace Outline

/-- A grammar. -/
structure Grammar where
  name : String
  aliases : List String
  extensions : List String
  /-- The kind of the root of its trees. -/
  rootKind : String
  deriving Repr

namespace Grammar

/-- All grammars. -/
def table : List Grammar := [
  ⟨"go", ["golang"], ["go"], "source_file"⟩,
  ⟨"python", ["py"], ["py", "pyi"], "module"⟩,
  ⟨"typescript", ["ts"], ["ts", "mts", "cts"], "program"⟩,
  ⟨"tsx", [], ["tsx"], "program"⟩,
  ⟨"javascript", ["js", "jsx", "node"], ["js", "jsx", "mjs", "cjs"], "program"⟩,
  ⟨"rust", ["rs"], ["rs"], "source_file"⟩]

/-- The grammar with a name, written in small letters. -/
def named? (name : String) : Option Grammar :=
  table.find? fun g => g.name == name || g.aliases.contains name

/-- The grammar for an extension, written in small letters. -/
def forExtension? (ext : String) : Option Grammar :=
  table.find? fun g => g.extensions.contains ext

/-- The tree of the empty text. -/
def emptyTree (g : Grammar) : SyntaxTree := (SyntaxTree.ofSource []).add none g.rootKind none 0 0

/-- The parser service of the table. -/
def service : ParserService where
  parse content language :=
    match named? (folded language) with
    | none => .error (.unsupportedLanguage language)
    | some g =>
      if content.isEmpty then .ok g.emptyTree
      else .error (.failed ("no tree produced for " ++ language))
  detect? path :=
    ((PathName.extension? path).bind fun ext => forExtension? (folded ext)).map (·.name)
  supports language := (named? (folded language)).isSome

end Grammar

end Outline

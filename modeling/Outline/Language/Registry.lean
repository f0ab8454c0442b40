import Outline.File.PathName
import Outline.Language.CFamily
import Outline.Language.CSharp
import Outline.Language.Document
import Outline.Language.Go
import Outline.Language.Java
import Outline.Language.Kotlin
import Outline.Language.Php
import Outline.Language.Python
import Outline.Language.Ruby
import Outline.Language.Rules
import Outline.Language.Rust
import Outline.Language.TypeScript
import Outline.Language.Unlisted

/-!
# The registry of languages

Languages are found by any of their names, in capitals or not, and by the extension of a file.
Every language has rules: one without an entry gets those of the union.

* `codeLanguages`, `documentLanguages`: the entries.
* `rulesOf`: the rules of a language by name.
* `languageOfPath?`: the language of a file by its extension.
* `reservedWords`: words that a loose pattern may capture but that declare nothing.
-/

namespace Outline

/-- The programming languages, in the order in which the union takes them. -/
def codeLanguages : List Language :=
  [.javascript, .typescript, .python, .rust, .go, .java, .c, .cpp, .csharp, .ruby, .php, .kotlin]

/-- The document formats. -/
def documentLanguages : List Language := [.json, .yaml, .markdown]

/-- The rules for languages without an entry. -/
def genericRules : Rules := Rules.union codeLanguages .generic

/-- The entry for a language with its rules. -/
structure Entry where
  language : Language
  rules : Rules

/-- All entries. -/
def entries : List Entry :=
  codeLanguages.map (fun l => ⟨l, Rules.ofLanguage l⟩) ++
    documentLanguages.map fun l => ⟨l, Rules.ofDocument l⟩

/-- The rules of a language that has an entry. -/
def lookupRules? (language : String) : Option Rules :=
  (entries.find? fun e => e.language.names.contains (folded language)).map (·.rules)

/-- Whether a language has an entry. -/
def isKnownLanguage (language : String) : Bool := (lookupRules? language).isSome

/-- The rules of a language. -/
def rulesOf (language : String) : Rules := (lookupRules? language).getD genericRules

/-- The name of the language a file is written in, by its extension. -/
def languageOfPath? (path : String) : Option String := do
  let ext ← PathName.extension? path
  let entry ← entries.find? fun e => e.language.extensions.contains (folded ext)
  return entry.language.name

/-- The names of all entries, sorted. -/
def languageNames : List String :=
  (entries.map (·.language.name)).mergeSort fun a b => a ≤ b

/-- Words that never name a declaration. -/
def reservedWords : List String :=
  ["if", "for", "foreach", "while", "switch", "catch", "return", "function", "else", "do",
   "try", "with", "new", "typeof", "sizeof", "elif", "match", "loop", "yield", "await"]

def isReservedWord (word : String) : Bool := reservedWords.contains word

end Outline

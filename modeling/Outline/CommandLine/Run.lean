import Outline.CommandLine.Arguments
import Outline.File.Reading
import Outline.File.Report
import Outline.Parser.Grammar
import Outline.Settings.Reader

/-!
# Runs

A run is a function of the arguments and a tree of files.  It prints a report for each file that
could be analysed; files that could not are passed over.

* `Output`, `Outcome`: what is printed, and the exit code.
* `RunFault`: why nothing is done; 2 when the arguments cannot be read, 1 when the settings cannot
  be used.
* `helpText`, `versionText`.
* `settingsOf`: the settings of a run.
* `runCommand`: a run.
-/

namespace Outline

/-- What is printed. -/
inductive Output where
  | text (s : String)
  /-- Reports, on several lines each when `pretty`. -/
  | reports (pretty : Bool) (documents : List Json)

/-- What is printed, as text. -/
def Output.rendered : Output → String
  | .text s => s
  | .reports pretty documents =>
    String.join (documents.map fun d => (if pretty then d.pretty else d.compact) ++ "\n")

/-- What a run comes to. -/
structure Outcome where
  code : Nat
  output : Output
  /-- Why nothing was done. -/
  complaint : Option String := none

/-- Why a run fails. -/
inductive RunFault where
  | usage (fault : UsageFault)
  | unreadableSettings (path : String)
  | badSettings (fault : SettingsFault)
  deriving DecidableEq, Repr

namespace RunFault

/-- The exit code of a fault. -/
def code : RunFault → Nat
  | .usage _ => 2
  | _ => 1

/-- The wording of a fault. -/
def message : RunFault → String
  | .usage fault => fault.message
  | .unreadableSettings path => "failed to read config: " ++ path
  | .badSettings fault => "invalid configuration: " ++ fault.message

/-- A run with a fault prints nothing. -/
def outcome (f : RunFault) : Outcome := ⟨f.code, .reports false [], some f.message⟩

end RunFault

/-! ## Texts -/

/-- The name of the program with its version. -/
def versionText : String := "codeshape 0.3.0\n"

/-- The help text. -/
def helpText : String :=
  "\n".intercalate [
    "Multi-language code structure extraction",
    "",
    "Usage: codeshape [OPTIONS] <PATHS>...",
    "",
    "Arguments:",
    "  <PATHS>...  Files or directories to process",
    "",
    "Options:",
    "  -c, --config <CONFIG>        JSON configuration file",
    "      --merge-gap <MERGE_GAP>  Merge chunks separated by at most this many lines",
    "      --pretty                 Pretty-print JSON output",
    "      --summary                Print per-file counts instead of full results",
    "      --no-ast                 Skip tree-sitter and use text patterns only",
    "  -h, --help                   Print help",
    "  -V, --version                Print version",
    ""]

/-! ## Running -/

/-- The settings of a file; a file that is not there counts as empty. -/
def loadSettings (fs : FileSystem) (path : String) : Except RunFault Settings :=
  match fs.get? path with
  | none => .ok {}
  | some _ =>
    match fs.readText? path with
    | none => .error (.unreadableSettings path)
    | some text => .ok (Settings.ofText text.toList)

/-- The settings of a run. -/
def settingsOf (fs : FileSystem) (a : Arguments) : Except RunFault Settings := do
  let s ← match a.config with
    | none => .ok {}
    | some path => loadSettings fs path
  let s := { s with mergeMaxGap := a.mergeGap.or s.mergeMaxGap }
  match s.check with
  | .error fault => .error (.badSettings fault)
  | .ok () => return s

/-- The reports of a run. -/
def reportsOf (fs : FileSystem) (a : Arguments) (s : Settings) : List Json :=
  let parser := if a.noTree then none else some Grammar.service
  (filesToAnalyse parser fs a.paths).filterMap fun path =>
    match analysePath parser s fs path with
    | .ok found => some (if a.summary then found.summary else found.toJson)
    | .error _ => none

/-- What a run comes to. -/
def runCommand (fs : FileSystem) (arguments : List String) : Outcome :=
  match Arguments.parse arguments with
  | .error .help => { code := 0, output := .text helpText }
  | .error .version => { code := 0, output := .text versionText }
  | .error (.fault f) => (RunFault.usage f).outcome
  | .ok a =>
    match settingsOf fs a with
    | .error f => f.outcome
    | .ok s => { code := 0, output := .reports a.pretty (reportsOf fs a s) }

end Outline

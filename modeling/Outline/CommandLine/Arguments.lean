import Outline.Number.Count
import Outline.Text.Basic

/-!
# Arguments

Options may stand between the paths; an argument of two hyphens ends the options.  Arguments are
read from left to right, so of a fault and a request for help the first one counts.

* `Arguments`: what was asked for.
* `UsageFault`, `Stop`: why a run ends before it begins.
* `Arguments.parse`: reading.
-/

namespace Outline

/-- What the command line asks for. -/
structure Arguments where
  /-- The settings file. -/
  config : Option String := none
  /-- Chunks at most this many lines apart are merged. -/
  mergeGap : Option Nat := none
  pretty : Bool := false
  summary : Bool := false
  /-- Whether syntax trees are left aside. -/
  noTree : Bool := false
  paths : List String := []
  deriving DecidableEq, Repr

/-- What is wrong with the arguments. -/
inductive UsageFault where
  | unknownOption (argument : String)
  | repeatedOption (name : String)
  | missingValue (name : String)
  | unexpectedValue (name : String)
  | emptyPath
  | badNumber (value : String)
  | missingPaths
  deriving DecidableEq, Repr

namespace UsageFault

/-- The wording of a fault. -/
def message : UsageFault → String
  | .unknownOption argument => "unexpected argument '" ++ argument ++ "'"
  | .repeatedOption name => "option '" ++ name ++ "' is given more than once"
  | .missingValue name => "option '" ++ name ++ "' needs a value"
  | .unexpectedValue name => "option '" ++ name ++ "' takes no value"
  | .emptyPath => "a path is empty"
  | .badNumber value => "'" ++ value ++ "' is not a number of lines"
  | .missingPaths => "no paths are given"

end UsageFault

/-- Why a run ends before it begins. -/
inductive Stop where
  | help
  | version
  | fault (f : UsageFault)
  deriving DecidableEq, Repr

/-! ## Options -/

/-- An option. -/
inductive CommandOption where
  | config
  | mergeGap
  | pretty
  | summary
  | noTree
  | help
  | version
  deriving DecidableEq, Repr

namespace CommandOption

/-- The long name, without its hyphens. -/
def name : CommandOption → String
  | .config => "config"
  | .mergeGap => "merge-gap"
  | .pretty => "pretty"
  | .summary => "summary"
  | .noTree => "no-ast"
  | .help => "help"
  | .version => "version"

/-- The short name. -/
def letter? : CommandOption → Option Char
  | .config => some 'c'
  | .help => some 'h'
  | .version => some 'V'
  | _ => none

/-- All options. -/
def list : List CommandOption := [config, mergeGap, pretty, summary, noTree, help, version]

/-- The option with a long name. -/
def named? (name : Text) : Option CommandOption := list.find? fun o => o.name.toList == name

/-- The option with a short name. -/
def lettered? (c : Char) : Option CommandOption := list.find? fun o => o.letter? == some c

/-- Whether the option takes a value. -/
def takesValue : CommandOption → Bool
  | .config | .mergeGap => true
  | _ => false

end CommandOption

namespace Arguments

/-- A path must not be empty. -/
def checkPath (path : String) : Except Stop String :=
  if path.isEmpty then .error (.fault .emptyPath) else .ok path

/-- A number of lines: digits, perhaps after a plus sign, for a word of 64 bits. -/
def lineNumber? (value : String) : Option Nat :=
  let digits := match value.toList with
    | '+' :: rest => rest
    | digits => digits
  let number := digits.foldl (fun n c => 10 * n + (c.toNat - '0'.toNat)) 0
  if !digits.isEmpty && digits.all Char.isDigit && number < countLimit then some number else none

/-- An option that was not given before. -/
def once (isGiven : Bool) (o : CommandOption) (a : Arguments) : Except Stop Arguments :=
  if isGiven then .error (.fault (.repeatedOption o.name)) else .ok a

/-- The arguments with an option that has no value. -/
def addFlag (a : Arguments) : CommandOption → Except Stop Arguments
  | .pretty => once a.pretty .pretty { a with pretty := true }
  | .summary => once a.summary .summary { a with summary := true }
  | .noTree => once a.noTree .noTree { a with noTree := true }
  | .version => .error .version
  | .help => .error .help
  | o => .error (.fault (.missingValue o.name))

/-- The arguments with an option that has a value. -/
def addValue (a : Arguments) (value : String) : CommandOption → Except Stop Arguments
  | .config => do
    let a ← once a.config.isSome .config a
    let path ← checkPath value
    return { a with config := some path }
  | .mergeGap => do
    let a ← once a.mergeGap.isSome .mergeGap a
    match lineNumber? value with
    | some n => return { a with mergeGap := some n }
    | none => .error (.fault (.badNumber value))
  | o => .error (.fault (.unexpectedValue o.name))

/-- The arguments with one more path. -/
def addPath (a : Arguments) (path : String) : Except Stop Arguments := do
  let path ← checkPath path
  return { a with paths := a.paths ++ [path] }

/-! ## Reading -/

/-- What one argument says. -/
inductive Said where
  /-- The arguments so far. -/
  | done (a : Arguments)
  /-- The next argument is the value of an option. -/
  | wants (o : CommandOption) (a : Arguments)

/-- An option whose value, if it takes one, is attached or is the next argument. -/
def addOption (a : Arguments) (o : CommandOption) (attached : Option Text) : Except Stop Said :=
  match attached with
  | some value =>
    if o.takesValue then (a.addValue (String.ofList value) o).map .done
    else .error (.fault (.unexpectedValue o.name))
  | none => if o.takesValue then .ok (.wants o a) else (a.addFlag o).map .done

/-- The name of a long option and its value after an equals sign. -/
def splitValue (t : Text) : Text × Option Text :=
  match t.dropWhile (· != '=') with
  | [] => (t, none)
  | _ :: value => (t.takeWhile (· != '='), some value)

/-- An argument after its two hyphens. -/
def addLong (a : Arguments) (t : Text) : Except Stop Said :=
  let (name, value) := splitValue t
  match CommandOption.named? name with
  | some o => a.addOption o value
  | none => .error (.fault (.unknownOption ("--" ++ String.ofList t)))

/-- An argument after its hyphen: letters of options, the last of which may have a value. -/
def addLetters (a : Arguments) : Text → Except Stop Said
  | [] => .ok (.done a)
  | c :: rest =>
    match CommandOption.lettered? c with
    | none => .error (.fault (.unknownOption ("-" ++ c.toString)))
    | some o =>
      if o.takesValue then
        match rest with
        | [] => .ok (.wants o a)
        | '=' :: value => a.addOption o (some value)
        | value => a.addOption o (some value)
      else do
        let a ← a.addFlag o
        addLetters a rest

/-- Whether an argument has the form of an option. -/
def isOption (argument : String) : Bool :=
  match argument.toList with
  | '-' :: _ :: _ => true
  | _ => false

/-- Reads arguments when `pending` is the option whose value comes next. -/
def parseFrom (a : Arguments) (pending : Option CommandOption) :
    List String → Except Stop Arguments
  | [] =>
    match pending with
    | some o => .error (.fault (.missingValue o.name))
    | none => .ok a
  | argument :: rest =>
    match pending with
    | some o =>
      if isOption argument then .error (.fault (.missingValue o.name))
      else do
        let a ← a.addValue argument o
        parseFrom a none rest
    | none => do
      let said ← match argument.toList with
        | ['-', '-'] => (rest.foldlM addPath a).map Said.done
        | '-' :: '-' :: t => a.addLong t
        | '-' :: c :: t => a.addLetters (c :: t)
        | _ => (a.addPath argument).map Said.done
      match said with
      | .done b => if argument = "--" then return b else parseFrom b none rest
      | .wants o b => parseFrom b (some o) rest

/-- Reads the arguments of a run. -/
def parse (arguments : List String) : Except Stop Arguments := do
  let a ← parseFrom {} none arguments
  if a.paths.isEmpty then .error (.fault .missingPaths) else return a

end Arguments

end Outline

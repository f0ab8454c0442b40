import Outline.Json.Reader
import Outline.Settings.Basic

/-!
# Reading settings

A settings file holds an object, or a list with the values in the order of the fields.  A field
that is left out has its default; fields that are not known are passed over.  A known field that
occurs twice, a value of another type and a text that is no JSON are faults, and a file with a
fault counts as if it were not there.

* `Settings.ofJson?`: the settings that a JSON value stands for.
* `Settings.ofText`: the settings of a file.
-/

namespace Outline

namespace WrittenJson

/-- The count that a value stands for. -/
def count? : WrittenJson → Option Nat
  | .number n => n.count?
  | _ => none

/-- The truth value that a value stands for. -/
def flag? : WrittenJson → Option Bool
  | .bool b => some b
  | _ => none

/-- The 32-bit float that a value stands for. -/
def single? : WrittenJson → Option Single
  | .number n => n.single?
  | _ => none

/-- The text that a value stands for. -/
def string? : WrittenJson → Option String
  | .text parts => (Quoted.text? parts).map String.ofList
  | _ => none

/-- A value that may be absent, written as `null`. -/
def optional? {α : Type} (read : WrittenJson → Option α) : WrittenJson → Option (Option α)
  | .null => some none
  | v => (read v).map some

/-- The strategy that a value names: by a text, or by a field without a value. -/
def strategy? : WrittenJson → Option StrengthStrategy
  | .object [(name, .null)] => (string? (.text name)).bind StrengthStrategy.ofName?
  | v => v.string?.bind StrengthStrategy.ofName?

end WrittenJson

namespace Settings

/-- The entry of a field: a fault, or perhaps a value. -/
abbrev Entry := Option (Option WrittenJson)

/-- The value of an entry, or else the default. -/
def Entry.read {α : Type} (e : Entry) (read : WrittenJson → Option α) (default : α) : Option α :=
  match e with
  | none => none
  | some none => some default
  | some (some v) => read v

/-- The settings whose fields have the given entries, by position and name. -/
def ofEntries? (entry : Nat → String → Entry) : Option Settings := do
  let d : Settings := {}
  let maxDepth ← (entry 0 "max_depth").read WrittenJson.count? d.maxDepth
  let includeInternal ← (entry 1 "include_internal").read WrittenJson.flag? d.includeInternal
  let validateRequired ← (entry 2 "validate_required").read WrittenJson.flag? d.validateRequired
  let strengthStrategy ←
    (entry 3 "strength_strategy").read WrittenJson.strategy? d.strengthStrategy
  let mergeMaxGap ←
    (entry 4 "merge_max_gap").read (WrittenJson.optional? WrittenJson.count?) d.mergeMaxGap
  let minConfidence ← (entry 5 "min_confidence").read WrittenJson.single? d.minConfidence
  return { maxDepth, includeInternal, validateRequired, strengthStrategy, mergeMaxGap,
           minConfidence }

/-- The number of fields. -/
def fieldCount : Nat := 6

/-- The entry of a name among fields: at most one field has it. -/
def entryOf (fields : List (Text × WrittenJson)) (name : String) : Entry :=
  match fields.filter fun f => f.1 == name.toList with
  | [] => some none
  | [f] => some (some f.2)
  | _ => none

/-- The settings that a JSON value stands for. -/
def ofJson? : WrittenJson → Option Settings
  | .object fields => do
    let fields ← fields.mapM fun f => (Quoted.text? f.1).map fun name => (name, f.2)
    ofEntries? fun _ name => entryOf fields name
  | .list items =>
    if fieldCount < items.length then none else ofEntries? fun i _ => some items[i]?
  | _ => none

/-- The settings of a file; the defaults if its text has a fault. -/
def ofText (t : Text) : Settings := ((WrittenJson.read? t).bind ofJson?).getD {}

end Settings

end Outline

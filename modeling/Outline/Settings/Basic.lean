import Outline.Json.Basic
import Outline.Relation.Strength
import Outline.Text.Basic

/-!
# Settings

How files are analysed: how deep, what becomes a chunk, which chunks are merged or left out.

* `Settings`: the values, with defaults.
* `Settings.same`: equality of values.
* `SettingsFault`, `Settings.check`: values that cannot be used.
* `Settings.toJson`, `Settings.written`: the text of a settings file.
-/

namespace Outline

/-- How files are analysed. -/
structure Settings where
  /-- How far below a structure its members are looked for. -/
  maxDepth : Nat := 10
  /-- Whether statements become chunks. -/
  includeInternal : Bool := true
  /-- Whether a faulty chunk is refused instead of put right. -/
  validateRequired : Bool := true
  strengthStrategy : StrengthStrategy := .sizeRatio
  /-- Chunks at most this many lines apart are merged. -/
  mergeMaxGap : Option Nat := none
  /-- Chunks of less confidence are left out. -/
  minConfidence : Single := .zero
  deriving DecidableEq, Repr

/-- A value that cannot be used. -/
inductive SettingsFault where
  | depthOutside
  | confidenceOutside
  deriving DecidableEq, Repr

namespace Settings

/-- The greatest depth. -/
def depthLimit : Nat := 64

/-- Equality of values: a confidence of nought has no sign. -/
def same (a b : Settings) : Bool :=
  { a with minConfidence := b.minConfidence } = b && a.minConfidence.same b.minConfidence

/-- The first value that cannot be used. -/
def check (s : Settings) : Except SettingsFault Unit :=
  if s.maxDepth < 1 || depthLimit < s.maxDepth then .error .depthOutside
  else if !s.minConfidence.inUnitRange then .error .confidenceOutside
  else .ok ()

/-- The depth, moved into its range. -/
def usableDepth (s : Settings) : Nat := min (max s.maxDepth 1) depthLimit

/-- The settings as a JSON value. -/
def toJson (s : Settings) : Json :=
  .object (
    [("max_depth", .count s.maxDepth), ("include_internal", .bool s.includeInternal),
      ("validate_required", .bool s.validateRequired),
      ("strength_strategy", .text s.strengthStrategy.name)] ++
    (s.mergeMaxGap.map fun gap => ("merge_max_gap", Json.count gap)).toList ++
    [("min_confidence", .single s.minConfidence)])

/-- The text of a settings file. -/
def written (s : Settings) : String := s.toJson.pretty

end Settings

namespace SettingsFault

/-- The wording of a fault. -/
def message : SettingsFault → String
  | .depthOutside => "max_depth must be between 1 and " ++ decimal Settings.depthLimit
  | .confidenceOutside => "min_confidence must be between 0 and 1"

end SettingsFault

end Outline

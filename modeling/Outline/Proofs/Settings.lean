import Outline.CommandLine.Run
import Outline.Proofs.Json.Pretty

/-!
# Settings that are saved are loaded again

The text of a settings file is the text of an object, so it is read back as an object that shows the
same values (`WrittenJson.exists_read?_pretty`).  Its names are different from each other, so each
field is found under its name (`exists_entryOf`), and the one that is left out has its default,
which says the same.  It remains to get each value back from what shows it: a count from its digits,
a strategy from its name, a confidence from its decimal.

That the decimal of a confidence reads back is what the printer of floats promises; here it is an
assumption about the one confidence that is saved (`Single.ReadsBack`).

* `Settings.ofText_written`: settings are read back from their text.
* `loadSettings_of_written`: a file with that text is loaded as the settings.
-/

namespace Outline

open WrittenJson

/-- The decimal that is written for a value stands for the value. -/
def Single.ReadsBack (x : Single) : Prop :=
  ((Numeral.read? x.written.toList).bind fun r => r.1.single?) = some x

instance (x : Single) : Decidable x.ReadsBack := inferInstanceAs (Decidable (_ = _))

/-! ## Single values -/

namespace WrittenJson

variable {w : WrittenJson}

/-- The numeral is determined by its text. -/
theorem ShowsNumber.eq_number {s : String} (h : ShowsNumber s w) {n : Numeral} (hn : n.IsProper)
    (htext : n.text = s.toList) : w = .number n := by
  obtain ⟨m, rfl, hm, hmtext⟩ := h
  have hread := Numeral.read?_text hm
  rw [hmtext, ← htext, Numeral.read?_text hn] at hread
  rw [(Prod.mk.inj (Option.some.inj hread)).1]

theorem count?_of_shows {n : Nat} (hn : n < countLimit) (h : Shows (.count n) w) :
    count? w = some n := by
  rw [Json.count, Shows] at h
  have htext : (⟨false, Nat.toDigits 10 n, none, none⟩ : Numeral).text =
      (Json.integer n).toList := by
    rw [Json.integer, if_neg (by omega), String.empty_append, Int.natAbs_natCast,
      Decimal.toList_ofWhole]
    simp [Numeral.text, Numeral.fractionText, Numeral.exponentText]
  rw [h.eq_number (Numeral.isProper_toDigits n) htext, count?, Numeral.count?,
    Numeral.value_toDigits]
  simp [Numeral.isWhole, hn]

theorem flag?_of_shows {b : Bool} (h : Shows (.bool b) w) : flag? w = some b := by
  rw [Shows] at h
  rw [h, flag?]

theorem single?_of_shows {x : Single} (hfinite : x.isFinite = true) (hback : x.ReadsBack)
    (h : Shows (.single x) w) : single? w = some x := by
  rw [Shows, if_pos hfinite] at h
  obtain ⟨m, rfl, hm, htext⟩ := h
  rw [Single.ReadsBack, ← htext, Numeral.read?_text hm] at hback
  exact hback

theorem strategy?_of_shows {k : StrengthStrategy} (h : Shows (.text k.name) w) :
    strategy? w = some k := by
  rw [Shows] at h
  obtain ⟨parts, rfl, hparts⟩ := h
  have hname : string? (.text parts) = some k.name := by
    rw [string?, hparts, Option.map_some, String.ofList_toList]
  rw [strategy?, hname]
  · cases k <;> decide
  · exact nofun

/-- What is given is not `null`. -/
theorem optional?_count?_of_shows {n : Nat} (hn : n < countLimit) (h : Shows (.count n) w) :
    optional? count? w = some (some n) := by
  have hcount := count?_of_shows hn h
  rw [optional?, hcount]
  · rfl
  · rintro rfl
    cases hcount

/-- What is read for a field, once its name is known. -/
def ShowsNamed (f : String × Json) (n : Text × WrittenJson) : Prop :=
  n.1 = f.1.toList ∧ Shows f.2 n.2

/-- The fields of an object have names, and what is read for them shows their values. -/
theorem ShowsFields.exists_mapM_name : ∀ {fields : List (String × Json)}
    {fs : List (List Quoted × WrittenJson)}, ShowsFields fields fs →
    ∃ named, fs.mapM (fun f => (Quoted.text? f.1).map fun name => (name, f.2)) = some named ∧
      List.Forall₂ ShowsNamed fields named
  | [], fs, h => by
    rw [ShowsFields] at h
    exact ⟨[], by rw [h]; rfl, List.Forall₂.nil⟩
  | (k, v) :: fields, fs, h => by
    rw [ShowsFields] at h
    obtain ⟨name, w, rest, rfl, hname, hv, hrest⟩ := h
    obtain ⟨named, hnamed, hshows⟩ := exists_mapM_name hrest
    refine ⟨(k.toList, w) :: named, ?_, List.Forall₂.cons ⟨rfl, hv⟩ hshows⟩
    rw [List.mapM_cons, hnamed, hname]
    rfl

end WrittenJson

/-! ## Fields -/

namespace Settings

section Entries

variable {fields : List (String × Json)} {named : List (Text × WrittenJson)} {k : String}

theorem filter_name_of_notMem
    (h : List.Forall₂ ShowsNamed fields named)
    (hk : k ∉ fields.map Prod.fst) : (named.filter fun f => f.1 == k.toList) = [] := by
  induction h with
  | nil => rfl
  | cons hf _ ih =>
    rw [List.map_cons, List.mem_cons, not_or] at hk
    rw [List.filter_cons_of_neg, ih hk.2]
    rw [hf.1, beq_iff_eq, String.toList_inj]
    exact fun heq => hk.1 heq.symm

/-- A name that no field has. -/
theorem entryOf_of_notMem
    (h : List.Forall₂ ShowsNamed fields named)
    (hk : k ∉ fields.map Prod.fst) : entryOf named k = some none := by
  rw [entryOf, filter_name_of_notMem h hk]

/-- The entry of a field shows its value, if no other field has its name. -/
theorem exists_entryOf
    (h : List.Forall₂ ShowsNamed fields named)
    (hnodup : (fields.map Prod.fst).Nodup) {v : Json} (hv : (k, v) ∈ fields) :
    ∃ w, entryOf named k = some (some w) ∧ Shows v w := by
  suffices hfilter : ∃ n, (named.filter fun f => f.1 == k.toList) = [n] ∧ Shows v n.2 by
    obtain ⟨n, hn, hshows⟩ := hfilter
    exact ⟨n.2, by rw [entryOf, hn], hshows⟩
  induction h with
  | nil => exact absurd hv List.not_mem_nil
  | @cons f n fields named hf hrest ih =>
    rw [List.map_cons, List.nodup_cons] at hnodup
    rcases List.mem_cons.mp hv with rfl | hv
    · refine ⟨n, ?_, hf.2⟩
      rw [List.filter_cons_of_pos (by rw [hf.1]; exact beq_self_eq_true _),
        filter_name_of_notMem hrest hnodup.1]
    · have hne : f.1 ≠ k := fun heq => hnodup.1 (heq ▸ List.mem_map_of_mem hv)
      rw [List.filter_cons_of_neg (by rw [hf.1, beq_iff_eq, String.toList_inj]; exact hne)]
      exact ih hnodup.2 hv

/-- A field is read, if whatever shows its value is. -/
theorem read_entryOf
    (h : List.Forall₂ ShowsNamed fields named)
    (hnodup : (fields.map Prod.fst).Nodup) {v : Json} (hv : (k, v) ∈ fields) {α : Type}
    {read : WrittenJson → Option α} {a : α} (hread : ∀ w, Shows v w → read w = some a)
    (default : α) : (entryOf named k).read read default = some a := by
  obtain ⟨w, hentry, hshows⟩ := exists_entryOf h hnodup hv
  rw [hentry]
  exact hread w hshows

end Entries

/-! ## The fields of settings -/

/-- The fields of a settings file. -/
def fields (s : Settings) : List (String × Json) :=
  [("max_depth", .count s.maxDepth), ("include_internal", .bool s.includeInternal),
    ("validate_required", .bool s.validateRequired),
    ("strength_strategy", .text s.strengthStrategy.name)] ++
  (s.mergeMaxGap.map fun gap => ("merge_max_gap", Json.count gap)).toList ++
  [("min_confidence", .single s.minConfidence)]

theorem toJson_eq_object (s : Settings) : s.toJson = .object s.fields := rfl

/-- No two fields have the same name. -/
theorem nodup_fields (s : Settings) : (s.fields.map Prod.fst).Nodup := by
  cases h : s.mergeMaxGap <;> simp [fields, h]

theorem mergeMaxGap_notMem_fields {s : Settings} (h : s.mergeMaxGap = none) :
    "merge_max_gap" ∉ s.fields.map Prod.fst := by
  simp [fields, h]

/-- The gap is read back, or its default if it is left out. -/
theorem read_mergeMaxGap {s : Settings} {named : List (Text × WrittenJson)}
    (h : List.Forall₂ ShowsNamed s.fields named)
    (hgap : ∀ gap ∈ s.mergeMaxGap, gap < countLimit) :
    (entryOf named "merge_max_gap").read (optional? count?) none = some s.mergeMaxGap := by
  cases hmerge : s.mergeMaxGap with
  | none =>
    rw [entryOf_of_notMem h (mergeMaxGap_notMem_fields hmerge)]
    rfl
  | some gap =>
    exact read_entryOf h s.nodup_fields (by simp [fields, hmerge])
      (fun _ => optional?_count?_of_shows (hgap gap hmerge)) none

/-- Whatever shows the settings is read as the settings. -/
theorem ofJson?_of_shows {s : Settings} (hdepth : s.maxDepth < countLimit)
    (hgap : ∀ gap ∈ s.mergeMaxGap, gap < countLimit) (hfinite : s.minConfidence.isFinite = true)
    (hback : s.minConfidence.ReadsBack) {w : WrittenJson} (h : Shows s.toJson w) :
    ofJson? w = some s := by
  rw [toJson_eq_object, Shows] at h
  obtain ⟨fs, rfl, hfs⟩ := h
  obtain ⟨named, hnamed, hshows⟩ := hfs.exists_mapM_name
  have hmaxDepth : (entryOf named "max_depth").read count? 10 = some s.maxDepth :=
    read_entryOf hshows s.nodup_fields (by simp [fields])
      (fun _ => count?_of_shows hdepth) 10
  have hinternal : (entryOf named "include_internal").read flag? true = some s.includeInternal :=
    read_entryOf hshows s.nodup_fields (by simp [fields]) (fun _ => flag?_of_shows) true
  have hrequired : (entryOf named "validate_required").read flag? true = some s.validateRequired :=
    read_entryOf hshows s.nodup_fields (by simp [fields]) (fun _ => flag?_of_shows) true
  have hstrategy : (entryOf named "strength_strategy").read strategy? .sizeRatio =
      some s.strengthStrategy :=
    read_entryOf hshows s.nodup_fields (by simp [fields])
      (fun _ => strategy?_of_shows) .sizeRatio
  have hconfidence : (entryOf named "min_confidence").read single? .zero = some s.minConfidence :=
    read_entryOf hshows s.nodup_fields (by simp [fields])
      (fun _ => single?_of_shows hfinite hback) .zero
  simp only [ofJson?, hnamed, ofEntries?, Option.bind_eq_bind, Option.bind_some, hmaxDepth,
    hinternal, hrequired, hstrategy, read_mergeMaxGap hshows hgap, hconfidence, Option.pure_def]

/-- Settings are read back from their text. -/
theorem ofText_written {s : Settings} (hdepth : s.maxDepth < countLimit)
    (hgap : ∀ gap ∈ s.mergeMaxGap, gap < countLimit) (hfinite : s.minConfidence.isFinite = true)
    (hback : s.minConfidence.ReadsBack) : ofText s.written.toList = s := by
  obtain ⟨w, hread, hshows⟩ := exists_read?_pretty s.toJson
  rw [ofText, written, hread, Option.bind_some, ofJson?_of_shows hdepth hgap hfinite hback hshows,
    Option.getD_some]

end Settings

/-! ## The settings file -/

theorem fromUTF8?_toUTF8 (s : String) : String.fromUTF8? s.toUTF8 = some s :=
  dif_pos s.isValidUTF8

/-- A file that holds the text of settings is loaded as the settings: a depth and a gap of up to 64
bits or no gap, any flags, either strategy, and any finite confidence whose decimal reads back. -/
theorem loadSettings_of_written (fs : FileSystem) (path : String) (s : Settings)
    (hfile : fs.get? path = some (.file s.written.toUTF8)) (hdepth : s.maxDepth < countLimit)
    (hgap : ∀ gap ∈ s.mergeMaxGap, gap < countLimit) (hfinite : s.minConfidence.isFinite = true)
    (hback : s.minConfidence.ReadsBack) : loadSettings fs path = .ok s := by
  have htext : fs.readText? path = some s.written := by
    rw [FileSystem.readText?, hfile, Option.bind_some, FileTree.content?, Option.bind_some,
      fromUTF8?_toUTF8]
  rw [loadSettings, hfile, htext]
  show Except.ok (Settings.ofText s.written.toList) = Except.ok s
  rw [Settings.ofText_written hdepth hgap hfinite hback]

/-- Settings other than the defaults in every field but one, with the greatest depth that can be
saved. -/
def deepSettings : Settings where
  maxDepth := countLimit - 1
  includeInternal := false
  strengthStrategy := .distanceDecay
  mergeMaxGap := some 2
  minConfidence := .percent 35

/-- A directory with the file of these settings. -/
def savedFiles : FileSystem where
  root := .directory [("shape.json", .file deepSettings.written.toUTF8)]
  here := []

theorem get?_savedFiles :
    savedFiles.get? "shape.json" = some (.file deepSettings.written.toUTF8) := by
  have hplace : savedFiles.locate? "shape.json" = some ["shape.json"] := by decide +kernel
  rw [FileSystem.get?, hplace]
  rfl

theorem loadSettings_of_savedFiles : loadSettings savedFiles "shape.json" = .ok deepSettings :=
  loadSettings_of_written savedFiles "shape.json" deepSettings get?_savedFiles (by decide)
    (by decide) (by decide +kernel) (by decide +kernel)

end Outline

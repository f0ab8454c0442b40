import Outline.Proofs.Extraction.LineOnce
import Outline.Proofs.Pattern.Capture
import Outline.Proofs.Strict.Lines

/-!
# Structures from text without a place out of range

The strict form of `extractText`.  Lines are counted from one in what is given out and from zero in
what is indexed, so every use of a line begins with a difference.  It is never below zero because a
line comes from one of four places: from a match, whose line is one more than the line feeds before
it; from a heading, whose line is that of a place in the text (`Markdown.FindsPlaces`); from a block
end, which is one more than an index; or from a location, whose bounds belong to its type.

* `structureAt?_eq`, `nestedAt?_eq`, `statementAt?_eq`: one structure of each tier.
* `extractText?_eq`: the three tiers together, for every text and language and every reader of
  headings that keeps to places.
-/

namespace Outline.Strict

open TextExtraction

variable {content : Text} {reader : Text → List Markdown.Heading}

/-- The number of lines of a location. -/
def lineCount? (l : Location) : Option Nat := do
  let less ← sub? l.stop l.start
  return less + 1

@[simp] theorem lineCount?_eq (l : Location) : lineCount? l = some l.lineCount := by
  rw [lineCount?, sub?_of_le l.start_le_stop]
  rfl

/-- The entries of a list with the numbers of their lines. -/
def sized? {α : Type} (location : α → Location) (l : List α) : Option (List (Nat × α)) :=
  l.mapM fun a => do
    let size ← lineCount? (location a)
    return (size, a)

@[simp] theorem sized?_eq {α : Type} (location : α → Location) (l : List α) :
    sized? location l = some (l.map fun a => ((location a).lineCount, a)) :=
  mapM_eq_some fun a _ => by rw [lineCount?_eq]; rfl

/-! ## Matches -/

/-- A group of a match is a range of the searched text. -/
theorem range?_of_span? {p : Pattern} {text : Text} {f : Found} (h : p.IsMatch text f)
    {n start stop : Nat} (hspan : f.span? n = some (start, stop)) :
    range? text start stop = some (Found.cut text start stop) := by
  obtain ⟨hle, hstop⟩ := h.le_of_span? hspan
  exact range?_of_le hle hstop

/-- The text of group `n`, cut out of the searched text if the group took part. -/
def group? (f : Found) (text : Text) (n : Nat) : Option (Option Text) :=
  match f.span? n with
  | none => some none
  | some (start, stop) => (range? text start stop).map some

theorem group?_eq {p : Pattern} {text : Text} {f : Found} (h : p.IsMatch text f) (n : Nat) :
    group? f text n = some (f.group? text n) := by
  rw [group?, Found.group?]
  cases hspan : f.span? n with
  | none => rfl
  | some span =>
    obtain ⟨start, stop⟩ := span
    simp only [range?_of_span? h hspan]
    rfl

/-- The first group that holds more than blanks. -/
def capturedName? (pattern : Pattern) (text : Text) (f : Found) : Option (Option String) := do
  let texts ← filterMap? (fun i => group? f text (i + 1)) (List.range pattern.groupCount)
  return ((texts.map Text.trim).find? fun name => !name.isEmpty).map String.ofList

theorem findSome?_eq_find? (text? : Nat → Option Text) : ∀ l : List Nat,
    (l.findSome? fun i => do
      let name := Text.trim (← text? i)
      if name.isEmpty then none else some (String.ofList name)) =
      (((l.filterMap text?).map Text.trim).find? fun name => !name.isEmpty).map String.ofList
  | [] => rfl
  | i :: l => by
    rw [List.findSome?_cons, findSome?_eq_find? text? l]
    cases ht : text? i with
    | none => rw [List.filterMap_cons_none ht]; rfl
    | some t =>
      rw [List.filterMap_cons_some ht, List.map_cons, List.find?_cons]
      simp only [Option.bind_eq_bind, Option.bind_some]
      cases t.trim.isEmpty with
      | true => rfl
      | false => rfl

theorem capturedName?_eq {p : Pattern} {text : Text} {f : Found} (h : p.IsMatch text f) :
    capturedName? p text f = some (Hit.capturedName? p text f) := by
  rw [capturedName?, filterMap?_eq fun i _ => group?_eq h (i + 1), Hit.capturedName?,
    findSome?_eq_find? fun i => f.group? text (i + 1)]
  rfl

/-- The matches of a rule in a text. -/
def ofRule? (text : Text) (rule : PatternRule) : Option (List Hit) :=
  (rule.pattern.all text).mapM fun f => do
    let line ← lineAt? text f.start
    let name ← capturedName? rule.pattern text f
    return ⟨rule, line, name⟩

theorem ofRule?_eq (text : Text) (rule : PatternRule) :
    ofRule? text rule = some (Hit.ofRule text rule) :=
  mapM_eq_some fun f hf => by
    rw [lineAt?_eq, capturedName?_eq (Pattern.isMatch_of_mem_all hf)]
    rfl

/-- The matches of several rules. -/
def ofRules? (text : Text) (rules : List PatternRule) : Option (List Hit) :=
  flatMap? (ofRule? text) rules

@[simp] theorem ofRules?_eq (text : Text) (rules : List PatternRule) :
    ofRules? text rules = some (Hit.ofRules text rules) :=
  flatMap?_eq fun rule _ => ofRule?_eq text rule

/-- Lines `start` to `stop`, counted from one. -/
def slice? (lines : List Text) (start stop : Nat) : Option String := do
  let first ← sub? start 1
  let last ← sub? stop 1
  let piece ← sliceLines? lines first last
  return String.ofList piece

theorem slice?_eq (lines : List Text) {start stop : Nat} (hstart : 1 ≤ start) (hstop : 1 ≤ stop) :
    slice? lines start stop = some (slice lines start stop) := by
  rw [slice?, sub?_of_le hstart, sub?_of_le hstop]
  simp only [Option.bind_eq_bind, Option.bind_some, sliceLines?_eq]
  rfl

/-- The last line of the construct that begins on a line, both counted from one. -/
def endLine? (lines : List Text) (style : BlockStyle) (line : Nat) : Option Nat := do
  let first ← sub? line 1
  let last ← blockEnd? lines first style
  return last + 1

theorem endLine?_eq (lines : List Text) (style : BlockStyle) {line : Nat} (h : 1 ≤ line) :
    endLine? lines style line = some (endLine lines style line) := by
  rw [endLine?, sub?_of_le h]
  simp only [Option.bind_eq_bind, Option.bind_some, blockEnd?_eq]
  rfl

theorem one_le_endLine (lines : List Text) (style : BlockStyle) (line : Nat) :
    1 ≤ endLine lines style line :=
  Nat.le_add_left 1 _

/-! ## Top level -/

/-- The structure that a match announces. -/
def structureAt? (lines : List Text) (style : BlockStyle) (language : String) (h : Hit) :
    Option Structure := do
  let stop ← endLine? lines style h.line
  let content ← slice? lines h.line stop
  return {
    kind := h.rule.kind
    name := h.name.getD (defaultName h.rule.kind h.line)
    content
    location := .clamped h.line stop
    node := none
    language
    confidence := h.rule.confidence }

theorem structureAt?_eq (lines : List Text) (style : BlockStyle) (language : String) {h : Hit}
    (hline : 1 ≤ h.line) :
    structureAt? lines style language h = some (structureAt lines style language h) := by
  rw [structureAt?, endLine?_eq lines style hline]
  simp only [Option.bind_eq_bind, Option.bind_some]
  rw [slice?_eq lines hline (one_le_endLine lines style h.line)]
  rfl

/-- The structures that the patterns of a language find at the top level. -/
def declarations? (r : Rules) (content : Text) (language : String) : Option (List Structure) := do
  let hits ← ofRules? content (r.patterns .topLevel)
  let first := distinctBy Hit.line (hits.filter fun h => !h.isReserved)
  let found ← first.mapM (structureAt? content.lines r.blockStyle language)
  return found.mergeSort fun a b => locationLe a.location b.location

theorem declarations?_eq (r : Rules) (content : Text) (language : String) :
    declarations? r content language = some (declarations r content language) := by
  rw [declarations?, ofRules?_eq]
  simp only [Option.bind_eq_bind, Option.bind_some]
  rw [mapM_eq_some fun h hh => structureAt?_eq content.lines r.blockStyle language
    (Hit.one_le_line (List.mem_of_mem_filter (mem_of_mem_distinctBy hh)))]
  rfl

/-- The section under a heading. -/
def ofSection? (lines : List Text) (language : String) (s : Markdown.Section) :
    Option Structure := do
  let content ← slice? lines s.start s.stop
  return {
    kind := .sectionBlock
    name := if s.title.isEmpty then defaultName .sectionBlock s.start else s.title
    content
    location := .clamped s.start s.stop
    node := none
    language
    confidence := .percent 90 }

/-- The sections of a Markdown text; a text without headings is one document. -/
def sectionStructures? (content : Text) (language : String)
    (reader : Text → List Markdown.Heading) : Option (List Structure) := do
  match ← sections? content reader with
  | [] => return (wholeText? content language none).toList
  | found => found.mapM (ofSection? content.lines language)

theorem sectionStructures?_eq (hreader : Markdown.FindsPlaces reader content)
    (language : String) : sectionStructures? content language reader =
      some (TextExtraction.sections content language reader) := by
  have hmap : ∀ s ∈ Markdown.sections content reader, ofSection? content.lines language s =
      some (ofSection content.lines language s) := by
    intro s hs
    obtain ⟨hstart, hstop⟩ := Markdown.one_le_of_mem_sections hreader hs
    rw [ofSection?, slice?_eq content.lines hstart hstop]
    rfl
  rw [sectionStructures?, sections?_eq hreader, TextExtraction.sections]
  simp only [Option.bind_eq_bind, Option.bind_some]
  cases hfound : Markdown.sections content reader with
  | nil => rfl
  | cons s rest => exact mapM_eq_some (hfound ▸ hmap)

/-- The structures at the top level. -/
def topLevel? (r : Rules) (content : Text) (language : String)
    (reader : Text → List Markdown.Heading) : Option (List Structure) :=
  match r.blockStyle with
  | .markdown => sectionStructures? content language reader
  | .document => some (wholeText? content language none).toList
  | _ => declarations? r content language

theorem topLevel?_eq (r : Rules) (hreader : Markdown.FindsPlaces reader content)
    (language : String) :
    topLevel? r content language reader = some (topLevel r content language reader) := by
  rw [topLevel?, topLevel]
  cases r.blockStyle with
  | markdown => exact sectionStructures?_eq hreader language
  | document => rfl
  | braces => exact declarations?_eq r content language
  | indentation => exact declarations?_eq r content language
  | endKeyword => exact declarations?_eq r content language

/-! ## Nested -/

/-- The structure that a match inside a parent announces, if it is not the parent's own line. -/
def nestedAt? (lines : List Text) (style : BlockStyle) (language : String) (parent : Structure)
    (h : Hit) : Option (Option NestedStructure) := do
  let line ← sub? (parent.location.start + h.line) 1
  if (line = parent.location.start ∧ parent.kind ≠ .document) ∨ h.isReserved then return none
  else
    let kind := memberKind parent.kind h.rule.kind
    let last ← endLine? lines style line
    let stop := min last parent.location.stop
    let content ← slice? lines line stop
    return some {
      kind
      name := h.name.getD (defaultName kind line)
      content
      location := .clamped line stop
      node := none
      language
      confidence := h.rule.confidence
      parent := parent.ref
      level := 0 }

theorem nestedAt?_eq (lines : List Text) (style : BlockStyle) (language : String)
    (parent : Structure) {h : Hit} (hline : 1 ≤ h.line) :
    nestedAt? lines style language parent h =
      some (TextExtraction.nestedAt? lines style language parent h) := by
  -- both lines are counted from one, so one of the two ones can be taken away
  have hstart := parent.location.one_le_start
  have hstop := parent.location.start_le_stop
  have hfirst : 1 ≤ parent.location.start + h.line - 1 := by omega
  have hend := one_le_endLine lines style (parent.location.start + h.line - 1)
  rw [nestedAt?, TextExtraction.nestedAt?, sub?_of_le (by omega)]
  simp only [Option.bind_eq_bind, Option.bind_some]
  split
  case isTrue => rfl
  case isFalse =>
    rw [endLine?_eq lines style hfirst]
    simp only [Option.bind_some]
    rw [slice?_eq lines hfirst (by omega)]
    rfl

/-- The matches inside a parent. -/
def nestedIn? (r : Rules) (lines : List Text) (language : String) (parent : Structure) :
    Option (List NestedStructure) := do
  let hits ← ofRules? parent.content.toList (r.patterns .nested)
  filterMap? (nestedAt? lines r.blockStyle language parent) hits

theorem nestedIn?_eq (r : Rules) (lines : List Text) (language : String) (parent : Structure) :
    nestedIn? r lines language parent = some (nestedIn r lines language parent) := by
  rw [nestedIn?, ofRules?_eq, nestedIn]
  exact filterMap?_eq fun h hh =>
    nestedAt?_eq lines r.blockStyle language parent (Hit.one_le_line hh)

/-- Keeps one entry a line, the one with the smaller parent. -/
def hold? (held : List NestedStructure) (new : NestedStructure) :
    Option (List NestedStructure) :=
  match held with
  | [] => some [new]
  | old :: rest =>
    if old.location.start = new.location.start then do
      let before ← lineCount? old.parent.location
      let now ← lineCount? new.parent.location
      return if before ≤ now then old :: rest else new :: rest
    else do
      let kept ← hold? rest new
      return old :: kept

theorem hold?_eq (new : NestedStructure) : ∀ held : List NestedStructure,
    hold? held new = some (hold held new)
  | [] => rfl
  | old :: rest => by
    rw [hold?, hold]
    split
    · rw [lineCount?_eq, lineCount?_eq]
      rfl
    · rw [hold?_eq new rest]
      rfl

/-- The structures inside the containers. -/
def nested? (r : Rules) (content : Text) (language : String) (top : List Structure) :
    Option (List NestedStructure) := do
  let found ← flatMap? (nestedIn? r content.lines language) (top.filter isSearched)
  let held ← found.foldlM hold? []
  return held.mergeSort fun a b => a.location.start ≤ b.location.start

@[simp] theorem nested?_eq (r : Rules) (content : Text) (language : String)
    (top : List Structure) :
    nested? r content language top = some (nested r content language top) := by
  have hhold : hold? = fun held new => pure (hold held new) :=
    funext fun held => funext fun new => hold?_eq new held
  rw [nested?, flatMap?_eq fun parent _ => nestedIn?_eq r content.lines language parent, hhold]
  simp only [Option.bind_eq_bind, Option.bind_some, List.foldlM_pure]
  rfl

/-! ## Internal -/

/-- The place, in the list of functions, of the smallest one whose body holds a line. -/
def innermostIndex? (parents : List Ref) (line : Nat) : Option (Option Nat) := do
  let around ← sized? (fun p : Ref × Nat => p.1.location)
    (parents.zipIdx.filter fun p => inBody p.1 line)
  return (smallest? (fun p => p.1) around).map fun p => p.2.2

theorem innermostIndex?_eq (parents : List Ref) (line : Nat) :
    innermostIndex? parents line = some (TextExtraction.innermost? parents line) := by
  rw [innermostIndex?, sized?_eq, TextExtraction.innermost?]
  simp only [Option.bind_eq_bind, Option.bind_some, smallest?_map, Option.map_map]
  rfl

/-- The statement that a match in the body of a function announces. -/
def statementAt? (lines : List Text) (style : BlockStyle) (parent : Ref) (h : Hit) :
    Option InternalStructure := do
  let line := h.line
  let first ← sub? line 1
  let open? := hasUnclosedBracket ((lines[first]?).getD [])
  let stop ←
    if h.rule.kind = .controlFlow ∨ open? then
      (endLine? lines style line).map fun last => min last parent.location.stop
    else some line
  let content ← slice? lines line stop
  return {
    kind := h.rule.kind
    name := if h.rule.kind.isBinding then h.name else none
    content
    location := .clamped line stop
    parent
    importance := h.rule.importance
    confidence := h.rule.confidence }

theorem statementAt?_eq (lines : List Text) (style : BlockStyle) (parent : Ref) {h : Hit}
    (hline : 1 ≤ h.line) :
    statementAt? lines style parent h = some (statementAt lines style parent h) := by
  have hstart := parent.location.one_le_start
  have hstop := parent.location.start_le_stop
  have hend := one_le_endLine lines style h.line
  rw [statementAt?, statementAt, sub?_of_le hline]
  simp only [Option.bind_eq_bind, Option.bind_some]
  split
  · rw [endLine?_eq lines style hline]
    simp only [Option.map_some, Option.bind_some]
    rw [slice?_eq lines hline (by omega)]
    rfl
  · rw [slice?_eq lines hline hline]
    rfl

/-- The matches in the body of a function, with their lines in the whole text. -/
def bodyHits? (r : Rules) (lines : List Text) (parent : Ref) : Option (List Hit) :=
  let l := parent.location
  if l.stop ≤ l.start then some []
  else do
    let last ← sub? l.stop 1
    let body ← sliceLines? lines l.start last
    let hits ← ofRules? body (r.patterns .internal)
    return hits.map fun h => { h with line := l.start + h.line }

theorem bodyHits?_eq (r : Rules) (lines : List Text) (parent : Ref) :
    bodyHits? r lines parent = some (bodyHits r lines parent) := by
  rw [bodyHits?, bodyHits]
  split
  case isTrue => rfl
  case isFalse h =>
    rw [sub?_of_le (by omega)]
    simp only [Option.bind_eq_bind, Option.bind_some, sliceLines?_eq, ofRules?_eq]
    rfl

theorem one_le_line_of_mem_bodyHits {r : Rules} {lines : List Text} {parent : Ref} {h : Hit}
    (hh : h ∈ bodyHits r lines parent) : 1 ≤ h.line := by
  rw [bodyHits] at hh
  split at hh
  · exact absurd hh List.not_mem_nil
  · obtain ⟨hit, -, rfl⟩ := List.mem_map.mp hh
    exact Nat.le_add_right_of_le parent.location.one_le_start

/-- The matches that belong to the function at a place in the list of functions. -/
def ownedBy? (r : Rules) (lines : List Text) (parents : List Ref) (parent : Ref) (index : Nat) :
    Option (List (Ref × Hit)) := do
  let hits ← bodyHits? r lines parent
  filterMap? (fun h => do
    let owner ← innermostIndex? parents h.line
    return if owner == some index then some (parent, h) else none) hits

theorem ownedBy?_eq (r : Rules) (lines : List Text) (parents : List Ref) (parent : Ref)
    (index : Nat) :
    ownedBy? r lines parents parent index = some (((bodyHits r lines parent).filter fun h =>
      TextExtraction.innermost? parents h.line == some index).map fun h => (parent, h)) := by
  rw [ownedBy?, bodyHits?_eq]
  simp only [Option.bind_eq_bind, Option.bind_some, innermostIndex?_eq, Option.pure_def]
  rw [filterMap?_eq fun _ _ => rfl, map_filter]

/-- The statements inside the functions. -/
def internal? (r : Rules) (content : Text) (top : List Structure)
    (nested : List NestedStructure) : Option (List InternalStructure) := do
  let lines := content.lines
  let parents := (top.map Structure.ref ++ nested.map NestedStructure.ref).filter
    fun p => p.kind.isFunctionLike
  let owned ← flatMap? (fun (parent, index) => ownedBy? r lines parents parent index)
    parents.zipIdx
  let first := distinctBy (fun (_, h) => (h.line, h.rule.kind)) owned
  let found ← first.mapM fun (parent, h) => statementAt? lines r.blockStyle parent h
  return found.mergeSort fun a b => locationLe a.location b.location

@[simp] theorem internal?_eq (r : Rules) (content : Text) (top : List Structure)
    (nested : List NestedStructure) :
    internal? r content top nested = some (internal r content top nested) := by
  rw [internal?, internal]
  simp only [ownedBy?_eq]
  rw [flatMap?_eq fun _ _ => rfl]
  simp only [Option.bind_eq_bind, Option.bind_some]
  rw [mapM_eq_some (g := fun p => statementAt content.lines r.blockStyle p.1 p.2)]
  · rfl
  · -- a statement comes from a match in a body, which lies behind the first line of a function
    rintro ⟨parent, h⟩ hh
    obtain ⟨⟨p, index⟩, -, hp⟩ := List.mem_flatMap.mp (mem_of_mem_distinctBy hh)
    obtain ⟨hit, hhit, heq⟩ := List.mem_map.mp hp
    obtain ⟨rfl, rfl⟩ := Prod.mk.inj heq
    exact statementAt?_eq content.lines r.blockStyle p
      (one_le_line_of_mem_bodyHits (List.mem_of_mem_filter hhit))

/-- The structures of a text, found by patterns, and in Markdown by its headings. -/
def extractText? (content : Text) (language : String)
    (reader : Text → List Markdown.Heading := Markdown.headings) : Option Extraction := do
  let r := rulesOf language
  let topLevel ← topLevel? r content language reader
  let nested ← nested? r content language topLevel
  let internal ← internal? r content topLevel nested
  return { language, strategy := .text, topLevel, nested, internal, tree := none }

theorem extractText?_eq (hreader : Markdown.FindsPlaces reader content) (language : String) :
    extractText? content language reader = some (extractText content language reader) := by
  simp only [extractText?, topLevel?_eq _ hreader, nested?_eq, internal?_eq, Option.bind_eq_bind,
    Option.bind_some]
  rfl

end Outline.Strict

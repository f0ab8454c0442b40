import Outline.Proofs.Strict.Extraction
import Outline.Relation.Analysis

/-!
# Relations without a place out of range

The strict form of `relate` for structures that were found in text.  Three things are asked for by
place here.  The spans of the structures are looked up by the places of two structures in the list,
which has a span for each.  Lines are cut off before a brace that was found in them, and before the
name of a call, which lies in the line because it is a group of a match.  And the bases of a type
are read from groups that have to be there: the patterns of the heritage clauses and of the names
of types are such that no match leaves these groups out, which `Pattern.alwaysCaptures` reads off
them.

* `containment?_eq`, `heritageLinks?_eq`, `findReferences?_eq`, `scanImports?_eq`: the parts.
* `relate?_eq`: the relations of a file, for all structures without a tree.
-/

namespace Outline.Strict

/-! ## Containment -/

/-- The strength before it is moved into its range. -/
def rawStrength? (s : StrengthStrategy) (parent child : Location) : Option Single :=
  match s with
  | .sizeRatio => do
    let lines ← lineCount? child
    let all ← lineCount? parent
    return (Single.ofNat lines).div (Single.ofNat all)
  | .distanceDecay => some (s.raw parent child)

/-- The strength with which a parent contains a child. -/
def strength? (s : StrengthStrategy) (parent child : Location) : Option Single := do
  let raw ← rawStrength? s parent child
  return Single.clamp StrengthStrategy.least Single.one raw

@[simp] theorem strength?_eq (s : StrengthStrategy) (parent child : Location) :
    strength? s parent child = some (s.strength parent child) := by
  have hraw : rawStrength? s parent child = some (s.raw parent child) := by
    cases s with
    | sizeRatio =>
      simp only [rawStrength?, lineCount?_eq, Option.bind_eq_bind, Option.bind_some,
        Option.pure_def, StrengthStrategy.raw]
    | distanceDecay => rfl
  rw [strength?, hraw]
  rfl

/-- The containment of the structure at one place in the structure at another, if there is one. -/
def edgeAt? (strategy : StrengthStrategy) (spans : List Span) (parent : Ref) (i : Nat)
    (child : Ref) (j : Nat) : Option (Option Edge) :=
  if i = j then some none
  else do
    let outer ← spans[i]?
    let inner ← spans[j]?
    if outer.encloses inner && (outer != inner || decide (i < j)) then
      let strength ← strength? strategy parent.location child.location
      return some ⟨parent, child, .containment, strength⟩
    else return none

theorem edgeAt?_eq (strategy : StrengthStrategy) {structures : List Ref} {parent child : Ref}
    {i j : Nat} (hi : structures[i]? = some parent) (hj : structures[j]? = some child) :
    edgeAt? strategy (structures.map (spanOf none)) parent i child j =
      some (if holdsAt (spanOf none parent) (spanOf none child) i j then
        some ⟨parent, child, .containment, strategy.strength parent.location child.location⟩
        else none) := by
  -- a structure is not compared with itself, so the order of two places is strict
  rw [edgeAt?, holdsAt]
  by_cases hij : i = j
  · rw [if_pos hij, hij, bne_self_eq_false, Bool.false_and, Bool.false_and]
    rfl
  · rw [if_neg hij, bne_iff_ne.mpr hij, Bool.true_and, List.getElem?_map, hi, List.getElem?_map,
      hj]
    simp only [Option.map_some, Option.bind_eq_bind, Option.bind_some, strength?_eq]
    split
    · rfl
    · rfl

/-- All pairs of a structure and one that it contains. -/
def containment? (strategy : StrengthStrategy) (structures : List Ref) : Option (List Edge) :=
  let spans := structures.map (spanOf none)
  flatMap? (fun (parent, i) =>
    filterMap? (fun (child, j) => edgeAt? strategy spans parent i child j) structures.zipIdx)
    structures.zipIdx

@[simp] theorem containment?_eq (strategy : StrengthStrategy) (structures : List Ref) :
    containment? strategy structures = some (containment strategy structures none) := by
  rw [containment?, flatMap?_eq fun parent hparent => filterMap?_eq fun child hchild =>
    edgeAt?_eq strategy (List.mem_zipIdx_iff_getElem?.mp hparent)
      (List.mem_zipIdx_iff_getElem?.mp hchild), containment]
  simp only [List.zipIdx_map, List.flatMap_map, map_filter, List.filterMap_map]
  rfl

/-! ## Headers -/

/-- The text of header lines up to an opening brace or a line that ends in a colon. -/
def joinHeader? : List Text → Option Text
  | [] => some []
  | line :: rest =>
    match line.findIdx? (· == '\x7b') with
    | some brace => range? line 0 brace
    | none =>
      if line.trimEnd.getLast? = some ':' then some (line ++ [' '])
      else do
        let more ← joinHeader? rest
        return line ++ ' ' :: more

theorem joinHeader?_eq : ∀ lines : List Text, joinHeader? lines = some (joinHeader lines)
  | [] => rfl
  | line :: rest => by
    rw [joinHeader?, joinHeader]
    cases hbrace : line.findIdx? (· == '\x7b') with
    | some brace =>
      obtain ⟨hlt, hidx⟩ := List.findIdx?_eq_some_iff_findIdx_eq.mp hbrace
      have hany : line.any (· == '\x7b') = true := by
        rw [List.any_eq_true]
        exact List.findIdx_lt_length.mp (hidx ▸ hlt)
      rw [if_pos hany, List.takeWhile_eq_take_findIdx_not]
      simp only [bne, Bool.not_not, hidx]
      exact range?_zero (Nat.le_of_lt hlt)
    | none =>
      have hany : ¬ line.any (· == '\x7b') = true := by
        rw [List.any_eq_true]
        rintro ⟨c, hc, hbrace'⟩
        rw [List.findIdx?_eq_none_iff.mp hbrace c hc] at hbrace'
        exact absurd hbrace' (by decide)
      rw [if_neg hany]
      simp only
      split
      · rfl
      · rw [joinHeader?_eq rest]
        rfl

/-- The header of the declaration at a location. -/
def headerText? (lines : List Text) (l : Location) : Option Text := do
  -- from a location to indices the difference stops at zero by intent
  let start := l.start - 1
  let last ← sub? (start + headerLines) 1
  joinHeader? ((lines.take (min last (l.stop - 1) + 1)).drop start)

@[simp] theorem headerText?_eq (lines : List Text) (l : Location) :
    headerText? lines l = some (headerText lines l) := by
  rw [headerText?, sub?_of_le (Nat.le_add_left_of_le (by decide))]
  exact joinHeader?_eq _

/-! ## Heritage -/

/-- The text of group `n`, which has to take part. -/
def taken? (f : Found) (text : Text) (n : Nat) : Option Text := do
  let found ← group? f text n
  found

/-- A group that no match leaves out can be taken from each. -/
theorem exists_taken? {p : Pattern} {text : Text} {f : Found} (h : p.IsMatch text f) {n : Nat}
    (hn : p.alwaysCaptures n = true) :
    ∃ t, taken? f text n = some t ∧ f.group? text n = some t := by
  obtain ⟨start, stop, hspan⟩ := h.exists_span? hn
  have hgroup : f.group? text n = some (Found.cut text start stop) := by
    rw [Found.group?, hspan]
    rfl
  refine ⟨Found.cut text start stop, ?_, hgroup⟩
  rw [taken?, group?_eq h, hgroup]
  rfl

/-- The first group of the first match. -/
def capture? (p : Pattern) (t : Text) : Option (Option Text) :=
  match p.first? t with
  | none => some none
  | some f => (taken? f t 1).map some

theorem capture?_eq {p : Pattern} (hp : p.alwaysCaptures 1 = true) (t : Text) :
    capture? p t = some (Outline.capture? p t) := by
  rw [capture?, Outline.capture?]
  cases hfirst : p.first? t with
  | none => rfl
  | some f =>
    obtain ⟨piece, htaken, hgroup⟩ := exists_taken? (Pattern.isMatch_of_first? hfirst) hp
    simp only [htaken, Option.bind_some, hgroup]
    rfl

/-- The names of the bases after a keyword. -/
def clauseBases? (keyword : String) (header : Text) : Option (List Text) := do
  let list ← capture? (baseClause keyword) header
  return (list.map fun t => (splitBases t).map (·.name)).getD []

theorem clauseBases?_eq (keyword : String) (header : Text) :
    clauseBases? keyword header = some (clauseBases keyword header) := by
  have hcaptures : (baseClause keyword).alwaysCaptures 1 = true := by simp [baseClause]
  rw [clauseBases?, capture?_eq hcaptures]
  rfl

/-- The bases that the header of a declaration names. -/
def textHeritage? (family : Heritage) (language : String) (kind : Kind) (header : Text) :
    Option HeritageClause :=
  match family with
  | .clauses => do
    let extended ← clauseBases? "extends" header
    let implemented ← clauseBases? "implements" header
    return ⟨extended, implemented⟩
  | .colonList => do
    match ← capture? colonClause header with
    | none => return {}
    | some list =>
      let bases := splitBases (whereClause.eraseFirst list)
      let (implemented, extended) := bases.zipIdx.partition fun (b, position) =>
        isImplementedBase language kind position b
      return ⟨extended.map (·.1.name), implemented.map (·.1.name)⟩
  | .argumentList => do
    match ← capture? argumentClause header with
    | none => return {}
    | some list =>
      return ⟨listedBases ','
        (fun b => !b.isEmpty && !b.any (· == '=') && b != "object".toList) list, []⟩
  | .implFor => do
    match ← if kind = .trait then capture? supertraitClause header else some none with
    | none => return {}
    | some list =>
      return ⟨listedBases '+' (fun b => b.head? != some '\'' && b.head? != some '?') list, []⟩
  | .angle => do
    let base ← capture? angleClause header
    return ⟨(base.map baseName).toList, []⟩
  | .none => return {}

theorem textHeritage?_eq (family : Heritage) (language : String) (kind : Kind) (header : Text) :
    textHeritage? family language kind header =
      some (textHeritage family language kind header) := by
  have hcolon := capture?_eq (by simp [colonClause] : colonClause.alwaysCaptures 1 = true) header
  have hargument := capture?_eq (by simp [argumentClause] : argumentClause.alwaysCaptures 1 = true)
    header
  have htrait := capture?_eq (by simp [supertraitClause] : supertraitClause.alwaysCaptures 1 = true)
    header
  have hangle := capture?_eq (by simp [angleClause] : angleClause.alwaysCaptures 1 = true) header
  cases family with
  | clauses =>
    simp only [textHeritage?, clauseBases?_eq, Option.bind_eq_bind, Option.bind_some]
    rfl
  | colonList =>
    simp only [textHeritage?, textHeritage, hcolon, Option.bind_eq_bind, Option.bind_some]
    cases Outline.capture? colonClause header with
    | none => rfl
    | some list => rfl
  | argumentList =>
    simp only [textHeritage?, textHeritage, hargument, Option.bind_eq_bind, Option.bind_some]
    cases Outline.capture? argumentClause header with
    | none => rfl
    | some list => rfl
  | implFor =>
    simp only [textHeritage?, textHeritage, htrait]
    by_cases hkind : kind = .trait
    · simp only [if_pos hkind, Option.bind_eq_bind, Option.bind_some]
      cases Outline.capture? supertraitClause header with
      | none => rfl
      | some list => rfl
    · simp only [if_neg hkind]
      rfl
  | angle =>
    simp only [textHeritage?, hangle, Option.bind_eq_bind, Option.bind_some]
    rfl
  | none => rfl

/-- The link of a trait with the type it is implemented for. -/
def implLink? (structures : List Ref) (header : Text) (s : Ref) : Option (Option HeritageLink) :=
  match implClause.first? header with
  | none => some none
  | some f => do
    let traitName := String.ofList (baseName (← taken? f header 1))
    let typeName := String.ofList (baseName (← taken? f header 2))
    let child := (findType? structures typeName s).getD s
    return some ⟨s, child, findType? structures traitName child, traitName, true⟩

theorem implLink?_eq (structures : List Ref) (header : Text) (s : Ref) :
    implLink? structures header s = some (Outline.implLink? structures header s) := by
  rw [implLink?, Outline.implLink?]
  cases hfirst : implClause.first? header with
  | none => rfl
  | some f =>
    have hmatch := Pattern.isMatch_of_first? hfirst
    obtain ⟨traitText, htrait, htrait'⟩ := exists_taken? hmatch
      (by simp [implClause] : implClause.alwaysCaptures 1 = true)
    obtain ⟨typeText, htype, htype'⟩ := exists_taken? hmatch
      (by simp [implClause] : implClause.alwaysCaptures 2 = true)
    simp only [htrait, htrait', htype, htype', Option.bind_eq_bind, Option.bind_some]
    rfl

/-- The links of one declaration. -/
def linksOf? (r : Rules) (structures : List Ref) (lines : List Text) (s : Ref) :
    Option (List HeritageLink) := do
  let header ← headerText? lines s.location
  if r.heritage = .implFor ∧ s.kind = .impl then
    let link ← implLink? structures header s
    return link.toList
  else
    let clause ← textHeritage? r.heritage r.name s.kind header
    return baseLinks structures s clause

/-- Without a tree the bases are those of the header. -/
theorem linksOf_none (r : Rules) (structures : List Ref) (lines : List Text) (s : Ref) :
    linksOf r structures lines none s =
      if r.heritage = .implFor ∧ s.kind = .impl then
        (Outline.implLink? structures (headerText lines s.location) s).toList
      else baseLinks structures s
        (textHeritage r.heritage r.name s.kind (headerText lines s.location)) :=
  rfl

theorem linksOf?_eq (r : Rules) (structures : List Ref) (lines : List Text) (s : Ref) :
    linksOf? r structures lines s = some (linksOf r structures lines none s) := by
  rw [linksOf?, linksOf_none, headerText?_eq, Option.bind_eq_bind, Option.bind_some]
  split
  · rw [implLink?_eq]
    rfl
  · rw [textHeritage?_eq]
    rfl

/-- The links of all declarations. -/
def heritageLinks? (r : Rules) (structures : List Ref) (content : Text) :
    Option (List HeritageLink) :=
  if r.heritage = .none then some []
  else flatMap? (linksOf? r structures content.lines)
    (structures.filter fun s => s.kind.isTypeLike || s.kind == .impl)

@[simp] theorem heritageLinks?_eq (r : Rules) (structures : List Ref) (content : Text) :
    heritageLinks? r structures content = some (heritageLinks r structures content none) := by
  rw [heritageLinks?, heritageLinks,
    flatMap?_eq fun s _ => linksOf?_eq r structures content.lines s]
  split
  · rfl
  · rfl

/-! ## References -/

/-- The smallest structure around a line that satisfies `p`. -/
def innermostWhere? (p : Ref → Bool) (structures : List Ref) (line : Nat) :
    Option (Option Ref) := do
  let around ← sized? Ref.location
    (structures.filter fun s => !s.kind.isBorder && p s && s.location.containsLine line)
  return (lastSmallest? (fun s => s.1) around).map fun s => s.2

@[simp] theorem innermostWhere?_eq (p : Ref → Bool) (structures : List Ref) (line : Nat) :
    innermostWhere? p structures line = some (Outline.innermostWhere? p structures line) := by
  simp only [innermostWhere?, sized?_eq, Option.bind_eq_bind, Option.bind_some,
    lastSmallest?_map, Option.map_map, Outline.innermostWhere?]
  exact congrArg some Option.map_id_apply

/-- The structure that a line belongs to. -/
def ownerOf? (structures : List Ref) (scope : Ref) (line : Nat) : Option Ref := do
  let owner ← innermostWhere? (fun _ => true) structures line
  return owner.getD scope

@[simp] theorem ownerOf?_eq (structures : List Ref) (scope : Ref) (line : Nat) :
    ownerOf? structures scope line = some (ownerOf structures scope line) := by
  rw [ownerOf?, innermostWhere?_eq]
  rfl

/-- A call on a line. -/
def callOn? (structures : List Ref) (scope : Ref) (name : String) (line : Nat) :
    Option Reference := do
  let target := resolveCallee? structures name
  let source ← ownerOf? structures scope line
  return {
    source
    target
    kind := .functionCall
    name
    line
    confidence := if target.isSome then .percent 90 else .percent 50 }

/-- The call that a match stands for. -/
def callOfMatch? (structures : List Ref) (scope : Ref) (text : Text) (line : Nat) (f : Found) :
    Option (Option Reference) :=
  match f.span? 1 with
  | none => some none
  | some (start, stop) => do
    let name := String.ofList (← range? text start stop)
    let before ← range? text 0 start
    let declared := structures.any fun s => s.location.start == line && s.name == name
    if isCallStopword name || declarationBefore.occursIn before ||
        constructionBefore.occursIn before || declared then return none
    else
      let call ← callOn? structures scope name line
      return some call

theorem callOfMatch?_eq (structures : List Ref) (scope : Ref) {text : Text} (line : Nat)
    {f : Found} (h : callPattern.IsMatch text f) :
    callOfMatch? structures scope text line f =
      some (Outline.callOfMatch? structures scope text line f) := by
  rw [callOfMatch?, Outline.callOfMatch?]
  cases hspan : f.span? 1 with
  | none => rfl
  | some span =>
    obtain ⟨start, stop⟩ := span
    obtain ⟨hle, hstop⟩ := h.le_of_span? hspan
    simp only [range?_of_span? h hspan, range?_zero (Nat.le_trans hle hstop), callOn?,
      ownerOf?_eq, Option.bind_eq_bind, Option.bind_some]
    split
    · rfl
    · rfl

/-- The calls of a text. -/
def textCalls? (structures : List Ref) (content : Text) (scope : Ref) :
    Option (List Reference) :=
  flatMap? (fun (text, line) =>
    filterMap? (callOfMatch? structures scope text line) (callPattern.all text))
    (numberedLines content)

@[simp] theorem textCalls?_eq (structures : List Ref) (content : Text) (scope : Ref) :
    textCalls? structures content scope = some (textCalls structures content scope) :=
  flatMap?_eq fun (_, line) _ => filterMap?_eq fun _ hf =>
    callOfMatch?_eq structures scope line (Pattern.isMatch_of_mem_all hf)

/-- The reference to a type that a match stands for. -/
def typeOfMatch? (structures : List Ref) (scope : Ref) (text : Text) (line : Nat) (f : Found) :
    Option (Option Reference) := do
  let name := String.ofList (← taken? f text 1)
  if name.length < 2 || name == "Self" then return none
  else
    let target := structures.find? fun s => s.kind.isTypeLike && s.name == name
    let source ← ownerOf? structures scope line
    return some {
      source
      target
      kind := .typeName
      name
      line
      confidence := if target.isSome then .percent 80 else .percent 40 }

theorem typeOfMatch?_eq (structures : List Ref) (scope : Ref) {text : Text} (line : Nat)
    {f : Found} (h : typePattern.IsMatch text f) :
    typeOfMatch? structures scope text line f =
      some (Outline.typeOfMatch? structures scope text line f) := by
  obtain ⟨name, htaken, hgroup⟩ := exists_taken? h
    (by simp [typePattern] : typePattern.alwaysCaptures 1 = true)
  simp only [typeOfMatch?, Outline.typeOfMatch?, htaken, hgroup, ownerOf?_eq,
    Option.bind_eq_bind, Option.bind_some]
  split
  · rfl
  · rfl

/-- The names of types in a text. -/
def typeReferences? (structures : List Ref) (content : Text) (scope : Ref) :
    Option (List Reference) :=
  flatMap? (fun (text, line) =>
    filterMap? (typeOfMatch? structures scope text line) (typePattern.all text))
    ((numberedLines content).filter fun (_, line) => !declaresType structures line)

@[simp] theorem typeReferences?_eq (structures : List Ref) (content : Text) (scope : Ref) :
    typeReferences? structures content scope = some (typeReferences structures content scope) :=
  flatMap?_eq fun (_, line) _ => filterMap?_eq fun _ hf =>
    typeOfMatch?_eq structures scope line (Pattern.isMatch_of_mem_all hf)

/-- The uses of a variable outside of its own lines. -/
def usesOf? (structures : List Ref) (content : Text) (scope v : Ref) : Option (List Reference) :=
  let pattern := Pattern.chain [Pattern.boundary, Pattern.literal v.name, Pattern.boundary]
  ((numberedLines content).filter fun (text, line) =>
    !v.location.containsLine line && pattern.occursIn text).mapM fun (_, line) => do
      let owner ← innermostWhere? (· != v) structures line
      return {
        source := owner.getD scope
        target := some v
        kind := .variableName
        name := v.name
        line
        confidence := .percent 70 }

theorem usesOf?_eq (structures : List Ref) (content : Text) (scope v : Ref) :
    usesOf? structures content scope v = some (usesOf structures content scope v) :=
  mapM_eq_some fun (_, line) _ => by simp only [innermostWhere?_eq]; rfl

/-- All references, by line. -/
def findReferences? (structures : List Ref) (content : Text) : Option (List Reference) := do
  let scope := fileScope content
  let calls ← textCalls? structures content scope
  let types ← typeReferences? structures content scope
  let uses ← flatMap? (usesOf? structures content scope)
    (structures.filter isTrackedVariable)
  return (distinctBy (fun r : Reference => (r.source, r.kind, r.name, r.line))
    (calls ++ types ++ uses)).mergeSort fun a b => a.line ≤ b.line

@[simp] theorem findReferences?_eq (r : Rules) (structures : List Ref) (content : Text) :
    findReferences? structures content =
      some (findReferences r structures content none) := by
  simp only [findReferences?, textCalls?_eq, typeReferences?_eq, Option.bind_eq_bind,
    Option.bind_some]
  rw [flatMap?_eq fun v _ => usesOf?_eq structures content (fileScope content) v]
  rfl

/-! ## Imports -/

/-- The import with a captured target, unless the target is blank. -/
def importOf? (content : Text) (form : ImportForm) (index : Nat) (target : Text) :
    Option (Option Import) :=
  let target := target.trim
  if target.isEmpty then some none
  else do
    let line ← lineAt? content index
    return some ⟨String.ofList target, line, form⟩

theorem importOf?_eq (content : Text) (form : ImportForm) (index : Nat) (target : Text) :
    importOf? content form index target =
      some (Outline.importOf? content form index target) := by
  rw [importOf?, Outline.importOf?, lineAt?_eq]
  split
  · rfl
  · rfl

/-- The imports that a rule finds. -/
def importsOfRule? (content : Text) (rule : ImportRule) : Option (List Import) :=
  flatMap? (fun f =>
    match f.span? 1 with
    | none => some []
    | some (start, stop) => do
      let target ← range? content start stop
      filterMap? (importOf? content rule.form start)
        (if rule.splits then Text.splitOn ',' target else [target]))
    (rule.pattern.all content)

theorem importsOfRule?_eq (content : Text) (rule : ImportRule) :
    importsOfRule? content rule = some (importsOfRule content rule) := by
  refine flatMap?_eq fun f hf => ?_
  cases hspan : f.span? 1 with
  | none => rfl
  | some span =>
    obtain ⟨start, stop⟩ := span
    simp only [range?_of_span? (Pattern.isMatch_of_mem_all hf) hspan, Option.bind_eq_bind,
      Option.bind_some]
    exact filterMap?_eq fun _ _ => importOf?_eq content rule.form start _

/-- The imports in blocks. -/
def importsInBlocks? (content : Text) : Option (List Import) :=
  flatMap? (fun block =>
    match block.span? 1 with
    | none => some []
    | some (start, stop) => do
      let body ← range? content start stop
      filterMap? (fun entry =>
        match entry.span? 1 with
        | none => some none
        | some (first, last) => do
          let target ← range? body first last
          importOf? content .go (start + first) target) (importEntry.all body))
    (importBlock.all content)

theorem importsInBlocks?_eq (content : Text) :
    importsInBlocks? content = some (importsInBlocks content) := by
  refine flatMap?_eq fun block hblock => ?_
  cases hspan : block.span? 1 with
  | none => rfl
  | some span =>
    obtain ⟨start, stop⟩ := span
    simp only [range?_of_span? (Pattern.isMatch_of_mem_all hblock) hspan, Option.bind_eq_bind,
      Option.bind_some]
    refine filterMap?_eq fun entry hentry => ?_
    cases hentryspan : entry.span? 1 with
    | none => rfl
    | some inner =>
      obtain ⟨first, last⟩ := inner
      simp only [range?_of_span? (Pattern.isMatch_of_mem_all hentry) hentryspan,
        Option.bind_some]
      exact importOf?_eq content .go (start + first) _

/-- The imports of a text, by line and target. -/
def scanImports? (content : Text) : Option (List Import) := do
  let found ← flatMap? (importsOfRule? content) importRules
  let inBlocks ← importsInBlocks? content
  return (distinctBy (fun i : Import => (i.line, i.target)) (found ++ inBlocks)).mergeSort
    Import.le

@[simp] theorem scanImports?_eq (content : Text) :
    scanImports? content = some (scanImports content) := by
  rw [scanImports?, flatMap?_eq fun rule _ => importsOfRule?_eq content rule,
    importsInBlocks?_eq]
  rfl

/-! ## All relations -/

/-- The imports of a text as dependencies. -/
def importDependencies? (structures : List Ref) (content : Text) : Option (List Dependency) := do
  let imports ← scanImports? content
  imports.mapM fun i => do
    let source ← innermostWhere? (fun _ => true) structures i.line
    return ⟨source, .importing, i.target, i.line, .percent 95⟩

@[simp] theorem importDependencies?_eq (structures : List Ref) (content : Text) :
    importDependencies? structures content = some (importDependencies structures content) := by
  rw [importDependencies?, scanImports?_eq]
  exact mapM_eq_some fun i _ => by rw [innermostWhere?_eq]; rfl

/-- The relations of what was found in a text. -/
def relate? (strategy : StrengthStrategy) (found : Extraction) (content : Text) :
    Option Relations := do
  let contained ← containment? strategy found.named
  let links ← heritageLinks? (rulesOf found.language) found.named content
  let references ← findReferences? found.named content
  let imports ← importDependencies? found.named content
  return {
    edges := contained ++ links.filterMap HeritageLink.edge? ++ usageEdges references
    references
    dependencies := (imports ++ links.map HeritageLink.dependency).mergeSort
      fun a b => a.line ≤ b.line }

theorem relate?_eq (strategy : StrengthStrategy) {found : Extraction} (h : found.tree = none)
    (content : Text) : relate? strategy found content = some (relate strategy found content) := by
  simp only [relate?, containment?_eq, heritageLinks?_eq, importDependencies?_eq,
    findReferences?_eq (rulesOf found.language), Option.bind_eq_bind, Option.bind_some, relate, h]
  rfl

end Outline.Strict

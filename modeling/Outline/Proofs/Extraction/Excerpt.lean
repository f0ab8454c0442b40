import Outline.Proofs.Extraction.Statements
import Outline.Proofs.Text.Bytes
import Outline.Proofs.Tree.Places

/-!
# A structure of a tree is what its node covers

A node names a piece of the source twice: by two bytes, between which its text is cut out, and by
two places, of which the extractor takes the rows.  The places were worked out from the bytes when
the node was added, each by itself and whether or not the bytes can be cut at; so they need not fit
to the text that is cut out.  They do fit wherever there is such a text.  A range of bytes that can
be cut out begins and ends between two characters, and the row of such a byte is the number of line
feeds before it (`SyntaxTree.row_pointAt`).  So the rows of the two ends differ by the line feeds of
the text itself.  A structure always has some text, so this applies to all of them; only the
document, which is the whole source, is not read from a node.

* `IsExcerpt`: a text with a location is what a node covers.
* `isExcerpt_of_structureOf?`, `isExcerpt_of_statementOf?`: single nodes.
* `isExcerpt_of_extractTree`: all structures of a tree.
-/

namespace Outline

namespace SyntaxTree

variable {t : SyntaxTree}

/-- The row of a byte between two characters is the number of line feeds before it. -/
theorem row_pointAt (h : t.lineStarts = t.source.lineStarts) {pre post : Text}
    (hsource : t.source = pre ++ post) :
    (t.pointAt (Text.byteLength pre)).row = Text.newlines pre := by
  have hlength : min (Text.byteLength pre) (Text.byteLength (pre ++ post)) =
      Text.byteLength pre := by
    rw [Text.byteLength_append]
    omega
  rw [pointAt_eq h]
  simp only [begun, hsource, hlength, Text.length_filter_lineStarts, Nat.add_sub_cancel]

end SyntaxTree

/-- A text with a location is what a node covers: the text is what lies between the two bytes of the
node, it begins on the line that comes after the line feeds before it, and ends on the line that
comes after its own ones. -/
structure IsExcerpt (source : Text) (n : Node) (content : String) (l : Location) : Prop where
  exists_split : ∃ pre post, source = pre ++ content.toList ++ post ∧
    Text.byteLength pre = n.startByte ∧ Text.byteLength (pre ++ content.toList) = n.stopByte ∧
      l.start = 1 + Text.newlines pre
  stop_eq : l.stop = l.start + Text.newlines content.toList

namespace TreeExtraction

variable {r : Rules} {t : SyntaxTree} {language : String}

/-! ## Single nodes -/

/-- The text of a node with the lines of its two ends. -/
theorem isExcerpt_of_text (h : t.IsPlaced) {id : Nat} {span : Nat × Nat}
    (hspan : t.lineSpan? id = some span) (hfilled : (t.text id).isBlank = false) :
    ∃ n, t.get? id = some n ∧
      IsExcerpt t.source n (String.ofList (t.text id)) (.clamped span.1 span.2) := by
  obtain ⟨n, hn, rfl⟩ := Option.map_eq_some_iff.mp hspan
  refine ⟨n, hn, ?_⟩
  have htext : t.text id = (t.source.byteRange? n.startByte n.stopByte).getD [] := by
    rw [SyntaxTree.text, hn, Option.bind_some]
  cases hpiece : t.source.byteRange? n.startByte n.stopByte with
  | none =>
    -- bytes that cannot be cut at leave no text
    rw [htext, hpiece] at hfilled
    exact absurd hfilled (by decide)
  | some piece =>
    obtain ⟨pre, post, hsource, hstart, hstop⟩ := Text.exists_of_byteRange? hpiece
    have hplaces := h.span_eq id n hn
    rw [Node.span, Span.mk.injEq] at hplaces
    have hstartRow : n.start.row = Text.newlines pre := by
      rw [hplaces.1, ← hstart]
      exact SyntaxTree.row_pointAt h.lineStarts_eq (hsource.trans (List.append_assoc _ _ _))
    have hstopRow : n.stop.row = Text.newlines pre + Text.newlines piece := by
      rw [hplaces.2, ← hstop, ← Text.newlines_append]
      exact SyntaxTree.row_pointAt h.lineStarts_eq hsource
    rw [htext, hpiece, Option.getD_some]
    constructor
    · rw [String.toList_ofList]
      refine ⟨pre, post, hsource, hstart, hstop, ?_⟩
      rw [Location.start_clamped, hstartRow]
      omega
    · rw [String.toList_ofList, Location.stop_clamped, Location.start_clamped, hstartRow, hstopRow]
      omega

theorem isExcerpt_of_structureOf? (h : t.IsPlaced) {id : Nat} {kind : Kind} {s : Structure}
    (hs : structureOf? r t language id kind = some s) :
    ∃ n, t.get? id = some n ∧ IsExcerpt t.source n s.content s.location := by
  obtain ⟨span, hspan, hfilled, -, -, hcontent, hlocation⟩ := exists_span_of_structureOf? hs
  rw [hcontent, hlocation]
  exact isExcerpt_of_text h hspan hfilled

theorem isExcerpt_of_statementOf? (h : t.IsPlaced) {id : Nat} {parent : Ref}
    {s : InternalStructure} (hs : statementOf? r t parent id = some s) :
    ∃ n, t.get? id = some n ∧ IsExcerpt t.source n s.content s.location := by
  obtain ⟨span, -, hspan, hfilled, -, hcontent, hlocation⟩ := exists_span_of_statementOf? hs
  rw [hcontent, hlocation]
  exact isExcerpt_of_text h hspan hfilled

/-! ## The tiers -/

/-- An entry of the top level is the document or was read from a node. -/
theorem exists_structureOf?_of_mem_topLevel {s : Structure} (h : s ∈ topLevel r t language) :
    s.kind = .document ∧ r.wholeFile = true ∨
      ∃ id kind, structureOf? r t language id kind = some s := by
  rcases mem_topLevel h with ⟨hwhole, hkind, -⟩ | ⟨root, -, -, hs⟩
  · exact Or.inl ⟨hkind, hwhole⟩
  · obtain ⟨id, listed, -, hs⟩ := exists_structureOf?_of_mem_declarations hs
    exact Or.inr ⟨id, r.refine t id listed, hs⟩

/-- A nested structure was read from a node. -/
theorem exists_structureOf?_of_mem_nested (h : t.IsLinked) {maxDepth : Nat} {top : List Structure}
    {s : NestedStructure} (hs : s ∈ nested r t language maxDepth top) :
    ∃ id kind, structureOf? r t language id kind = some s.toStructure := by
  obtain ⟨c, -, -, node, -, hs⟩ := exists_container_of_mem_nested hs
  obtain ⟨id, hplaced⟩ := isPlaced_of_mem_nestedBelow h maxDepth node c.ref 0 hs
  exact ⟨id, s.kind, hplaced.structure_eq⟩

/-- A statement was read from a node. -/
theorem exists_statementOf?_of_mem_internal {maxDepth : Nat} {top : List Structure}
    {nested : List NestedStructure} {s : InternalStructure}
    (hs : s ∈ internal r t maxDepth top nested) :
    ∃ id, statementOf? r t s.parent id = some s := by
  rw [internal] at hs
  obtain ⟨p, -, hs⟩ := List.mem_flatMap.mp hs
  split at hs
  · exact absurd hs List.not_mem_nil
  · rename_i node hnode
    have hread : some s ∈ (statementNodes r t maxDepth node).map (statementOf? r t p) := by
      rw [← map_some_statementsBelow]
      exact List.mem_map.mpr ⟨s, hs, rfl⟩
    obtain ⟨id, -, hid⟩ := List.mem_map.mp hread
    rw [parent_of_mem_statementsBelow hs]
    exact ⟨id, hid⟩

end TreeExtraction

open TreeExtraction

/-- In a tree that was put together node by node, all structures but a document are what their nodes
cover. -/
theorem isExcerpt_of_extractTree {t : SyntaxTree} (h : t.IsBuilt) {maxDepth : Nat} {content : Text}
    {language : String} {x : Extraction}
    (hx : extractTree maxDepth content language t = .ok x) :
    (∀ s ∈ x.topLevel, s.kind = .document ∧ (rulesOf language).wholeFile = true ∨
        ∃ id n, s.node = some id ∧ t.get? id = some n ∧ IsExcerpt content n s.content s.location) ∧
      (∀ s ∈ x.nested,
        ∃ id n, s.node = some id ∧ t.get? id = some n ∧ IsExcerpt content n s.content s.location) ∧
      ∀ s ∈ x.internal, ∃ id n, statementOf? (rulesOf language) t s.parent id = some s ∧
        t.get? id = some n ∧ IsExcerpt content n s.content s.location := by
  obtain ⟨hover, htiers⟩ := isFromTree_of_extractTree hx
  rw [← hover.source_eq]
  refine ⟨fun s hs => ?_, fun s hs => ?_, fun s hs => ?_⟩
  · rw [htiers.topLevel_eq] at hs
    refine (exists_structureOf?_of_mem_topLevel hs).imp_right ?_
    rintro ⟨id, kind, hstructure⟩
    obtain ⟨n, hn, hexcerpt⟩ := isExcerpt_of_structureOf? h.isPlaced hstructure
    exact ⟨id, n, (node_of_structureOf? hstructure).1, hn, hexcerpt⟩
  · rw [htiers.nested_eq] at hs
    obtain ⟨id, kind, hstructure⟩ := exists_structureOf?_of_mem_nested h.isLinked hs
    obtain ⟨n, hn, hexcerpt⟩ := isExcerpt_of_structureOf? h.isPlaced hstructure
    exact ⟨id, n, (node_of_structureOf? hstructure).1, hn, hexcerpt⟩
  · rw [htiers.internal_eq] at hs
    obtain ⟨id, hstatement⟩ := exists_statementOf?_of_mem_internal hs
    obtain ⟨n, hn, hexcerpt⟩ := isExcerpt_of_statementOf? h.isPlaced hstatement
    exact ⟨id, n, hstatement, hn, hexcerpt⟩

/-- A function behind a character of two bytes; the line end after it belongs to it. -/
def accentText : Text := "// é\nfunction f() \x7b\n  return 1\n\x7d\n".toList

/-- Its tree, node by node. -/
def accentTree : SyntaxTree :=
  (((SyntaxTree.ofSource accentText).add none "program" none 0 34).add
    (some 0) "function_declaration" none 6 34).add
    (some 1) "return_statement" none 23 31

theorem isBuilt_accentTree : accentTree.IsBuilt :=
  (((SyntaxTree.IsBuilt.ofSource _).add _ _ _ _ _).add _ _ _ _ _).add _ _ _ _ _

/-- The function ends where the line after it begins, so it has one line more than it shows. -/
theorem isExcerpt_of_accent :
    ∃ x, extractTree 5 accentText "javascript" accentTree = .ok x ∧
      (x.topLevel.map fun s => (s.content, s.location.start, s.location.stop)) =
        [("function f() \x7b\n  return 1\n\x7d\n", 2, 5)] ∧
      (x.internal.map fun s => (s.content, s.location.start, s.location.stop)) =
        [("return 1", 3, 3)] ∧
      (∀ s ∈ x.topLevel, ∃ id n, s.node = some id ∧ accentTree.get? id = some n ∧
        IsExcerpt accentText n s.content s.location) ∧
      ∀ s ∈ x.internal, ∃ id n,
        statementOf? (rulesOf "javascript") accentTree s.parent id = some s ∧
          accentTree.get? id = some n ∧ IsExcerpt accentText n s.content s.location := by
  have hover : accentTree.IsOver accentText := ⟨⟨0, by decide +kernel⟩, rfl⟩
  obtain ⟨x, hx⟩ := exists_extractTree_eq_ok hover 5 "javascript"
  obtain ⟨-, htiers⟩ := isFromTree_of_extractTree hx
  have hcode : (rulesOf "javascript").wholeFile = false := by decide +kernel
  obtain ⟨htop, -, hinternal⟩ := isExcerpt_of_extractTree isBuilt_accentTree hx
  refine ⟨x, hx, ?_, ?_, fun s hs => (htop s hs).resolve_left ?_, hinternal⟩
  · rw [htiers.topLevel_eq]
    decide +kernel
  · rw [htiers.internal_eq, htiers.nested_eq, htiers.topLevel_eq]
    decide +kernel
  · rintro ⟨-, hwhole⟩
    rw [hcode] at hwhole
    exact absurd hwhole (by decide)

end Outline

import Outline.Proofs.Extraction.Fallback
import Outline.Proofs.Extraction.Text

/-!
# An extraction is closed

A structure names its parent by a copy of the parent's identity and its place in the tree by a
number.  Neither is a reference that the type would keep valid: a copy can go stale when the kind
of the parent is changed after it was taken, and a number means something only together with the
right tree, which is attached by someone else than the one who read it.  `Extraction.IsClosed` says
that nothing dangles, and `isClosed_extractAll` that this holds of every extraction.

For a tree it comes from the walks, which hand on the identity of what they have just found; for a
text from the way a match is turned into a structure, which sees the finished parent.
-/

namespace Outline

/-- Every identity and every node that an extraction speaks of is there. -/
structure Extraction.IsClosed (content : Text) (x : Extraction) : Prop where
  /-- What was read from a tree comes with that tree, and with nodes of it. -/
  node_of_tree : x.strategy = .tree → ∃ t, x.tree = some t ∧ t.source = content ∧
    (∀ s ∈ x.topLevel, ∃ n, s.node = some n ∧ n < t.size) ∧
    ∀ s ∈ x.nested, ∃ n, s.node = some n ∧ n < t.size
  /-- What was read from text has neither. -/
  node_of_text : x.strategy = .text → x.tree = none ∧ (∀ s ∈ x.topLevel, s.node = none) ∧
    ∀ s ∈ x.nested, s.node = none
  parent_of_level_zero : ∀ s ∈ x.nested, s.level = 0 → ∃ p ∈ x.topLevel, s.parent = p.ref
  parent_of_level_succ : ∀ s ∈ x.nested, ∀ k, s.level = k + 1 →
    ∃ p ∈ x.nested, p.level = k ∧ s.parent = p.ref
  parent_of_internal : ∀ s ∈ x.internal, s.parent ∈ x.named ∧ s.parent.kind.isFunctionLike = true

/-! ## From a tree -/

theorem isClosed_of_extractTree {maxDepth : Nat} {content : Text} {language : String}
    {t : SyntaxTree} {found : Extraction}
    (h : extractTree maxDepth content language t = .ok found) :
    Extraction.IsClosed content { found with tree := some t } := by
  obtain ⟨⟨⟨root, hroot⟩, hsource⟩, htiers⟩ := isFromTree_of_extractTree h
  have hmember : ∀ s ∈ found.nested, (∃ n, s.node = some n ∧ n < t.size) ∧
      ((s.level = 0 ∧ ∃ p ∈ found.topLevel, s.parent = p.ref) ∨
        ∃ p ∈ found.nested, s.level = p.level + 1 ∧ s.parent = p.ref) := by
    rw [htiers.nested_eq]
    exact fun s hs => TreeExtraction.mem_nested hs
  refine ⟨fun _ => ⟨t, rfl, hsource, ?_, fun s hs => (hmember s hs).1⟩, fun htext => ?_, ?_, ?_, ?_⟩
  · simp only [htiers.topLevel_eq]
    exact fun s hs => TreeExtraction.exists_node_of_mem_topLevel hroot hs
  · rw [htiers.strategy_eq] at htext
    exact absurd htext (by decide)
  · intro s hs hlevel
    rcases (hmember s hs).2 with ⟨-, hparent⟩ | ⟨p, -, hsucc, -⟩
    · exact hparent
    · omega
  · intro s hs k hlevel
    rcases (hmember s hs).2 with ⟨hzero, -⟩ | ⟨p, hp, hsucc, href⟩
    · omega
    · exact ⟨p, hp, by omega, href⟩
  · intro s hs
    simp only [htiers.internal_eq] at hs
    exact TreeExtraction.mem_internal hs

/-! ## From text -/

namespace TextExtraction

variable {r : Rules} {content : Text} {language : String}

theorem node_eq_none_of_mem_topLevel {s : Structure} (h : s ∈ topLevel r content language) :
    s.node = none := by
  rcases mem_topLevel h with hwhole | ⟨found, -, rfl⟩ | ⟨hit, -, -, rfl⟩
  · rw [wholeText?] at hwhole
    split at hwhole
    · exact absurd hwhole (by simp)
    · rw [← Option.some.inj hwhole]
  · rfl
  · rfl

/-- A match inside a parent announces a direct member of it. -/
theorem member_of_nestedAt? {lines : List Text} {style : BlockStyle} {parent : Structure}
    {hit : Hit} {s : NestedStructure} (h : nestedAt? lines style language parent hit = some s) :
    s.node = none ∧ s.parent = parent.ref ∧ s.level = 0 := by
  rw [eq_of_nestedAt? h]
  exact ⟨rfl, rfl, rfl⟩

end TextExtraction

theorem isClosed_extractText (content : Text) (language : String) :
    (extractText content language).IsClosed content := by
  have hmember : ∀ s ∈ (extractText content language).nested,
      s.node = none ∧ s.level = 0 ∧
        ∃ p ∈ (extractText content language).topLevel, s.parent = p.ref := by
    intro s hs
    obtain ⟨parent, hparent, -, hit, -, hat⟩ := TextExtraction.mem_nested hs
    obtain ⟨hnode, href, hlevel⟩ := TextExtraction.member_of_nestedAt? hat
    exact ⟨hnode, hlevel, parent, hparent, href⟩
  refine ⟨fun htree => absurd htree (by simp [extractText]), fun _ => ⟨rfl, ?_, ?_⟩, ?_, ?_, ?_⟩
  · exact fun s hs => TextExtraction.node_eq_none_of_mem_topLevel hs
  · exact fun s hs => (hmember s hs).1
  · exact fun s hs _ => (hmember s hs).2.2
  · -- text has no deeper levels
    intro s hs k hlevel
    have hzero := (hmember s hs).2.1
    omega
  · intro s hs
    obtain ⟨parent, hparent, hkind, hit, -, -, rfl⟩ := TextExtraction.mem_internal hs
    exact ⟨hparent, hkind⟩

/-- Every extraction is closed. -/
theorem isClosed_extractAll (parser : Option ParserService) (maxDepth : Nat) (content : Text)
    (language : String) : (extractAll parser maxDepth content language).IsClosed content := by
  rcases treeYields_or_treeFails parser maxDepth content language with ⟨t, found, hyields⟩ | hfails
  · rw [hyields.extractAll_eq]
    exact isClosed_of_extractTree hyields.extracted
  · rw [hfails.extractAll_eq]
    exact isClosed_extractText content language

end Outline

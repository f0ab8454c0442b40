import Outline.Chunk.Conversion
import Outline.Proofs.Chunk.Identity
import Outline.Proofs.Except
import Outline.Proofs.Extraction.Distinct
import Outline.Proofs.Text.Lines

/-!
# Where the chunks of an extraction come from

The three tiers become chunks in three slightly different ways: a statement is named on the way, a
nested structure brings its parent along, and only those with a name are scored beforehand.  What
they have in common is what matters later: a chunk keeps kind, text and lines of a structure of
the extraction.  `Piece` is that common part, and `Extraction.pieces` lists those of all tiers.

* `ChunkDraft.IsOf`: a draft with the kind, the text and the lines of a piece, and nothing set that
  would spoil the chunk.
* `exists_isOf_of_mem_draftsOf`: every draft of an extraction is one of some piece.
* `eq_of_chunksOf_eq_ok`: the chunks, when there are any, are those of the filled drafts, without
  repeated identities.  The lines of a piece are in order already, so a strict conversion and one
  that puts lines in order make the same chunks.
* `chunksOf_eq_error`, `exists_chunksOf_eq_ok`: a filled draft can only lack a language.
* `exists_piece_of_mem_chunksOf`, `isSound_of_mem_chunksOf`: what this says about one chunk.
-/

namespace Outline

/-! ## Pieces -/

/-- What a chunk keeps of a structure. -/
structure Piece where
  kind : Kind
  content : String
  location : Location

def Structure.piece (s : Structure) : Piece := ⟨s.kind, s.content, s.location⟩

def InternalStructure.piece (s : InternalStructure) : Piece := ⟨s.kind, s.content, s.location⟩

/-- The pieces of all structures of an extraction, tier by tier. -/
def Extraction.pieces (x : Extraction) : List Piece :=
  x.topLevel.map Structure.piece ++ x.nested.map (fun s => s.toStructure.piece) ++
    x.internal.map InternalStructure.piece

theorem Extraction.mem_pieces {x : Extraction} {p : Piece} :
    p ∈ x.pieces ↔ (∃ s ∈ x.topLevel, s.piece = p) ∨ (∃ s ∈ x.nested, s.toStructure.piece = p) ∨
      ∃ s ∈ x.internal, s.piece = p := by
  simp only [pieces, List.mem_append, List.mem_map, or_assoc]

/-! ## Drafts -/

/-- A draft with the kind, the text and the lines of a piece.  The digest is left open, and a
complexity that is set is that of something. -/
structure ChunkDraft.IsOf (p : Piece) (d : ChunkDraft) : Prop where
  kind_eq : d.kind = p.kind
  content_eq : d.content = p.content
  startLine_eq : d.startLine = p.location.start
  stopLine_eq : d.stopLine = p.location.stop
  hash_eq : d.hash = none
  complexity_pos : ∀ n, d.complexity = some n → 1 ≤ n

theorem one_le_structureScore (tree : Option SyntaxTree) (s : Structure) :
    1 ≤ structureScore tree s :=
  Analysis.one_le_score _

theorem Structure.isOf_draft (language : String) (tree : Option SyntaxTree) (s : Structure) :
    (s.draft language tree).IsOf s.piece where
  kind_eq := rfl
  content_eq := rfl
  startLine_eq := rfl
  stopLine_eq := rfl
  hash_eq := rfl
  complexity_pos _ hn := Option.some.inj hn ▸ one_le_structureScore tree s

theorem NestedStructure.isOf_draft (language : String) (tree : Option SyntaxTree)
    (s : NestedStructure) : (s.draft language tree).IsOf s.toStructure.piece :=
  -- only the further attributes differ from those of a top-level structure
  { s.toStructure.isOf_draft language tree with }

theorem InternalStructure.isOf_draft (language : String) (s : InternalStructure) (name : String) :
    (s.draft language name).IsOf s.piece where
  kind_eq := rfl
  content_eq := rfl
  startLine_eq := rfl
  stopLine_eq := rfl
  hash_eq := rfl
  complexity_pos n hn := absurd hn (Option.some_ne_none n).symm

/-- Naming statements brings no new ones in. -/
theorem mem_of_mem_nameStatements : ∀ {statements : List InternalStructure}
    {before : List (Kind × Nat)} {e : InternalStructure × String},
    e ∈ nameStatements before statements → e.1 ∈ statements
  | [], _, _, h => absurd h List.not_mem_nil
  | s :: rest, before, e, h => by
    rw [nameStatements] at h
    split at h
    · rcases List.mem_cons.mp h with rfl | h
      · exact List.mem_cons_self
      · exact List.mem_cons_of_mem s (mem_of_mem_nameStatements h)
    · rcases List.mem_cons.mp h with rfl | h
      · exact List.mem_cons_self
      · exact List.mem_cons_of_mem s (mem_of_mem_nameStatements h)

theorem exists_isOf_of_mem_draftsOf {includeInternal : Bool} {x : Extraction} {d : ChunkDraft}
    (h : d ∈ draftsOf includeInternal x) : ∃ p ∈ x.pieces, d.IsOf p := by
  rw [draftsOf, List.mem_append, List.mem_append, List.mem_map, List.mem_map] at h
  rcases h with (⟨s, hs, rfl⟩ | ⟨s, hs, rfl⟩) | h
  · exact ⟨s.piece, Extraction.mem_pieces.mpr (Or.inl ⟨s, hs, rfl⟩), s.isOf_draft _ _⟩
  · exact ⟨s.toStructure.piece, Extraction.mem_pieces.mpr (Or.inr (Or.inl ⟨s, hs, rfl⟩)),
      s.isOf_draft _ _⟩
  · split at h
    · obtain ⟨⟨s, name⟩, hs, rfl⟩ := List.mem_map.mp h
      have hmem : s ∈ x.internal := mem_of_mem_nameStatements hs
      exact ⟨s.piece, Extraction.mem_pieces.mpr (Or.inr (Or.inr ⟨s, hmem, rfl⟩)),
        s.isOf_draft _ _⟩
    · exact absurd h List.not_mem_nil

theorem language_of_mem_draftsOf {includeInternal : Bool} {x : Extraction} {d : ChunkDraft}
    (h : d ∈ draftsOf includeInternal x) : d.language = x.language := by
  rw [draftsOf, List.mem_append, List.mem_append, List.mem_map, List.mem_map] at h
  rcases h with (⟨s, -, rfl⟩ | ⟨s, -, rfl⟩) | h
  · rfl
  · rfl
  · split at h
    · obtain ⟨⟨s, name⟩, -, rfl⟩ := List.mem_map.mp h
      rfl
    · exact absurd h List.not_mem_nil

/-! ## Chunks -/

/-- The chunk of a draft in a file. -/
def ChunkDraft.chunkIn (filePath : String) (strategy : Strategy) (d : ChunkDraft) : Chunk :=
  { d with filePath, strategy := some strategy.name }.build d.startLine d.stopLine

/-- A draft that is refused gives no chunk; any other one keeps its lines, which are in order. -/
theorem ChunkDraft.eq_chunkIn_of_create {p : Piece} {d : ChunkDraft} (hd : d.IsOf p) {strict : Bool}
    {filePath : String} {strategy : Strategy} {c : Chunk}
    (h : create strict { d with filePath, strategy := some strategy.name } = .ok c) :
    c = d.chunkIn filePath strategy := by
  cases strict with
  | true =>
    obtain ⟨-, -, h⟩ := bind_eq_ok_iff.mp h
    exact (Except.ok.inj h).symm
  | false =>
    have hlines : Location.clamped d.startLine d.stopLine = p.location := by
      rw [hd.startLine_eq, hd.stopLine_eq]
      exact p.location.clamped_eq_self
    have hbuilt := Except.ok.inj h
    simp only [hlines, ← hd.startLine_eq, ← hd.stopLine_eq] at hbuilt
    exact hbuilt.symm

theorem eq_of_chunksOf_eq_ok {strict includeInternal : Bool} {x : Extraction} {filePath : String}
    {chunks : List Chunk} (h : chunksOf strict includeInternal x filePath = .ok chunks) :
    chunks = distinctBy (·.id) (((draftsOf includeInternal x).filter ChunkDraft.isFilled).map
      (ChunkDraft.chunkIn filePath x.strategy)) := by
  obtain ⟨made, hmade, h⟩ := bind_eq_ok_iff.mp h
  rw [← Except.ok.inj h]
  refine congrArg (distinctBy (·.id)) (eq_map_of_mapM_eq_ok ?_ hmade)
  intro d hd c hc
  obtain ⟨p, -, hp⟩ := exists_isOf_of_mem_draftsOf (List.mem_filter.mp hd).1
  exact ChunkDraft.eq_chunkIn_of_create hp hc

/-! ## Refusal -/

/-- A filled draft has nothing that could be wrong with it but its language. -/
theorem ChunkDraft.IsOf.checkRequired_eq {p : Piece} {d : ChunkDraft} (hd : d.IsOf p)
    (hfilled : d.isFilled = true) :
    checkRequired d.content d.startLine d.stopLine d.language d.kind =
      if isBlank d.language then .error .emptyLanguage else .ok () := by
  rw [isFilled, Bool.and_eq_true, Bool.not_eq_true', bne_iff_ne] at hfilled
  have hstart : ¬ d.startLine < 1 := by
    rw [hd.startLine_eq]
    exact Nat.not_lt.mpr p.location.one_le_start
  have hstop : ¬ d.stopLine < d.startLine := by
    rw [hd.startLine_eq, hd.stopLine_eq]
    exact Nat.not_lt.mpr p.location.start_le_stop
  rw [checkRequired, if_neg (Bool.eq_false_iff.mp hfilled.1), if_neg hstart, if_neg hstop,
    if_neg hfilled.2]

theorem ChunkDraft.IsOf.create_eq_error {p : Piece} {d : ChunkDraft} (hd : d.IsOf p)
    (hfilled : d.isFilled = true) (hlanguage : isBlank d.language = true) (filePath : String)
    (strategy : Strategy) :
    create true { d with filePath, strategy := some strategy.name } = .error .emptyLanguage := by
  have hcheck := hd.checkRequired_eq hfilled
  rw [if_pos hlanguage] at hcheck
  simp only [create, if_pos, hcheck]
  rfl

theorem ChunkDraft.IsOf.exists_create_eq_ok {p : Piece} {d : ChunkDraft} (hd : d.IsOf p)
    (hfilled : d.isFilled = true) {strict : Bool}
    (hlanguage : strict = true → isBlank d.language = false) (filePath : String)
    (strategy : Strategy) :
    ∃ c, create strict { d with filePath, strategy := some strategy.name } = .ok c := by
  cases strict with
  | false => exact ⟨_, rfl⟩
  | true =>
    have hcheck := hd.checkRequired_eq hfilled
    rw [if_neg (Bool.eq_false_iff.mp (hlanguage rfl))] at hcheck
    exact ⟨_, bind_eq_ok_iff.mpr ⟨(), hcheck, rfl⟩⟩

/-- A strict conversion refuses a filled draft without a language. -/
theorem chunksOf_eq_error {includeInternal : Bool} {x : Extraction}
    (hlanguage : isBlank x.language = true) {d : ChunkDraft} (hd : d ∈ draftsOf includeInternal x)
    (hfilled : d.isFilled = true) (filePath : String) :
    chunksOf true includeInternal x filePath = .error .emptyLanguage := by
  have hmem : d ∈ (draftsOf includeInternal x).filter ChunkDraft.isFilled :=
    List.mem_filter.mpr ⟨hd, hfilled⟩
  have hmade : ((draftsOf includeInternal x).filter ChunkDraft.isFilled).mapM (fun d =>
      ChunkDraft.create true { d with filePath, strategy := some x.strategy.name }) =
        .error .emptyLanguage := by
    cases hdrafts : (draftsOf includeInternal x).filter ChunkDraft.isFilled with
    | nil =>
      rw [hdrafts] at hmem
      exact absurd hmem List.not_mem_nil
    | cons first rest =>
      -- all drafts have the same language, so the first filled one is refused already
      obtain ⟨hfirst, hfirstFilled⟩ := List.mem_filter.mp (hdrafts ▸ List.mem_cons_self)
      obtain ⟨p, -, hp⟩ := exists_isOf_of_mem_draftsOf hfirst
      rw [← language_of_mem_draftsOf hfirst] at hlanguage
      refine mapM_cons_eq_error ?_ rest
      exact hp.create_eq_error hfirstFilled hlanguage filePath x.strategy
  rw [chunksOf]
  simp only [hmade]
  rfl

/-- Nothing else is ever refused. -/
theorem exists_chunksOf_eq_ok {strict includeInternal : Bool} {x : Extraction}
    (h : strict = true → ∀ d ∈ draftsOf includeInternal x, isBlank d.language = false)
    (filePath : String) : ∃ chunks, chunksOf strict includeInternal x filePath = .ok chunks := by
  have hcreated : ∀ d ∈ (draftsOf includeInternal x).filter ChunkDraft.isFilled,
      ∃ c, ChunkDraft.create strict { d with filePath, strategy := some x.strategy.name } =
        .ok c := by
    intro d hd
    obtain ⟨hmem, hfilled⟩ := List.mem_filter.mp hd
    obtain ⟨p, -, hp⟩ := exists_isOf_of_mem_draftsOf hmem
    exact hp.exists_create_eq_ok hfilled (fun hstrict => h hstrict d hmem) filePath x.strategy
  obtain ⟨chunks, hchunks⟩ := exists_mapM_eq_ok hcreated
  exact ⟨_, bind_eq_ok_iff.mpr ⟨chunks, hchunks, rfl⟩⟩

/-! ## Single chunks -/

/-- Every chunk of an extraction keeps the kind, the text and the lines of a piece of it. -/
theorem exists_piece_of_mem_chunksOf {strict includeInternal : Bool} {x : Extraction}
    {filePath : String} {chunks : List Chunk}
    (h : chunksOf strict includeInternal x filePath = .ok chunks) {c : Chunk} (hc : c ∈ chunks) :
    ∃ p ∈ x.pieces, ∃ d : ChunkDraft, d.IsOf p ∧ c = d.chunkIn filePath x.strategy := by
  rw [eq_of_chunksOf_eq_ok h] at hc
  obtain ⟨d, hd, rfl⟩ := List.mem_map.mp (mem_of_mem_distinctBy hc)
  obtain ⟨p, hp, hof⟩ := exists_isOf_of_mem_draftsOf (List.mem_filter.mp hd).1
  exact ⟨p, hp, d, hof, rfl⟩

theorem ChunkDraft.IsOf.isSound_chunkIn {p : Piece} {d : ChunkDraft} (h : d.IsOf p)
    (filePath : String) (strategy : Strategy) :
    (d.chunkIn filePath strategy).IsSound filePath := by
  have hstart : 1 ≤ d.startLine := h.startLine_eq ▸ p.location.one_le_start
  have hstop : d.startLine ≤ d.stopLine := by
    rw [h.startLine_eq, h.stopLine_eq]
    exact p.location.start_le_stop
  let placed : ChunkDraft := { d with filePath, strategy := some strategy.name }
  have hhash : placed.hash = none := h.hash_eq
  have hcomplexity : ∀ n, placed.complexity = some n → 1 ≤ n := h.complexity_pos
  exact isSound_build hhash hcomplexity hstart hstop

theorem isSound_of_mem_chunksOf {strict includeInternal : Bool} {x : Extraction}
    {filePath : String} {chunks : List Chunk}
    (h : chunksOf strict includeInternal x filePath = .ok chunks) :
    ∀ c ∈ chunks, c.IsSound filePath := by
  intro c hc
  obtain ⟨p, -, d, hof, rfl⟩ := exists_piece_of_mem_chunksOf h hc
  exact hof.isSound_chunkIn filePath x.strategy

/-- No two chunks of an extraction have the same identity. -/
theorem nodup_map_id_chunksOf {strict includeInternal : Bool} {x : Extraction}
    {filePath : String} {chunks : List Chunk}
    (h : chunksOf strict includeInternal x filePath = .ok chunks) : (chunks.map (·.id)).Nodup := by
  rw [eq_of_chunksOf_eq_ok h]
  exact nodup_map_distinctBy _

end Outline

import Outline.File.Analysis
import Outline.Proofs.Chunk.Conversion
import Outline.Proofs.Chunk.Merge
import Outline.Proofs.Extraction.LineSpan

/-!
# The chunks of a file

An index keeps chunks under their identities, so two chunks of a file under one identity would
overwrite each other, and a chunk under an identity that is not its own could never be found
again.  Here both are excluded for every text, every parser and all settings.

The chunks go through two stages.  Conversion drops repeated identities, so they are different
whatever the digest does.  Merging makes new identities, and what keeps those apart is that merged
chunks begin on different lines; the digest has to tell the texts apart that it is given, which is
`Digest.Md5.CollisionFree`.  Leaving out chunks of little confidence at the end changes nothing.

A chunk that is not merged also stands for the lines it names: conversion keeps text and lines of
a structure, and those of a structure that was found in text belong together.

* `exists_chunks_of_analyseContent`: the two stages of an analysis.
* `isSound_and_nodup_of_analyseContent`: every chunk is sound and the identities are different.
* `isSpan_of_text`: without a parser and without merging, every structure and every chunk is a run
  of lines of the text.
-/

namespace Outline

variable {parser : Option ParserService} {s : Settings} {content : Text}
  {language filePath : String} {reader : Text → List Markdown.Heading} {a : FileAnalysis}

/-- The chunks of an analysis are selected from those of the extraction. -/
theorem exists_chunks_of_analyseContent
    (h : analyseContent parser s content language filePath reader = .ok a) :
    ∃ chunks, chunksOf s.validateRequired s.includeInternal
        (extractAll parser s.usableDepth content language reader) filePath = .ok chunks ∧
      a.chunks = s.select chunks := by
  obtain ⟨chunks, hchunks, h⟩ := bind_eq_ok_iff.mp h
  exact ⟨chunks, hchunks, congrArg FileAnalysis.chunks (Except.ok.inj h).symm⟩

/-! ## Identities -/

theorem isSound_of_mem_select {chunks : List Chunk} (h : ∀ c ∈ chunks, c.IsSound filePath) :
    ∀ c ∈ s.select chunks, c.IsSound filePath := by
  intro c hc
  have hmerged := (List.mem_filter.mp hc).1
  split at hmerged
  · exact h c hmerged
  · exact isSound_of_mem_mergeAdjacent h c hmerged

/-- Sound chunks with different identities have different keys. -/
theorem nodup_map_key_of_nodup_map_id {chunks : List Chunk}
    (h : ∀ c ∈ chunks, c.IsSound filePath) (hid : (chunks.map (·.id)).Nodup) :
    (chunks.map Chunk.key).Nodup := by
  have hdigests : chunks.map (·.id) = (chunks.map Chunk.key).map Digest.Md5.hexOf := by
    rw [List.map_map]
    exact List.map_congr_left fun c hc => (h c hc).id_eq_hexOf_key
  rw [hdigests] at hid
  refine List.Pairwise.of_map Digest.Md5.hexOf ?_ hid
  intro x y hne heq
  exact hne (congrArg Digest.Md5.hexOf heq)

theorem nodup_map_key_select {chunks : List Chunk} (h : ∀ c ∈ chunks, c.IsSound filePath)
    (hid : (chunks.map (·.id)).Nodup) : ((s.select chunks).map Chunk.key).Nodup := by
  refine List.Nodup.sublist ((List.filter_sublist).map _) ?_
  split
  · exact nodup_map_key_of_nodup_map_id h hid
  · exact nodup_map_key_mergeAdjacent h

/-- Sound chunks with different keys have different identities where the digest tells the keys
apart. -/
theorem nodup_map_id_of_nodup_map_key {chunks : List Chunk}
    (h : ∀ c ∈ chunks, c.IsSound filePath) (hkey : (chunks.map Chunk.key).Nodup)
    (hfree : Digest.Md5.CollisionFree (chunks.map Chunk.key)) : (chunks.map (·.id)).Nodup := by
  refine List.pairwise_map.mpr ((List.pairwise_map.mp hkey).imp_of_mem ?_)
  intro c d hc hd hne hid
  rw [(h c hc).id_eq_hexOf_key, (h d hd).id_eq_hexOf_key] at hid
  exact hne (hfree c.key (List.mem_map_of_mem hc) d.key (List.mem_map_of_mem hd) hid)

/-- Every chunk of a file is sound, and no two of them have the same key, nor the same identity
where the digest tells the keys apart. -/
theorem isSound_and_nodup_of_analyseContent
    (h : analyseContent parser s content language filePath = .ok a) :
    (∀ c ∈ a.chunks, c.IsSound filePath) ∧ (a.chunks.map Chunk.key).Nodup ∧
      (Digest.Md5.CollisionFree (a.chunks.map Chunk.key) → (a.chunks.map (·.id)).Nodup) := by
  obtain ⟨chunks, hchunks, ha⟩ := exists_chunks_of_analyseContent h
  have hconverted := isSound_of_mem_chunksOf hchunks
  have hsound : ∀ c ∈ a.chunks, c.IsSound filePath := by
    rw [ha]
    exact isSound_of_mem_select hconverted
  have hkey : (a.chunks.map Chunk.key).Nodup := by
    rw [ha]
    exact nodup_map_key_select hconverted (nodup_map_id_chunksOf hchunks)
  exact ⟨hsound, hkey, nodup_map_id_of_nodup_map_key hsound hkey⟩

/-- A class and its method: two chunks whose keys have different digests. -/
theorem isSound_and_nodup_of_class :
    ∃ a, analyseContent none {} "class A:\n    def f(self): pass\n".toList "python" "a.py" = .ok a ∧
      a.chunks.length = 2 ∧ (∀ c ∈ a.chunks, c.IsSound "a.py") ∧ (a.chunks.map (·.id)).Nodup := by
  obtain ⟨a, ha, hcomputed⟩ : ∃ a, analyseContent none {}
      "class A:\n    def f(self): pass\n".toList "python" "a.py" = .ok a ∧
      decide (a.chunks.length = 2 ∧ Digest.Md5.CollisionFree (a.chunks.map Chunk.key)) = true :=
    exists_ok_of_any (by decide +kernel)
  obtain ⟨hlength, hfree⟩ := of_decide_eq_true hcomputed
  obtain ⟨hsound, -, hnodup⟩ := isSound_and_nodup_of_analyseContent ha
  exact ⟨a, ha, hlength, hsound, hnodup hfree⟩

/-! ## Lines -/

theorem isSpan_of_mem_pieces (hreader : Markdown.FindsFilledLines reader content) {p : Piece}
    (h : p ∈ (extractText content language reader).pieces) :
    IsSpan content p.kind p.content p.location.start p.location.stop := by
  rcases Extraction.mem_pieces.mp h with ⟨s, hs, rfl⟩ | ⟨s, hs, rfl⟩ | ⟨s, hs, rfl⟩
  · exact isSpan_of_mem_topLevel hreader hs
  · exact (TextExtraction.isCut_of_mem_nested hreader hs).isSpan _
  · exact (TextExtraction.isCut_of_mem_internal hreader hs).isSpan _

/-- Without a parser and without merging, a chunk stands for the lines it names. -/
theorem isSpan_of_mem_chunks (hreader : Markdown.FindsFilledLines reader content)
    (hmerge : s.mergeMaxGap = none)
    (h : analyseContent none s content language filePath reader = .ok a) :
    ∀ c ∈ a.chunks, IsSpan content c.kind c.content c.startLine c.stopLine := by
  obtain ⟨chunks, hchunks, ha⟩ := exists_chunks_of_analyseContent h
  intro c hc
  rw [ha, Settings.select, hmerge] at hc
  obtain ⟨p, hp, d, hd, rfl⟩ := exists_piece_of_mem_chunksOf hchunks (List.mem_filter.mp hc).1
  have hspan : IsSpan content p.kind p.content p.location.start p.location.stop :=
    isSpan_of_mem_pieces hreader hp
  rw [← hd.kind_eq, ← hd.content_eq, ← hd.startLine_eq, ← hd.stopLine_eq] at hspan
  exact hspan

/-- Every structure that is found in text is a run of lines of it, and so is every chunk of an
analysis without a parser and without merging.  In Markdown this asks of the headings only that they
are found on lines that are there and not empty, whatever finds them. -/
theorem isSpan_of_text (content : Text) (language : String) :
    (∀ s ∈ (extractText content language).topLevel,
      IsSpan content s.kind s.content s.location.start s.location.stop) ∧
    (∀ s ∈ (extractText content language).nested,
      IsSpan content s.kind s.content s.location.start s.location.stop) ∧
    (∀ s ∈ (extractText content language).internal,
      IsSpan content s.kind s.content s.location.start s.location.stop) ∧
    (∀ (s : Settings) (filePath : String) (a : FileAnalysis), s.mergeMaxGap = none →
      analyseContent none s content language filePath = .ok a →
        ∀ c ∈ a.chunks, IsSpan content c.kind c.content c.startLine c.stopLine) ∧
    ∀ reader, Markdown.FindsFilledLines reader content →
      (∀ p ∈ (extractText content language reader).pieces,
        IsSpan content p.kind p.content p.location.start p.location.stop) ∧
      ∀ (s : Settings) (filePath : String) (a : FileAnalysis), s.mergeMaxGap = none →
        analyseContent none s content language filePath reader = .ok a →
          ∀ c ∈ a.chunks, IsSpan content c.kind c.content c.startLine c.stopLine := by
  have hheadings : Markdown.FindsFilledLines Markdown.headings content :=
    Markdown.findsFilledLines_headings content
  refine ⟨fun s hs => isSpan_of_mem_topLevel hheadings hs, fun s hs => ?_, fun s hs => ?_, ?_, ?_⟩
  · exact (TextExtraction.isCut_of_mem_nested hheadings hs).isSpan _
  · exact (TextExtraction.isCut_of_mem_internal hheadings hs).isSpan _
  · intro s filePath a hmerge h
    exact isSpan_of_mem_chunks hheadings hmerge h
  · intro reader hreader
    refine ⟨fun p hp => isSpan_of_mem_pieces hreader hp, fun s filePath a hmerge h => ?_⟩
    exact isSpan_of_mem_chunks hreader hmerge h

/-- A function after a blank line: lines two and three of three; and so is the section of a note. -/
theorem isSpan_of_function :
    (∃ a, analyseContent none {} "\ndef f():\n    pass\n".toList "python" "a.py" = .ok a ∧
      a.chunks.map (fun c => (c.startLine, c.stopLine)) = [(2, 3)] ∧
      ∀ c ∈ a.chunks, IsSpan "\ndef f():\n    pass\n".toList c.kind c.content c.startLine
        c.stopLine) ∧
    (extractText Markdown.noteText "markdown" Markdown.noteHeadings).pieces.map (fun p =>
        (p.location.start, p.location.stop)) = [(2, 3)] ∧
      ∀ p ∈ (extractText Markdown.noteText "markdown" Markdown.noteHeadings).pieces,
        IsSpan Markdown.noteText p.kind p.content p.location.start p.location.stop := by
  obtain ⟨a, ha, hcomputed⟩ : ∃ a, analyseContent none {}
      "\ndef f():\n    pass\n".toList "python" "a.py" = .ok a ∧
      decide (a.chunks.map (fun c => (c.startLine, c.stopLine)) = [(2, 3)]) = true :=
    exists_ok_of_any (by decide +kernel)
  obtain ⟨-, -, -, hchunks, -⟩ := isSpan_of_text "\ndef f():\n    pass\n".toList "python"
  obtain ⟨-, -, -, -, hreader⟩ := isSpan_of_text Markdown.noteText "markdown"
  exact ⟨⟨a, ha, of_decide_eq_true hcomputed, hchunks {} "a.py" a rfl ha⟩, by decide +kernel,
    (hreader _ Markdown.findsFilledLines_noteHeadings).1⟩

end Outline

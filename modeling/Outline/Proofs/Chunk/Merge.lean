import Outline.Proofs.Chunk.Identity

/-!
# Merging chunks of one file

`mergeFrom` holds one chunk at a time and either lets it absorb the next one or gives it out and
holds the next one instead.  So what is given out at the end has every property that two chunks pass
on to the one that absorbs the other (`forall_mem_mergeAdjacent`), soundness among them.

Identities need another argument than before merging.  The chunks that come in have different
identities because repeated ones were dropped; those that come out have new identities, about
which nothing is known from before.  But a chunk is given out only when the next one begins behind
its end, and the end of a chunk never lies before its first line.  So the chunks that come out
begin on different lines (`pairwise_lt_mergeAdjacent`), and the first line is part of what is
digested (`nodup_map_key_mergeAdjacent`).

The order of the chunks that come in plays no part in this.

Lines are counts, so the sum of an end and a gap stops at the largest one.  `Chunk.Reaches` compares
a line with such a sum.  All that is needed of it is that it reaches as far as the plain sum does,
and further from a later end (`Chunk.reaches_of_le`, `Chunk.Reaches.mono`).
-/

namespace Outline

variable {filePath : String} {gap : Nat}

/-! ## Soundness -/

/-- What two chunks pass on to the one that absorbs the other passes on to the chunks that are given
out. -/
theorem forall_mem_mergeFrom {P : Chunk → Prop}
    (habsorb : ∀ into next, P into → P next → P (into.absorb next)) :
    ∀ {rest : List Chunk} {last : Chunk}, P last → (∀ c ∈ rest, P c) →
      ∀ c ∈ mergeFrom gap last rest, P c
  | [], last, hlast, _, c, hc => by
    rw [mergeFrom, List.mem_singleton] at hc
    exact hc ▸ hlast
  | next :: rest, last, hlast, hrest, c, hc => by
    obtain ⟨hnext, hrest⟩ := List.forall_mem_cons.mp hrest
    rw [mergeFrom] at hc
    split at hc
    · exact forall_mem_mergeFrom habsorb (habsorb last next hlast hnext) hrest c hc
    · rcases List.mem_cons.mp hc with rfl | hc
      · exact hlast
      · exact forall_mem_mergeFrom habsorb hnext hrest c hc

/-- Chunks with a property are merged by holding one of them and going through the others. -/
theorem mergeAdjacent_cases {P : Chunk → Prop} {chunks : List Chunk} (h : ∀ c ∈ chunks, P c) :
    mergeAdjacent gap chunks = [] ∨ ∃ first rest, P first ∧ (∀ c ∈ rest, P c) ∧
      mergeAdjacent gap chunks = mergeFrom gap first rest := by
  have hsorted : ∀ c ∈ sortChunks chunks, P c := fun c hc => h c (List.mem_mergeSort.mp hc)
  rw [mergeAdjacent]
  cases hsort : sortChunks chunks with
  | nil => exact Or.inl rfl
  | cons first rest =>
    rw [hsort] at hsorted
    obtain ⟨hfirst, hrest⟩ := List.forall_mem_cons.mp hsorted
    exact Or.inr ⟨first, rest, hfirst, hrest, rfl⟩

/-- What two chunks pass on to the one that absorbs the other passes on to merged chunks. -/
theorem forall_mem_mergeAdjacent {P : Chunk → Prop}
    (habsorb : ∀ into next, P into → P next → P (into.absorb next)) {chunks : List Chunk}
    (h : ∀ c ∈ chunks, P c) : ∀ c ∈ mergeAdjacent gap chunks, P c := by
  rcases mergeAdjacent_cases h with hnil | ⟨first, rest, hfirst, hrest, heq⟩
  · rw [hnil]
    exact fun c hc => absurd hc List.not_mem_nil
  · rw [heq]
    exact forall_mem_mergeFrom habsorb hfirst hrest

/-- Merging sound chunks gives sound chunks. -/
theorem isSound_of_mem_mergeAdjacent {chunks : List Chunk}
    (h : ∀ c ∈ chunks, c.IsSound filePath) :
    ∀ c ∈ mergeAdjacent gap chunks, c.IsSound filePath :=
  forall_mem_mergeAdjacent (fun _ next hinto _ => Chunk.isSound_absorb next hinto) h

/-! ## First lines -/

namespace Chunk

/-- A chunk lies in a file, with its lines in order. -/
structure LiesIn (filePath : String) (c : Chunk) : Prop where
  filePath_eq : c.filePath = filePath
  startLine_le_stopLine : c.startLine ≤ c.stopLine

theorem IsSound.liesIn {c : Chunk} (h : c.IsSound filePath) : c.LiesIn filePath :=
  ⟨h.filePath_eq, h.startLine_le_stopLine⟩

theorem LiesIn.absorb {into : Chunk} (h : into.LiesIn filePath) (next : Chunk) :
    (into.absorb next).LiesIn filePath :=
  ⟨h.filePath_eq, Nat.le_trans h.startLine_le_stopLine (Nat.le_max_left _ _)⟩

/-- A line lies at most `gap` lines behind the end of a chunk, as far as lines are counted. -/
def Reaches (gap : Nat) (c : Chunk) (line : Nat) : Prop :=
  asCount line ≤ asCount (c.stopLine + gap)

section

variable {c d : Chunk} {line line' : Nat}

theorem reaches_of_le (h : line ≤ c.stopLine + gap) : c.Reaches gap line := asCount_mono h

theorem Reaches.of_le (h : c.Reaches gap line) (hle : line' ≤ line) : c.Reaches gap line' :=
  Nat.le_trans (asCount_mono hle) h

/-- What ends further down reaches further. -/
theorem Reaches.mono (h : c.Reaches gap line) (hle : c.stopLine ≤ d.stopLine) :
    d.Reaches gap line :=
  Nat.le_trans h (asCount_mono (Nat.add_le_add_right hle gap))

theorem lt_of_not_reaches (h : ¬ c.Reaches gap line) : c.stopLine + gap < line :=
  Nat.lt_of_not_le fun hle => h (reaches_of_le hle)

/-- A line that is a count is reached when the sum itself is no smaller. -/
theorem reaches_iff_of_lt (h : line < countLimit) :
    c.Reaches gap line ↔ line ≤ c.stopLine + gap := by
  rw [Reaches, asCount_of_lt h, asCount]
  omega

end

theorem isNear_iff {last next : Chunk} : last.isNear gap next = true ↔
    last.filePath = next.filePath ∧ last.Reaches gap next.startLine := by
  rw [isNear, Bool.and_eq_true, beq_iff_eq, decide_eq_true_eq, Reaches]

/-- A chunk that is not near another one of its file begins behind the gap. -/
theorem lt_of_not_isNear {last next : Chunk} (hlast : last.LiesIn filePath)
    (hnext : next.LiesIn filePath) (h : ¬ last.isNear gap next = true) :
    last.stopLine + gap < next.startLine := by
  have hpath : last.filePath = next.filePath := hlast.filePath_eq.trans hnext.filePath_eq.symm
  exact lt_of_not_reaches fun hreach => h (isNear_iff.mpr ⟨hpath, hreach⟩)

end Chunk

/-- Nothing is given out that begins before the chunk that is held. -/
theorem startLine_le_of_mem_mergeFrom : ∀ {rest : List Chunk} {last : Chunk},
    last.LiesIn filePath → (∀ c ∈ rest, c.LiesIn filePath) →
      ∀ c ∈ mergeFrom gap last rest, last.startLine ≤ c.startLine
  | [], last, _, _, c, hc => by
    rw [mergeFrom, List.mem_singleton] at hc
    exact hc ▸ Nat.le_refl _
  | next :: rest, last, hlast, hrest, c, hc => by
    obtain ⟨hnext, hrest⟩ := List.forall_mem_cons.mp hrest
    rw [mergeFrom] at hc
    split at hc
    · -- absorbing leaves the first line as it is
      exact startLine_le_of_mem_mergeFrom (hlast.absorb next) hrest c hc
    · rename_i hfar
      rcases List.mem_cons.mp hc with rfl | hc
      · exact Nat.le_refl _
      · have hgap := Chunk.lt_of_not_isNear hlast hnext hfar
        have hle := startLine_le_of_mem_mergeFrom hnext hrest c hc
        have horder := hlast.startLine_le_stopLine
        omega

theorem pairwise_lt_mergeFrom : ∀ {rest : List Chunk} {last : Chunk},
    last.LiesIn filePath → (∀ c ∈ rest, c.LiesIn filePath) →
      (mergeFrom gap last rest).Pairwise fun a b => a.stopLine + gap < b.startLine
  | [], last, _, _ => List.pairwise_singleton _ last
  | next :: rest, last, hlast, hrest => by
    obtain ⟨hnext, hrest⟩ := List.forall_mem_cons.mp hrest
    rw [mergeFrom]
    split
    · exact pairwise_lt_mergeFrom (hlast.absorb next) hrest
    · rename_i hfar
      refine List.pairwise_cons.mpr ⟨?_, pairwise_lt_mergeFrom hnext hrest⟩
      intro c hc
      exact Nat.lt_of_lt_of_le (Chunk.lt_of_not_isNear hlast hnext hfar)
        (startLine_le_of_mem_mergeFrom hnext hrest c hc)

/-- Merged chunks of one file lie more than the gap apart, in the order of their lines. -/
theorem pairwise_lt_mergeAdjacent {chunks : List Chunk} (h : ∀ c ∈ chunks, c.LiesIn filePath) :
    (mergeAdjacent gap chunks).Pairwise fun a b => a.stopLine + gap < b.startLine := by
  rcases mergeAdjacent_cases h with hnil | ⟨first, rest, hfirst, hrest, heq⟩
  · rw [hnil]
    exact List.Pairwise.nil
  · rw [heq]
    exact pairwise_lt_mergeFrom hfirst hrest

/-- No two merged chunks of one file have the same key. -/
theorem nodup_map_key_mergeAdjacent {chunks : List Chunk}
    (h : ∀ c ∈ chunks, c.IsSound filePath) :
    ((mergeAdjacent gap chunks).map Chunk.key).Nodup := by
  have hsound : ∀ c ∈ mergeAdjacent gap chunks, c.IsSound filePath :=
    isSound_of_mem_mergeAdjacent h
  have hgap : (mergeAdjacent gap chunks).Pairwise fun a b => a.stopLine + gap < b.startLine :=
    pairwise_lt_mergeAdjacent fun c hc => (h c hc).liesIn
  refine List.pairwise_map.mpr (hgap.imp_of_mem ?_)
  intro a b ha hb hlt hkey
  rw [Chunk.key, Chunk.key, (hsound a ha).filePath_eq, (hsound b hb).filePath_eq] at hkey
  have hline : a.startLine = b.startLine := chunkKey_startLine_inj hkey
  have horder := (hsound a ha).startLine_le_stopLine
  omega

end Outline

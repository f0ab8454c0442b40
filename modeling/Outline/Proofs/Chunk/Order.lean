import Mathlib.Data.List.Chain
import Mathlib.Data.Prod.Lex
import Mathlib.Data.String.Basic
import Outline.Proofs.Chunk.Merge
import Outline.Proofs.Sort

/-!
# The order of merged chunks

Chunks are sorted by file, first line, last line and identity (`Chunk.place`).  Merging changes the
last two, so it is not clear that merged chunks are still in order.  They are
(`sortChunks_mergeAdjacent`), and it is enough to see it for neighbours.

Neighbours in different files, or on different first lines, are in order because absorbing touches
neither file nor first line.  Let two of them begin on one line of a file.  The earlier one
has absorbed nothing: with what it absorbed, everything that begins on its first line would have
been near to it, the later one included.  So it stands where it stood when the chunks were sorted.
And if the later one has absorbed something, its own first line is within reach of its end while it
is out of reach of the earlier one: it ends further down.  Chunks whose last line lies before the
first one are no exception.

* `Chunk.IsHeldBefore`: what is kept up between the chunk that is held and those still to come.
* `isChain_place_mergeFrom`: neighbours among the chunks that are given out.
-/

namespace Outline

variable {gap : Nat}

/-! ## Sorted chunks -/

/-- Where a chunk stands in the order of chunks. -/
def Chunk.place (c : Chunk) : String ×ₗ Nat ×ₗ Nat ×ₗ String :=
  toLex (c.filePath, toLex (c.startLine, toLex (c.stopLine, c.id)))

theorem Chunk.le_iff (a b : Chunk) : a.le b = true ↔ a.place ≤ b.place := by
  simp only [le, place, Prod.Lex.toLex_le_toLex]
  by_cases hfile : a.filePath = b.filePath
  · by_cases hstart : a.startLine = b.startLine
    · by_cases hstop : a.stopLine = b.stopLine
      · simp [hfile, hstart, hstop]
      · simp [hfile, hstart, hstop, Nat.lt_iff_le_and_ne]
    · simp [hfile, hstart, Nat.lt_iff_le_and_ne]
  · simp [hfile, lt_iff_le_and_ne]

theorem pairwise_place_sortChunks (chunks : List Chunk) :
    (sortChunks chunks).Pairwise fun a b => a.place ≤ b.place :=
  pairwise_key_mergeSort Chunk.le_iff chunks

namespace Chunk

/-- A chunk lies in an earlier file, or begins no later than another one in the same file. -/
def Precedes (a b : Chunk) : Prop :=
  a.filePath < b.filePath ∨ a.filePath = b.filePath ∧ a.startLine ≤ b.startLine

variable {a b : Chunk}

theorem precedes_of_place_le (h : a.place ≤ b.place) : a.Precedes b := by
  rcases Prod.Lex.toLex_le_toLex.mp h with hlt | ⟨hfile, hle⟩
  · exact Or.inl hlt
  · rcases Prod.Lex.toLex_le_toLex.mp hle with hlt | ⟨heq, -⟩
    · exact Or.inr ⟨hfile, le_of_lt hlt⟩
    · exact Or.inr ⟨hfile, le_of_eq heq⟩

theorem Precedes.filePath_le (h : a.Precedes b) : a.filePath ≤ b.filePath := by
  rcases h with hlt | ⟨heq, -⟩
  · exact le_of_lt hlt
  · exact le_of_eq heq

theorem Precedes.startLine_le (h : a.Precedes b) (hfile : a.filePath = b.filePath) :
    a.startLine ≤ b.startLine := by
  rcases h with hlt | ⟨-, hle⟩
  · exact absurd hfile (ne_of_lt hlt)
  · exact hle

end Chunk

theorem pairwise_precedes_sortChunks (chunks : List Chunk) :
    (sortChunks chunks).Pairwise Chunk.Precedes :=
  (pairwise_place_sortChunks chunks).imp Chunk.precedes_of_place_le

/-! ## Merged chunks -/

namespace Chunk

variable {a b c d : Chunk}

/-- Nearness asks for the file and the first line of the later chunk only. -/
theorem isNear_congr {last c d : Chunk} (hfile : c.filePath = d.filePath)
    (hstart : c.startLine = d.startLine) : last.isNear gap c = last.isNear gap d := by
  rw [isNear, isNear, hfile, hstart]

/-- A chunk that is held stands before another one, or it has absorbed a chunk that began no
earlier, and then whatever begins on its first line is near to it. -/
def IsHeldBefore (gap : Nat) (held next : Chunk) : Prop :=
  held.place ≤ next.place ∨ held.Precedes next ∧ held.Reaches gap held.startLine

theorem IsHeldBefore.precedes (h : a.IsHeldBefore gap b) : a.Precedes b := by
  rcases h with hplace | ⟨hprecedes, -⟩
  · exact precedes_of_place_le hplace
  · exact hprecedes

theorem place_le_of_startLine_lt (hfile : a.filePath = b.filePath)
    (hstart : a.startLine < b.startLine) : a.place ≤ b.place :=
  Prod.Lex.toLex_le_toLex.mpr (Or.inr ⟨hfile, Prod.Lex.toLex_le_toLex.mpr (Or.inl hstart)⟩)

theorem IsHeldBefore.place_le (h : a.IsHeldBefore gap b) (hfar : ¬ a.isNear gap b = true) :
    a.place ≤ b.place := by
  rcases h with hplace | ⟨hlt | ⟨hfile, -⟩, hreach⟩
  · exact hplace
  · exact Prod.Lex.toLex_le_toLex.mpr (Or.inl hlt)
  · refine place_le_of_startLine_lt hfile (Nat.lt_of_not_le fun hle => ?_)
    exact hfar (isNear_iff.mpr ⟨hfile, hreach.of_le hle⟩)

theorem reaches_startLine_of_isNear (hab : a.Precedes b) (hnear : a.isNear gap b = true) :
    a.Reaches gap a.startLine := by
  obtain ⟨hfile, hreach⟩ := isNear_iff.mp hnear
  exact hreach.of_le (hab.startLine_le hfile)

theorem IsHeldBefore.absorb (hac : a.IsHeldBefore gap c) (hab : a.Precedes b)
    (hnear : a.isNear gap b = true) : (a.absorb b).IsHeldBefore gap c := by
  have hreach : a.Reaches gap a.startLine := reaches_startLine_of_isNear hab hnear
  exact Or.inr ⟨hac.precedes, hreach.mono (Nat.le_max_left _ _)⟩

/-- What stands before a chunk and is not near to it stands before it when it has absorbed
another one. -/
theorem place_le_absorb (hda : d.place ≤ a.place) (hfar : ¬ d.isNear gap a = true)
    (hab : a.Precedes b) (hnear : a.isNear gap b = true) : d.place ≤ (a.absorb b).place := by
  rcases precedes_of_place_le hda with hlt | ⟨hfile, hstart⟩
  · exact Prod.Lex.toLex_le_toLex.mpr (Or.inl hlt)
  · have hreach : a.Reaches gap a.startLine := reaches_startLine_of_isNear hab hnear
    have hlt : d.stopLine < a.stopLine :=
      Nat.lt_of_not_le fun hle => hfar (isNear_iff.mpr ⟨hfile, hreach.mono hle⟩)
    refine Prod.Lex.toLex_le_toLex.mpr (Or.inr ⟨hfile, Prod.Lex.toLex_le_toLex.mpr ?_⟩)
    rcases Nat.lt_or_eq_of_le hstart with hlt | heq
    · exact Or.inl hlt
    · -- on the same line the chunk ends further down, and the more so with what it absorbed
      have hstop : d.stopLine < max a.stopLine b.stopLine :=
        Nat.lt_of_lt_of_le hlt (Nat.le_max_left _ _)
      exact Or.inr ⟨heq, Prod.Lex.toLex_le_toLex.mpr (Or.inl hstop)⟩

end Chunk

/-- The first chunk that is given out stands behind what stands before the one that is held and is
not near to it. -/
theorem place_le_of_mem_head?_mergeFrom {d : Chunk} : ∀ {rest : List Chunk} {last : Chunk},
    d.place ≤ last.place → ¬ d.isNear gap last = true → (∀ c ∈ rest, last.Precedes c) →
      ∀ c ∈ (mergeFrom gap last rest).head?, d.place ≤ c.place
  | [], last, hplace, _, _, c, hc => by
    rw [mergeFrom, List.head?_cons, Option.mem_some_iff] at hc
    exact hc ▸ hplace
  | next :: rest, last, hplace, hfar, hrest, c, hc => by
    obtain ⟨hnext, hrest⟩ := List.forall_mem_cons.mp hrest
    rw [mergeFrom] at hc
    split at hc
    · rename_i hnear
      exact place_le_of_mem_head?_mergeFrom (Chunk.place_le_absorb hplace hfar hnext hnear)
        (Chunk.isNear_congr rfl rfl ▸ hfar) hrest c hc
    · rw [List.head?_cons, Option.mem_some_iff] at hc
      exact hc ▸ hplace

theorem isChain_place_mergeFrom : ∀ {rest : List Chunk} {last : Chunk},
    (∀ c ∈ rest, last.IsHeldBefore gap c) → (rest.Pairwise fun a b => a.place ≤ b.place) →
      (mergeFrom gap last rest).IsChain fun a b => a.place ≤ b.place
  | [], last, _, _ => List.isChain_singleton last
  | next :: rest, last, hheld, hsorted => by
    obtain ⟨hnext, hheld⟩ := List.forall_mem_cons.mp hheld
    obtain ⟨hafter, hsorted⟩ := List.pairwise_cons.mp hsorted
    rw [mergeFrom]
    split
    · rename_i hnear
      exact isChain_place_mergeFrom (fun c hc => (hheld c hc).absorb hnext.precedes hnear) hsorted
    · rename_i hfar
      refine List.isChain_cons.mpr ⟨?_, ?_⟩
      · exact place_le_of_mem_head?_mergeFrom (hnext.place_le hfar) hfar
          fun c hc => Chunk.precedes_of_place_le (hafter c hc)
      · exact isChain_place_mergeFrom (fun c hc => Or.inl (hafter c hc)) hsorted

/-- Merged chunks are in order already. -/
theorem sortChunks_mergeAdjacent (gap : Nat) (chunks : List Chunk) :
    sortChunks (mergeAdjacent gap chunks) = mergeAdjacent gap chunks := by
  have hsorted := pairwise_place_sortChunks chunks
  have hchain : (mergeAdjacent gap chunks).IsChain fun a b => a.place ≤ b.place := by
    rw [mergeAdjacent]
    cases hsort : sortChunks chunks with
    | nil => exact List.isChain_nil
    | cons first rest =>
      rw [hsort] at hsorted
      obtain ⟨hfirst, hrest⟩ := List.pairwise_cons.mp hsorted
      exact isChain_place_mergeFrom (fun c hc => Or.inl (hfirst c hc)) hrest
  have hplaces : ((mergeAdjacent gap chunks).map Chunk.place).Pairwise (· ≤ ·) :=
    List.isChain_iff_pairwise.mp ((List.isChain_map Chunk.place).mpr hchain)
  refine List.mergeSort_of_pairwise ((List.pairwise_map.mp hplaces).imp ?_)
  intro a b hab
  exact (Chunk.le_iff a b).mpr hab

end Outline

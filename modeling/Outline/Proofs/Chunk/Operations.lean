import Outline.Proofs.Chunk.Merge
import Outline.Proofs.Except

/-!
# Identities along a run of operations

The identity of a chunk stands beside the fields that it is the digest of, and nothing but care
keeps the two together: every operation that changes one of these fields has to take the identity
anew.  A chunk that is made gets the identity of its fields, and so does one that absorbs another
one.  Sorting chunks and leaving some out changes no field.  The one operation that moves a first
line and keeps the old identity is normalising.

So the identities stay current along a run exactly as long as every chunk that is normalised would
get the same identity again (`isCurrent_along_run_iff`).  Where the digest tells the two keys
apart, that means that the first line stays where it is: no line feed among the blanks that are cut
off at the front, or no later line to move to.

* `Chunk.currentId`, `Chunk.IsCurrent`: the identity of the present fields.
* `ChunkOperation`, `runOperations`: what can be done with a list of chunks, any number of times.
* `forall_mem_apply`, `forall_mem_run`: what one operation keeps, and what a run keeps.
-/

namespace Outline

namespace Chunk

/-- The identity that belongs to the present fields of a chunk. -/
def currentId (c : Chunk) : String := chunkId c.kind c.name c.startLine c.filePath

/-- The identity of a chunk is that of its present fields. -/
def IsCurrent (c : Chunk) : Prop := c.id = c.currentId

instance (c : Chunk) : Decidable c.IsCurrent := inferInstanceAs (Decidable (c.id = c.currentId))

/-- A chunk that came out of a draft. -/
def IsMade (c : Chunk) : Prop := ∃ (strict : Bool) (d : ChunkDraft), d.create strict = .ok c

end Chunk

/-! ## Operations -/

/-- What can be done with a list of chunks. -/
inductive ChunkOperation where
  /-- A draft becomes one more chunk, unless it is refused. -/
  | create (strict : Bool) (draft : ChunkDraft)
  | merge (gap : Nat)
  /-- The chunk at a position, counted from zero, is normalised. -/
  | normalize (position : Nat)
  | sort
  | filter (strategy : String)

/-- The list after an operation. -/
def ChunkOperation.apply (chunks : List Chunk) : ChunkOperation → List Chunk
  | .create strict draft => chunks ++ (draft.create strict).toOption.toList
  | .merge gap => mergeAdjacent gap chunks
  | .normalize position => chunks.modify position Chunk.normalized
  | .sort => sortChunks chunks
  | .filter strategy => filterByStrategy strategy chunks

/-- The list after several operations. -/
def runOperations (operations : List ChunkOperation) (chunks : List Chunk) : List Chunk :=
  operations.foldl ChunkOperation.apply chunks

/-- A run normalises a chunk, as it is at that time. -/
def Normalizes (operations : List ChunkOperation) (chunks : List Chunk) (c : Chunk) : Prop :=
  ∃ n position, operations[n]? = some (.normalize position) ∧
    (runOperations (operations.take n) chunks)[position]? = some c

variable {chunks : List Chunk} {operations : List ChunkOperation}

theorem runOperations_take_succ {operation : ChunkOperation} {n : Nat}
    (h : operations[n]? = some operation) :
    runOperations (operations.take (n + 1)) chunks =
      operation.apply (runOperations (operations.take n) chunks) := by
  rw [runOperations, List.take_add_one, h, List.foldl_append]
  rfl

/-- A run that is over does nothing more. -/
theorem runOperations_take_succ_of_none {n : Nat} (h : operations[n]? = none) :
    runOperations (operations.take (n + 1)) chunks = runOperations (operations.take n) chunks := by
  rw [List.take_add_one, h, Option.toList_none, List.append_nil]

/-! ## Each operation -/

namespace Chunk

theorem IsMade.isCurrent {c : Chunk} (h : c.IsMade) : c.IsCurrent := by
  obtain ⟨strict, d, hd⟩ := h
  cases strict with
  | true =>
    obtain ⟨-, -, hd⟩ := bind_eq_ok_iff.mp hd
    rw [← Except.ok.inj hd]
    rfl
  | false =>
    rw [← Except.ok.inj hd]
    rfl

/-- A chunk that absorbs another one takes its identity anew. -/
theorem isCurrent_absorb (into next : Chunk) : (into.absorb next).IsCurrent := rfl

/-- Normalising keeps the identity, so it is current afterwards exactly when the digest is the
same. -/
theorem IsCurrent.normalized_iff {c : Chunk} (h : c.IsCurrent) :
    c.normalized.IsCurrent ↔ c.normalized.currentId = c.currentId := by
  have hid : c.normalized.id = c.currentId := h
  rw [IsCurrent, hid, eq_comm]

theorem currentId_normalized_of_startLine {c : Chunk}
    (h : c.normalized.startLine = c.startLine) : c.normalized.currentId = c.currentId := by
  rw [currentId, h]
  rfl

/-- Where the digest tells the two keys apart, the identity stays current only if the first line
stays. -/
theorem currentId_normalized_iff {c : Chunk}
    (hfree : Digest.Md5.CollisionFree [c.normalized.key, c.key]) :
    c.normalized.currentId = c.currentId ↔ c.normalized.startLine = c.startLine := by
  refine ⟨fun h => ?_, currentId_normalized_of_startLine⟩
  have hkey : chunkKey c.kind c.name c.normalized.startLine c.filePath = c.key :=
    hfree c.normalized.key (by simp) c.key (by simp) h
  exact chunkKey_startLine_inj hkey

end Chunk

theorem mem_modify {α : Type} {f : α → α} {as : List α} {i : Nat} {a : α}
    (h : a ∈ as.modify i f) : a ∈ as ∨ ∃ b, as[i]? = some b ∧ a = f b := by
  obtain ⟨j, hj⟩ := List.mem_iff_getElem?.mp h
  rw [List.getElem?_modify, Option.map_eq_map, Option.map_eq_some_iff] at hj
  obtain ⟨b, hb, rfl⟩ := hj
  split
  · rename_i hij
    exact Or.inr ⟨b, hij ▸ hb, rfl⟩
  · exact Or.inl (List.mem_of_getElem? hb)

/-- One operation keeps a property of all chunks that made chunks have, that two chunks pass on to
the one that absorbs the other, and that the chunk at a position keeps when it is normalised. -/
theorem forall_mem_apply {P : Chunk → Prop} {operation : ChunkOperation} (h : ∀ c ∈ chunks, P c)
    (hcreate : ∀ strict draft, operation = .create strict draft →
      ∀ c, draft.create strict = .ok c → P c)
    (habsorb : ∀ into next, P into → P next → P (into.absorb next))
    (hnormalize : ∀ position, operation = .normalize position → ∀ c, chunks[position]? = some c →
      P c → P c.normalized) :
    ∀ c ∈ operation.apply chunks, P c := by
  intro c hc
  cases operation with
  | create strict draft =>
    rcases List.mem_append.mp hc with hc | hc
    · exact h c hc
    · exact hcreate strict draft rfl c (toOption_eq_some_iff.mp (Option.mem_toList.mp hc))
  | merge gap => exact forall_mem_mergeAdjacent habsorb h c hc
  | normalize position =>
    rcases mem_modify hc with hc | ⟨d, hd, rfl⟩
    · exact h c hc
    · exact hnormalize position rfl d hd (h d (List.mem_of_getElem? hd))
  | sort => exact h c (List.mem_mergeSort.mp hc)
  | filter strategy => exact h c (List.mem_filter.mp hc).1

/-! ## A run -/

/-- A property that each operation of a run keeps holds all along the run. -/
theorem forall_mem_run {P : Chunk → Prop} (h : ∀ c ∈ chunks, P c)
    (hcreate : ∀ strict draft, ChunkOperation.create strict draft ∈ operations →
      ∀ c, draft.create strict = .ok c → P c)
    (habsorb : ∀ into next, P into → P next → P (into.absorb next))
    (hnormalize : ∀ c, Normalizes operations chunks c → P c → P c.normalized) (n : Nat) :
    ∀ c ∈ runOperations (operations.take n) chunks, P c := by
  induction n with
  | zero => exact h
  | succ n ih =>
    cases hn : operations[n]? with
    | none =>
      rw [runOperations_take_succ_of_none hn]
      exact ih
    | some operation =>
      rw [runOperations_take_succ hn]
      refine forall_mem_apply ih (fun strict draft hoperation => ?_) habsorb
        fun position hoperation c hc => ?_
      · exact hcreate strict draft (hoperation ▸ List.mem_of_getElem? hn)
      · exact hnormalize c ⟨n, position, hoperation ▸ hn, hc⟩

/-- Identities stay current along a run in which every chunk that is normalised would get its old
identity again. -/
theorem isCurrent_of_mem_run (h : ∀ c ∈ chunks, c.IsCurrent)
    (hkeep : ∀ c, Normalizes operations chunks c → c.normalized.currentId = c.currentId) (n : Nat) :
    ∀ c ∈ runOperations (operations.take n) chunks, c.IsCurrent :=
  forall_mem_run h (fun strict draft _ _ hmade => Chunk.IsMade.isCurrent ⟨strict, draft, hmade⟩)
    (fun into next _ _ => Chunk.isCurrent_absorb into next)
    (fun c hc hcurrent => hcurrent.normalized_iff.mpr (hkeep c hc)) n

/-- Conversely, the chunk that a run normalises is there before and after. -/
theorem currentId_normalized_of_run {c : Chunk}
    (h : ∀ n, ∀ d ∈ runOperations (operations.take n) chunks, d.IsCurrent)
    (hc : Normalizes operations chunks c) : c.normalized.currentId = c.currentId := by
  obtain ⟨n, position, hn, hget⟩ := hc
  have hbefore : c.IsCurrent := h n c (List.mem_of_getElem? hget)
  have hafter : c.normalized.IsCurrent := by
    refine h (n + 1) c.normalized (List.mem_of_getElem? (i := position) ?_)
    rw [runOperations_take_succ hn, ChunkOperation.apply, List.getElem?_modify, hget]
    simp
  exact hbefore.normalized_iff.mp hafter

/-- Along a run of operations on chunks that were made from drafts, all identities are those of the
present fields exactly if every chunk that is normalised would get its old identity again; that is,
where the digest tells the keys apart, if its first line stays. -/
theorem isCurrent_along_run_iff (hmade : ∀ c ∈ chunks, c.IsMade)
    (operations : List ChunkOperation) :
    ((∀ n, ∀ c ∈ runOperations (operations.take n) chunks, c.IsCurrent) ↔
      ∀ c, Normalizes operations chunks c → c.normalized.currentId = c.currentId) ∧
    ∀ c, Normalizes operations chunks c →
      Digest.Md5.CollisionFree [c.normalized.key, c.key] →
        (c.normalized.currentId = c.currentId ↔ c.normalized.startLine = c.startLine) := by
  refine ⟨⟨fun h c hc => currentId_normalized_of_run h hc, fun hkeep n => ?_⟩, fun c _ hfree =>
    Chunk.currentId_normalized_iff hfree⟩
  exact isCurrent_of_mem_run (fun c hc => (hmade c hc).isCurrent) hkeep n

/-- Blanks without a line feed are cut off, and the identity is current before and after. -/
theorem isCurrent_along_run_of_indented :
    ∃ c, ChunkDraft.create true
        { content := "  f()", startLine := 3, stopLine := 4, language := "rust",
          kind := .function } = .ok c ∧ c.normalized.content = "f()" ∧
      ∀ n, ∀ d ∈ runOperations ([.normalize 0, .sort, .merge 1].take n) [c], d.IsCurrent := by
  obtain ⟨c, hc, hcomputed⟩ : ∃ c, ChunkDraft.create true
      { content := "  f()", startLine := 3, stopLine := 4, language := "rust",
        kind := .function } = .ok c ∧
      decide (c.normalized.content = "f()" ∧ c.normalized.startLine = c.startLine) = true :=
    exists_ok_of_any (by decide +kernel)
  obtain ⟨hcontent, hline⟩ := of_decide_eq_true hcomputed
  have hmade : ∀ d ∈ [c], d.IsMade := by
    intro d hd
    rw [List.mem_singleton.mp hd]
    exact ⟨true, _, hc⟩
  refine ⟨c, hc, hcontent, (isCurrent_along_run_iff hmade _).1.mpr ?_⟩
  rintro d ⟨n, position, hn, hget⟩
  -- only the first operation normalises anything
  match n with
  | 0 =>
    cases hn
    cases hget
    exact Chunk.currentId_normalized_of_startLine hline
  | 1 => cases hn
  | 2 => cases hn
  | n + 3 => cases hn

/-- A chunk with an empty first line: normalised, it begins on line two under the identity of line
one. -/
theorem not_isCurrent_of_emptyFirstLine :
    ∃ c ∈ runOperations [.create true
        { content := "\nf()", startLine := 1, stopLine := 2, language := "rust", kind := .function,
          name := some "f", filePath := "a.rs" }, .normalize 0] [],
      c.startLine = 2 ∧ c.id = chunkId .function (some "f") 1 "a.rs" ∧ ¬ c.IsCurrent := by
  decide +kernel

end Outline

import Outline.Proofs.Chunk.Order
import Outline.Proofs.Json.Table

/-!
# Merging in parts and merging again

Chunks may be merged part by part: of two lists, one before the other in each file, either one can
be merged first (`mergeAdjacent_append_of_before`).  Three things come together.

Absorbing is associative in every field (`Chunk.absorb_assoc`): texts are joined, the later value
counts or the earlier one, the larger or the smaller one, one table is put on top of another; and
the two digests are taken anew from fields that are the same.

On chunks in order, merging may therefore be done to a front part or to a back part first
(`mergeInOrder_append_left`, `mergeInOrder_append_right`).  A chunk that has absorbed others begins
where it began before, and ends no earlier: so it is near to the one that is held when it was near
before, and what was near to it stays near.

Sorting comes first, however, and merged chunks have new ends and new identities.  In one file this
changes nothing: merged chunks are in order already, and those of the first list still come before
those of the second one (`Chunk.Before.absorb_left`, `Chunk.Before.absorb_right`).  Different files
have nothing to do with each other (`chunksIn_mergeAdjacent`), so lists that merge alike in
each file merge alike.

Merging a second time is the case of a list with nothing behind it.  There the chunks of all files
are in order already, so nothing is asked of them: `mergeAdjacent_mergeAdjacent`.
-/

namespace Outline

variable {gap : Nat}

/-! ## Absorbing -/

theorem largerComplexity_assoc (a b c : Option Nat) :
    largerComplexity (largerComplexity a b) c = largerComplexity a (largerComplexity b c) := by
  cases a with
  | none => rfl
  | some a =>
    cases b with
    | none => rfl
    | some b =>
      cases c with
      | none => rfl
      | some c => exact congrArg some (Nat.max_assoc a b c)

/-- The first of the smallest values is chosen, in whatever order they are compared. -/
theorem Single.lesser_assoc (x y z : Single) :
    (x.lesser y).lesser z = x.lesser (y.lesser z) := by
  have hle : ∀ a b : Single, a ≤ b ↔ a.value ≤ b.value := fun _ _ => Iff.rfl
  simp only [lesser, hle]
  split_ifs <;> first | rfl | omega

namespace Chunk

@[simp] theorem absorb_filePath (a b : Chunk) : (a.absorb b).filePath = a.filePath := rfl

@[simp] theorem absorb_startLine (a b : Chunk) : (a.absorb b).startLine = a.startLine := rfl

@[simp] theorem absorb_stopLine (a b : Chunk) :
    (a.absorb b).stopLine = max a.stopLine b.stopLine := rfl

theorem absorb_assoc (a b c : Chunk) :
    (a.absorb b).absorb c = a.absorb (b.absorb c) := by
  have hcontent : a.content ++ "\n" ++ b.content ++ "\n" ++ c.content =
      a.content ++ "\n" ++ (b.content ++ "\n" ++ c.content) := by
    simp only [String.append_assoc]
  have hname : c.name.or (b.name.or a.name) = (c.name.or b.name).or a.name :=
    Option.or_assoc.symm
  simp only [absorb, refreshed, hcontent, hname, Nat.max_assoc, largerComplexity_assoc,
    Single.lesser_assoc, Attributes.extend_assoc]

end Chunk

/-! ## Chunks in order -/

theorem mergeFrom_cons_of_isNear {last next : Chunk} {rest : List Chunk}
    (h : last.isNear gap next = true) :
    mergeFrom gap last (next :: rest) = mergeFrom gap (last.absorb next) rest :=
  if_pos h

theorem mergeFrom_cons_of_not_isNear {last next : Chunk} {rest : List Chunk}
    (h : ¬ last.isNear gap next = true) :
    mergeFrom gap last (next :: rest) = last :: mergeFrom gap next rest :=
  if_neg h

/-- Merges chunks in the order in which they are given. -/
def mergeInOrder (gap : Nat) : List Chunk → List Chunk
  | [] => []
  | first :: rest => mergeFrom gap first rest

theorem mergeAdjacent_eq (gap : Nat) (chunks : List Chunk) :
    mergeAdjacent gap chunks = mergeInOrder gap (sortChunks chunks) := by
  rw [mergeAdjacent]
  cases sortChunks chunks with
  | nil => rfl
  | cons first rest => rfl

namespace Chunk

/-- What is near to a chunk is near to one that has absorbed it. -/
theorem isNear_absorb {last c d : Chunk} (hc : last.isNear gap c = true)
    (hd : c.isNear gap d = true) : (last.absorb c).isNear gap d = true := by
  rw [isNear_iff] at hc hd ⊢
  exact ⟨hc.1.trans hd.1, hd.2.mono (Nat.le_max_right _ _)⟩

end Chunk

/-- The first chunk that is given out begins like the one that was held first. -/
theorem exists_mergeFrom_eq_cons (gap : Nat) : ∀ (rest : List Chunk) (last : Chunk),
    ∃ first merged, mergeFrom gap last rest = first :: merged ∧
      first.filePath = last.filePath ∧ first.startLine = last.startLine
  | [], last => ⟨last, [], rfl, rfl, rfl⟩
  | next :: rest, last => by
    rw [mergeFrom]
    split
    · exact exists_mergeFrom_eq_cons gap rest (last.absorb next)
    · exact ⟨last, mergeFrom gap next rest, rfl, rfl, rfl⟩

theorem mergeInOrder_mergeFrom_append (later : List Chunk) : ∀ (rest : List Chunk) (last : Chunk),
    mergeInOrder gap (mergeFrom gap last rest ++ later) = mergeFrom gap last (rest ++ later)
  | [], _ => rfl
  | next :: rest, last => by
    rw [List.cons_append, mergeFrom, mergeFrom]
    split
    · exact mergeInOrder_mergeFrom_append later rest (last.absorb next)
    · rename_i hfar
      have ih := mergeInOrder_mergeFrom_append later rest next
      obtain ⟨first, merged, hmerged, hfile, hstart⟩ := exists_mergeFrom_eq_cons gap rest next
      rw [hmerged] at ih ⊢
      have hfar' : ¬ last.isNear gap first = true := by
        rwa [Chunk.isNear_congr hfile hstart]
      calc mergeFrom gap last (first :: (merged ++ later))
          = last :: mergeFrom gap first (merged ++ later) := mergeFrom_cons_of_not_isNear hfar'
        _ = last :: mergeFrom gap next (rest ++ later) := by rw [← ih]; rfl

/-- Chunks that were merged among themselves are absorbed like the chunks one by one. -/
theorem mergeFrom_mergeFrom : ∀ (rest : List Chunk) (last next : Chunk),
    mergeFrom gap last (mergeFrom gap next rest) = mergeFrom gap last (next :: rest)
  | [], _, _ => rfl
  | c :: rest, last, next => by
    by_cases hc : next.isNear gap c = true
    · rw [mergeFrom_cons_of_isNear hc, mergeFrom_mergeFrom rest last (next.absorb c)]
      by_cases hnext : last.isNear gap next = true
      · rw [mergeFrom_cons_of_isNear (Chunk.isNear_congr rfl rfl ▸ hnext),
          mergeFrom_cons_of_isNear hnext, mergeFrom_cons_of_isNear (Chunk.isNear_absorb hnext hc),
          Chunk.absorb_assoc]
      · rw [mergeFrom_cons_of_not_isNear (Chunk.isNear_congr rfl rfl ▸ hnext),
          mergeFrom_cons_of_not_isNear hnext, mergeFrom_cons_of_isNear hc]
    · rw [mergeFrom_cons_of_not_isNear hc]
      by_cases hnext : last.isNear gap next = true
      · rw [mergeFrom_cons_of_isNear hnext, mergeFrom_cons_of_isNear hnext,
          mergeFrom_mergeFrom rest (last.absorb next) c]
      · rw [mergeFrom_cons_of_not_isNear hnext, mergeFrom_cons_of_not_isNear hnext,
          mergeFrom_mergeFrom rest next c]

theorem mergeFrom_append_mergeFrom (next : Chunk) (later : List Chunk) :
    ∀ (rest : List Chunk) (last : Chunk),
      mergeFrom gap last (rest ++ mergeFrom gap next later) =
        mergeFrom gap last (rest ++ next :: later)
  | [], last => mergeFrom_mergeFrom later last next
  | c :: rest, last => by
    rw [List.cons_append, List.cons_append, mergeFrom, mergeFrom,
      mergeFrom_append_mergeFrom next later rest (last.absorb c),
      mergeFrom_append_mergeFrom next later rest c]

/-- A front part may be merged first. -/
theorem mergeInOrder_append_left (gap : Nat) (front back : List Chunk) :
    mergeInOrder gap (mergeInOrder gap front ++ back) = mergeInOrder gap (front ++ back) := by
  cases front with
  | nil => rfl
  | cons first rest => exact mergeInOrder_mergeFrom_append back rest first

/-- A back part may be merged first. -/
theorem mergeInOrder_append_right (gap : Nat) (front back : List Chunk) :
    mergeInOrder gap (front ++ mergeInOrder gap back) = mergeInOrder gap (front ++ back) := by
  cases back with
  | nil => rfl
  | cons next later =>
    cases front with
    | nil =>
      have h := mergeInOrder_append_left gap (next :: later) []
      rwa [List.append_nil, List.append_nil] at h
    | cons first rest => exact mergeFrom_append_mergeFrom next later rest first

/-! ## Files -/

/-- The chunks of one file. -/
def chunksIn (file : String) (chunks : List Chunk) : List Chunk :=
  chunks.filter fun c => c.filePath = file

section

variable {file : String} {c : Chunk} {chunks : List Chunk}

theorem chunksIn_cons_of_eq (h : c.filePath = file) :
    chunksIn file (c :: chunks) = c :: chunksIn file chunks :=
  List.filter_cons_of_pos (decide_eq_true h)

theorem chunksIn_cons_of_ne (h : c.filePath ≠ file) :
    chunksIn file (c :: chunks) = chunksIn file chunks :=
  List.filter_cons_of_neg fun hfile => h (of_decide_eq_true hfile)

theorem mem_chunksIn : c ∈ chunksIn file chunks ↔ c ∈ chunks ∧ c.filePath = file := by
  rw [chunksIn, List.mem_filter, decide_eq_true_eq]

theorem chunksIn_append (file : String) (xs ys : List Chunk) :
    chunksIn file (xs ++ ys) = chunksIn file xs ++ chunksIn file ys :=
  List.filter_append xs ys

theorem sortChunks_chunksIn (file : String) (chunks : List Chunk) :
    sortChunks (chunksIn file chunks) = chunksIn file (sortChunks chunks) :=
  mergeSort_filter Chunk.le_iff _ chunks

end

theorem Chunk.filePath_eq_of_isNear {last next : Chunk} (h : last.isNear gap next = true) :
    last.filePath = next.filePath :=
  (isNear_iff.mp h).1

/-- In order, nothing comes back to a file that was left. -/
theorem chunksIn_eq_nil {file : String} {last next : Chunk} {rest : List Chunk}
    (h : (last :: next :: rest).Pairwise fun a b => a.filePath ≤ b.filePath)
    (hlast : last.filePath = file) (hnext : next.filePath ≠ file) :
    chunksIn file (next :: rest) = [] := by
  obtain ⟨hle, h⟩ := List.pairwise_cons.mp h
  have hlt : file < next.filePath :=
    lt_of_le_of_ne (hlast ▸ hle next List.mem_cons_self) (Ne.symm hnext)
  refine List.eq_nil_iff_forall_not_mem.mpr fun c hc => ?_
  obtain ⟨hmem, hfile⟩ := mem_chunksIn.mp hc
  rcases List.mem_cons.mp hmem with rfl | hmem
  · exact hnext hfile
  · exact ne_of_gt (lt_of_lt_of_le hlt ((List.pairwise_cons.mp h).1 c hmem)) hfile

/-- Chunks of a file that are merged in order are merged among themselves. -/
theorem chunksIn_mergeFrom (file : String) : ∀ {rest : List Chunk} {last : Chunk},
    ((last :: rest).Pairwise fun a b => a.filePath ≤ b.filePath) →
      chunksIn file (mergeFrom gap last rest) = mergeInOrder gap (chunksIn file (last :: rest))
  | [], last, _ => by
    rw [mergeFrom]
    by_cases hlast : last.filePath = file
    · rw [chunksIn_cons_of_eq hlast]
      rfl
    · rw [chunksIn_cons_of_ne hlast]
      rfl
  | next :: rest, last, h => by
    obtain ⟨hlast, hrest⟩ := List.pairwise_cons.mp h
    rw [mergeFrom]
    split
    · rename_i hnear
      have hpath := Chunk.filePath_eq_of_isNear hnear
      have habsorbed : ((last.absorb next) :: rest).Pairwise fun a b => a.filePath ≤ b.filePath :=
        List.pairwise_cons.mpr
          ⟨fun c hc => hlast c (List.mem_cons_of_mem _ hc), (List.pairwise_cons.mp hrest).2⟩
      rw [chunksIn_mergeFrom file habsorbed]
      by_cases hfile : last.filePath = file
      · have hnext : next.filePath = file := hpath ▸ hfile
        rw [chunksIn_cons_of_eq hfile, chunksIn_cons_of_eq (c := last.absorb next) hfile,
          chunksIn_cons_of_eq hnext, mergeInOrder, mergeInOrder, mergeFrom_cons_of_isNear hnear]
      · have hnext : next.filePath ≠ file := hpath ▸ hfile
        rw [chunksIn_cons_of_ne hfile, chunksIn_cons_of_ne (c := last.absorb next) hfile,
          chunksIn_cons_of_ne hnext]
    · rename_i hfar
      have ih := chunksIn_mergeFrom file hrest
      by_cases hfile : last.filePath = file
      · rw [chunksIn_cons_of_eq hfile, chunksIn_cons_of_eq hfile, ih, mergeInOrder]
        by_cases hnext : next.filePath = file
        · rw [chunksIn_cons_of_eq hnext, mergeInOrder, mergeFrom_cons_of_not_isNear hfar]
        · rw [chunksIn_eq_nil h hfile hnext]
          rfl
      · rw [chunksIn_cons_of_ne hfile, chunksIn_cons_of_ne hfile, ih]

/-- Merging keeps the order of the files. -/
theorem pairwise_filePath_mergeFrom : ∀ {rest : List Chunk} {last : Chunk},
    ((last :: rest).Pairwise fun a b => a.filePath ≤ b.filePath) →
      (mergeFrom gap last rest).Pairwise fun a b => a.filePath ≤ b.filePath
  | [], last, h => h
  | next :: rest, last, h => by
    obtain ⟨hlast, hrest⟩ := List.pairwise_cons.mp h
    rw [mergeFrom]
    split
    · exact pairwise_filePath_mergeFrom (List.pairwise_cons.mpr
        ⟨fun c hc => hlast c (List.mem_cons_of_mem _ hc), (List.pairwise_cons.mp hrest).2⟩)
    · refine List.pairwise_cons.mpr ⟨?_, pairwise_filePath_mergeFrom hrest⟩
      exact forall_mem_mergeFrom (P := fun c => last.filePath ≤ c.filePath)
        (fun _ _ h _ => h) (hlast next List.mem_cons_self)
        fun c hc => hlast c (List.mem_cons_of_mem _ hc)

theorem pairwise_filePath_sortChunks (chunks : List Chunk) :
    (sortChunks chunks).Pairwise fun a b => a.filePath ≤ b.filePath :=
  (pairwise_precedes_sortChunks chunks).imp Chunk.Precedes.filePath_le

theorem pairwise_filePath_mergeAdjacent (gap : Nat) (chunks : List Chunk) :
    (mergeAdjacent gap chunks).Pairwise fun a b => a.filePath ≤ b.filePath := by
  have hsorted := pairwise_filePath_sortChunks chunks
  rw [mergeAdjacent]
  cases hsort : sortChunks chunks with
  | nil => exact List.Pairwise.nil
  | cons first rest =>
    rw [hsort] at hsorted
    exact pairwise_filePath_mergeFrom hsorted

/-- The merged chunks of a file are those of its chunks. -/
theorem chunksIn_mergeAdjacent (gap : Nat) (file : String) (chunks : List Chunk) :
    chunksIn file (mergeAdjacent gap chunks) = mergeAdjacent gap (chunksIn file chunks) := by
  have hsorted := pairwise_filePath_sortChunks chunks
  rw [mergeAdjacent_eq gap (chunksIn file chunks), sortChunks_chunksIn, mergeAdjacent]
  cases hsort : sortChunks chunks with
  | nil => rfl
  | cons first rest =>
    rw [hsort] at hsorted
    exact chunksIn_mergeFrom file hsorted

/-- Chunks that merge alike in each file merge alike. -/
theorem mergeAdjacent_congr {xs ys : List Chunk}
    (h : ∀ file, mergeAdjacent gap (chunksIn file xs) = mergeAdjacent gap (chunksIn file ys)) :
    mergeAdjacent gap xs = mergeAdjacent gap ys := by
  refine eq_of_filter_key_eq Chunk.filePath (pairwise_filePath_mergeAdjacent gap xs)
    (pairwise_filePath_mergeAdjacent gap ys) fun file => ?_
  calc chunksIn file (mergeAdjacent gap xs)
      = mergeAdjacent gap (chunksIn file ys) := by rw [chunksIn_mergeAdjacent, h file]
    _ = chunksIn file (mergeAdjacent gap ys) := (chunksIn_mergeAdjacent gap file ys).symm

/-! ## One file -/

namespace Chunk

/-- A chunk begins before another one, or on the same line and ends before it. -/
def Before (a b : Chunk) : Prop :=
  a.startLine < b.startLine ∨ a.startLine = b.startLine ∧ a.stopLine < b.stopLine

instance (a b : Chunk) : Decidable (a.Before b) := inferInstanceAs (Decidable (_ ∨ _))

variable {file : String} {a b c : Chunk}

/-- A chunk that absorbs a later one stays before what both were before. -/
theorem Before.absorb_left (ha : a.Before c) (hb : b.Before c) (h : a.startLine ≤ b.startLine) :
    (a.absorb b).Before c := by
  simp only [Before, absorb_startLine, absorb_stopLine] at ha hb ⊢
  omega

/-- A chunk that absorbs another one stays behind what it was behind. -/
theorem Before.absorb_right (h : a.Before b) (c : Chunk) : a.Before (b.absorb c) := by
  simp only [Before, absorb_startLine, absorb_stopLine] at h ⊢
  omega

theorem place_le_of_before (ha : a.LiesIn file) (hb : b.LiesIn file) (h : a.Before b) :
    a.place ≤ b.place := by
  simp only [place, Prod.Lex.toLex_le_toLex]
  refine Or.inr ⟨ha.filePath_eq.trans hb.filePath_eq.symm, ?_⟩
  rcases h with hlt | ⟨heq, hlt⟩
  · exact Or.inl hlt
  · exact Or.inr ⟨heq, Or.inl hlt⟩

end Chunk

variable {file : String} {xs ys : List Chunk}

theorem liesIn_of_mem_mergeAdjacent (h : ∀ c ∈ xs, c.LiesIn file) :
    ∀ c ∈ mergeAdjacent gap xs, c.LiesIn file :=
  forall_mem_mergeAdjacent (fun _ next hinto _ => hinto.absorb next) h

/-- What chunks of one file, and all those that come later, are before, merged ones are before. -/
theorem before_of_mem_mergeFrom {y : Chunk} : ∀ {rest : List Chunk} {last : Chunk},
    ((last :: rest).Pairwise fun a b => a.startLine ≤ b.startLine) →
      (∀ c ∈ last :: rest, c.Before y) → ∀ c ∈ mergeFrom gap last rest, c.Before y
  | [], last, _, hbefore, c, hc => hbefore c hc
  | next :: rest, last, hsorted, hbefore, c, hc => by
    obtain ⟨hlast, hrest⟩ := List.pairwise_cons.mp hsorted
    obtain ⟨hlasty, hbefore⟩ := List.forall_mem_cons.mp hbefore
    obtain ⟨hnexty, hresty⟩ := List.forall_mem_cons.mp hbefore
    rw [mergeFrom] at hc
    split at hc
    · refine before_of_mem_mergeFrom ?_ ?_ c hc
      · exact List.pairwise_cons.mpr
          ⟨fun d hd => hlast d (List.mem_cons_of_mem _ hd), (List.pairwise_cons.mp hrest).2⟩
      · have habsorbed := hlasty.absorb_left hnexty (hlast next List.mem_cons_self)
        exact List.forall_mem_cons.mpr ⟨habsorbed, hresty⟩
    · rcases List.mem_cons.mp hc with rfl | hc
      · exact hlasty
      · exact before_of_mem_mergeFrom hrest hbefore c hc

theorem before_of_mem_mergeAdjacent {y : Chunk} (hlies : ∀ c ∈ xs, c.LiesIn file)
    (hbefore : ∀ c ∈ xs, c.Before y) : ∀ c ∈ mergeAdjacent gap xs, c.Before y := by
  have hsorted : (sortChunks xs).Pairwise fun a b => a.startLine ≤ b.startLine := by
    refine (pairwise_precedes_sortChunks xs).imp_of_mem fun {a b} ha hb hab => ?_
    have hfile : ∀ c ∈ sortChunks xs, c.filePath = file := fun c hc =>
      (hlies c (List.mem_mergeSort.mp hc)).filePath_eq
    exact hab.startLine_le ((hfile a ha).trans (hfile b hb).symm)
  have hbefore : ∀ c ∈ sortChunks xs, c.Before y :=
    fun c hc => hbefore c (List.mem_mergeSort.mp hc)
  rw [mergeAdjacent]
  cases hsort : sortChunks xs with
  | nil => exact fun c hc => absurd hc List.not_mem_nil
  | cons first rest =>
    rw [hsort] at hsorted hbefore
    exact before_of_mem_mergeFrom hsorted hbefore

/-- Chunks of one file that are before others are sorted among themselves. -/
theorem sortChunks_append (hxs : ∀ c ∈ xs, c.LiesIn file) (hys : ∀ c ∈ ys, c.LiesIn file)
    (h : ∀ x ∈ xs, ∀ y ∈ ys, x.Before y) :
    sortChunks (xs ++ ys) = sortChunks xs ++ sortChunks ys :=
  mergeSort_append Chunk.le_iff fun x hx y hy =>
    Chunk.place_le_of_before (hxs x hx) (hys y hy) (h x hx y hy)

theorem mergeAdjacent_append_left (hxs : ∀ c ∈ xs, c.LiesIn file)
    (hys : ∀ c ∈ ys, c.LiesIn file) (h : ∀ x ∈ xs, ∀ y ∈ ys, x.Before y) :
    mergeAdjacent gap (mergeAdjacent gap xs ++ ys) = mergeAdjacent gap (xs ++ ys) := by
  have hmerged : ∀ x ∈ mergeAdjacent gap xs, ∀ y ∈ ys, x.Before y := fun x hx y hy =>
    before_of_mem_mergeAdjacent hxs (fun c hc => h c hc y hy) x hx
  calc mergeAdjacent gap (mergeAdjacent gap xs ++ ys)
      = mergeInOrder gap (mergeAdjacent gap xs ++ sortChunks ys) := by
        rw [mergeAdjacent_eq, sortChunks_append (liesIn_of_mem_mergeAdjacent hxs) hys hmerged,
          sortChunks_mergeAdjacent]
    _ = mergeInOrder gap (sortChunks xs ++ sortChunks ys) := by
        rw [mergeAdjacent_eq, mergeInOrder_append_left]
    _ = mergeAdjacent gap (xs ++ ys) := by
        rw [mergeAdjacent_eq, sortChunks_append hxs hys h]

theorem mergeAdjacent_append_right (hxs : ∀ c ∈ xs, c.LiesIn file)
    (hys : ∀ c ∈ ys, c.LiesIn file) (h : ∀ x ∈ xs, ∀ y ∈ ys, x.Before y) :
    mergeAdjacent gap (xs ++ mergeAdjacent gap ys) = mergeAdjacent gap (xs ++ ys) := by
  have hmerged : ∀ x ∈ xs, ∀ y ∈ mergeAdjacent gap ys, x.Before y := fun x hx =>
    forall_mem_mergeAdjacent (fun _ next hinto _ => hinto.absorb_right next) (h x hx)
  calc mergeAdjacent gap (xs ++ mergeAdjacent gap ys)
      = mergeInOrder gap (sortChunks xs ++ mergeAdjacent gap ys) := by
        rw [mergeAdjacent_eq, sortChunks_append hxs (liesIn_of_mem_mergeAdjacent hys) hmerged,
          sortChunks_mergeAdjacent]
    _ = mergeInOrder gap (sortChunks xs ++ sortChunks ys) := by
        rw [mergeAdjacent_eq, mergeInOrder_append_right]
    _ = mergeAdjacent gap (xs ++ ys) := by
        rw [mergeAdjacent_eq, sortChunks_append hxs hys h]

/-! ## Any files -/

/-- Of two lists of chunks, one before the other in each file, either one may be merged first. -/
theorem mergeAdjacent_append_of_before (gap : Nat) {xs ys : List Chunk}
    (horder : ∀ c ∈ xs ++ ys, c.startLine ≤ c.stopLine)
    (hbefore : ∀ x ∈ xs, ∀ y ∈ ys, x.filePath = y.filePath → x.Before y) :
    mergeAdjacent gap (mergeAdjacent gap xs ++ ys) = mergeAdjacent gap (xs ++ ys) ∧
      mergeAdjacent gap (xs ++ ys) = mergeAdjacent gap (xs ++ mergeAdjacent gap ys) := by
  have hlies : ∀ (file : String) (l : List Chunk), l ⊆ xs ++ ys →
      ∀ c ∈ chunksIn file l, c.LiesIn file := by
    intro file l hl c hc
    obtain ⟨hmem, hfile⟩ := mem_chunksIn.mp hc
    exact ⟨hfile, horder c (hl hmem)⟩
  have hxs := fun file => hlies file xs (List.subset_append_left xs ys)
  have hys := fun file => hlies file ys (List.subset_append_right xs ys)
  have hfiles : ∀ file, ∀ x ∈ chunksIn file xs, ∀ y ∈ chunksIn file ys, x.Before y := by
    intro file x hx y hy
    obtain ⟨hx, hxfile⟩ := mem_chunksIn.mp hx
    obtain ⟨hy, hyfile⟩ := mem_chunksIn.mp hy
    exact hbefore x hx y hy (hxfile.trans hyfile.symm)
  constructor
  · refine mergeAdjacent_congr fun file => ?_
    rw [chunksIn_append, chunksIn_append, chunksIn_mergeAdjacent]
    exact mergeAdjacent_append_left (hxs file) (hys file) (hfiles file)
  · refine mergeAdjacent_congr fun file => ?_
    rw [chunksIn_append, chunksIn_append, chunksIn_mergeAdjacent]
    exact (mergeAdjacent_append_right (hxs file) (hys file) (hfiles file)).symm

/-- Two chunks that lie far apart on their own, a long one of the earlier list that brings them
together, and one of another file. -/
theorem mergeAdjacent_append_of_bridge :
    let chunk (name file : String) (start stop : Nat) : Chunk :=
      ChunkDraft.build
        { content := name, startLine := start, stopLine := stop, language := "rust",
          kind := .function, name := some name, filePath := file } start stop
    let xs := [chunk "a" "e.rs" 1 1, chunk "b" "f.rs" 1 9]
    let ys := [chunk "c" "f.rs" 2 3, chunk "d" "f.rs" 8 8]
    (mergeAdjacent 1 ys).length = 2 ∧
      (mergeAdjacent 1 (xs ++ ys)).map (·.content) = ["a", "b\nc\nd"] ∧
        mergeAdjacent 1 (mergeAdjacent 1 xs ++ ys) = mergeAdjacent 1 (xs ++ ys) ∧
          mergeAdjacent 1 (xs ++ ys) = mergeAdjacent 1 (xs ++ mergeAdjacent 1 ys) := by
  intro chunk xs ys
  have hys : sortChunks ys = ys := List.mergeSort_of_pairwise (by decide +kernel)
  have hxsys : sortChunks (xs ++ ys) = xs ++ ys := List.mergeSort_of_pairwise (by decide +kernel)
  refine ⟨?_, ?_, mergeAdjacent_append_of_before 1 (by decide +kernel) (by decide +kernel)⟩
  · rw [mergeAdjacent_eq, hys]
    decide +kernel
  · rw [mergeAdjacent_eq, hxsys]
    decide +kernel

/-- Chunks that are merged already stay as they are. -/
theorem mergeAdjacent_mergeAdjacent (gap : Nat) (chunks : List Chunk) :
    mergeAdjacent gap (mergeAdjacent gap chunks) = mergeAdjacent gap chunks := by
  have hmerged : mergeInOrder gap (mergeInOrder gap (sortChunks chunks)) =
      mergeInOrder gap (sortChunks chunks) := by
    have h := mergeInOrder_append_left gap (sortChunks chunks) []
    rwa [List.append_nil, List.append_nil] at h
  calc mergeAdjacent gap (mergeAdjacent gap chunks)
      = mergeInOrder gap (sortChunks (mergeAdjacent gap chunks)) := mergeAdjacent_eq gap _
    _ = mergeInOrder gap (mergeInOrder gap (sortChunks chunks)) := by
        rw [sortChunks_mergeAdjacent, mergeAdjacent_eq]
    _ = mergeAdjacent gap chunks := by rw [hmerged, mergeAdjacent_eq]

end Outline

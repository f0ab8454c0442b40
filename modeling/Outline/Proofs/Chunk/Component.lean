import Mathlib.Data.List.Nodup
import Mathlib.Logic.Relation
import Mathlib.Order.Bounds.Basic
import Mathlib.Order.Lattice.Nat
import Mathlib.Order.WithBot
import Outline.Proofs.Chunk.Associativity

/-!
# Merged chunks are the connected components

Two chunks touch when they lie in one file and neither begins more than the gap behind the end of
the other.  Merging gives out one chunk for each connected component of this relation
(`exists_components_mergeAdjacent`), although it never compares a chunk with more than one other:
the one that is held, which stands for all chunks absorbed since it was taken up.

Two things make this right.  Chunks come in by their first lines, and the held chunk keeps the
furthest end of its group.  So a chunk that is near to the held one touches a member of the group,
the one with the furthest end (`Chunk.IsMergeOf.exists_touches`).  And once a chunk is not near,
neither it nor any later chunk touches any member of the group
(`Chunk.IsMergeOf.farBefore_of_not_isNear`): a link from the group to something outside would have
to pass through such a touch (`not_linked_of_farBefore`).

Lines are counts, and the sum of an end and a gap stops at the largest one.  No first line that is a
count can tell (`Chunk.touches_iff_of_lt`).

* `mergeAdjacent_eq_of_perm`: in which order the chunks are given plays no part.
* `Chunk.Touches`, `Linked`, `AreComponents`: the relation and its components.
* `Chunk.IsMergeOf`: what a group becomes; `Chunk.IsMergeOf.absorb` is the step.
* `exists_groups_mergeFrom`: the run.
-/

namespace Outline

variable {gap : Nat} {chunks : List Chunk}

/-! ## The order in which chunks come in -/

/-- Chunks of which no two have the same place are brought into one order, however they are
given. -/
theorem sortChunks_eq_of_perm {xs ys : List Chunk} (hperm : xs.Perm ys)
    (hnodup : (xs.map fun c => (c.filePath, c.startLine, c.stopLine, c.id)).Nodup) :
    sortChunks xs = sortChunks ys := by
  refine mergeSort_eq_of_perm Chunk.le_iff hperm fun a ha b hb hab => ?_
  simp only [Chunk.place, EmbeddingLike.apply_eq_iff_eq, Prod.mk.injEq] at hab
  exact List.inj_on_of_nodup_map hnodup ha hb (by simpa using hab)

/-- Chunks of which no two have file, lines and identity in common are merged alike in whatever
order they are given. -/
theorem mergeAdjacent_eq_of_perm (gap : Nat) {xs ys : List Chunk} (hperm : xs.Perm ys)
    (hnodup : (xs.map fun c => (c.filePath, c.startLine, c.stopLine, c.id)).Nodup) :
    mergeAdjacent gap xs = mergeAdjacent gap ys := by
  rw [mergeAdjacent_eq, mergeAdjacent_eq, sortChunks_eq_of_perm hperm hnodup]

/-- Three chunks in the order of their lines, and the other way round. -/
theorem mergeAdjacent_eq_of_perm_of_reverse :
    let chunk (name : String) (start stop : Nat) : Chunk :=
      ChunkDraft.build
        { content := name, startLine := start, stopLine := stop, language := "rust",
          kind := .function, name := some name } start stop
    let xs := [chunk "a" 1 2, chunk "b" 3 4, chunk "c" 8 9]
    (mergeAdjacent 1 xs).map (·.content) = ["a\nb", "c"] ∧
      mergeAdjacent 1 xs = mergeAdjacent 1 xs.reverse := by
  intro chunk xs
  have hsort : sortChunks xs = xs := List.mergeSort_of_pairwise (by decide +kernel)
  refine ⟨?_, mergeAdjacent_eq_of_perm 1 (List.reverse_perm xs).symm (by decide +kernel)⟩
  rw [mergeAdjacent_eq, hsort]
  decide +kernel

/-! ## The relation -/

namespace Chunk

/-- Two chunks of one file overlap, or at most `gap` lines lead from one to the other. -/
def Touches (gap : Nat) (a b : Chunk) : Prop :=
  a.filePath = b.filePath ∧ b.Reaches gap a.startLine ∧ a.Reaches gap b.startLine

/-- A chunk lies in an earlier file, or more than the gap before another one in the same file. -/
def FarBefore (gap : Nat) (a b : Chunk) : Prop :=
  a.filePath < b.filePath ∨ a.filePath = b.filePath ∧ ¬ a.Reaches gap b.startLine

variable {a b c : Chunk}

/-- First lines are counts, so it makes no difference to them where a sum stops. -/
theorem touches_iff_of_lt (ha : a.startLine < countLimit) (hb : b.startLine < countLimit) :
    a.Touches gap b ↔ a.filePath = b.filePath ∧ a.startLine ≤ b.stopLine + gap ∧
      b.startLine ≤ a.stopLine + gap := by
  rw [Touches, reaches_iff_of_lt ha, reaches_iff_of_lt hb]

theorem Touches.symm (h : a.Touches gap b) : b.Touches gap a := ⟨h.1.symm, h.2.2, h.2.1⟩

theorem FarBefore.not_touches (h : a.FarBefore gap b) : ¬ a.Touches gap b := by
  rintro ⟨hfile, -, hnear⟩
  rcases h with hlt | ⟨-, hfar⟩
  · exact ne_of_lt hlt hfile
  · exact hfar hnear

/-- What lies far before a chunk lies far before all that it precedes. -/
theorem FarBefore.trans_precedes (h : a.FarBefore gap b) (hbc : b.Precedes c) :
    a.FarBefore gap c := by
  rcases h with hlt | ⟨hfile, hfar⟩
  · rcases hbc with hlt' | ⟨hfile', -⟩
    · exact Or.inl (lt_trans hlt hlt')
    · exact Or.inl (hfile' ▸ hlt)
  · rcases hbc with hlt' | ⟨hfile', hle⟩
    · exact Or.inl (hfile ▸ hlt')
    · exact Or.inr ⟨hfile.trans hfile', fun hreach => hfar (hreach.of_le hle)⟩

end Chunk

/-- A chain of chunks of a list leads from one chunk to another, each of which touches the next
one. -/
def Linked (gap : Nat) (chunks : List Chunk) : Chunk → Chunk → Prop :=
  Relation.ReflTransGen fun a b => a ∈ chunks ∧ b ∈ chunks ∧ a.Touches gap b

theorem Linked.symm {a b : Chunk} (h : Linked gap chunks a b) : Linked gap chunks b a := by
  induction h with
  | refl => exact .refl
  | tail _ hstep ih => exact .head ⟨hstep.2.1, hstep.1, hstep.2.2.symm⟩ ih

/-- The chunks of a list, in order, cut into groups: two chunks are in the same group exactly if
they are linked. -/
structure AreComponents (gap : Nat) (chunks : List Chunk) (groups : List (List Chunk)) : Prop where
  flatten_eq : groups.flatten = sortChunks chunks
  nil_notMem : [] ∉ groups
  linked : ∀ group ∈ groups, ∀ a ∈ group, ∀ b ∈ group, Linked gap chunks a b
  not_linked : groups.Pairwise fun group later => ∀ a ∈ group, ∀ b ∈ later, ¬ Linked gap chunks a b

/-- Where the front of a list lies far before its back, no link leads from one to the other. -/
theorem not_linked_of_farBefore {front back : List Chunk}
    (hlines : ∀ c ∈ chunks, c.startLine ≤ c.stopLine)
    (hmem : ∀ c ∈ chunks, c ∈ front ∨ c ∈ back)
    (hfar : ∀ a ∈ front, ∀ b ∈ back, a.FarBefore gap b) {a b : Chunk} (ha : a ∈ front)
    (hb : b ∈ back) (hbmem : b ∈ chunks) : ¬ Linked gap chunks a b := by
  intro h
  -- a link that begins in the front never leaves it
  have hfront : b ∈ front := by
    clear hb hbmem
    induction h with
    | refl => exact ha
    | @tail c d _ hstep hc =>
      rcases hmem d hstep.2.1 with hd | hd
      · exact hd
      · exact absurd hstep.2.2 (hfar c hc d hd).not_touches
  have hself : b.Touches gap b := by
    have hreach : b.Reaches gap b.startLine :=
      Chunk.reaches_of_le (Nat.le_add_right_of_le (hlines b hbmem))
    exact ⟨rfl, hreach, hreach⟩
  exact (hfar b hfront b hb).not_touches hself

/-! ## What a group becomes -/

instance : Preorder Single where
  le_refl x := Int.le_refl x.value
  le_trans _ _ _ hxy hyz := Int.le_trans hxy hyz
  lt_iff_le_not_ge x y := Int.lt_iff_le_and_not_ge (a := x.value) (b := y.value)

section

variable {α : Type} [Preorder α] {l : List α} {v x y : α}

theorem isLeast_concat (h : IsLeast {u | u ∈ l} x) (hy : y = x ∨ y = v) (hyx : y ≤ x)
    (hyv : y ≤ v) : IsLeast {u | u ∈ l ++ [v]} y := by
  constructor
  · rcases hy with rfl | rfl
    · exact List.mem_append_left _ h.1
    · exact List.mem_append_right _ (List.mem_singleton_self _)
  · intro u hu
    rcases List.mem_append.mp hu with hu | hu
    · exact le_trans hyx (h.2 hu)
    · exact List.mem_singleton.mp hu ▸ hyv

theorem isGreatest_concat (h : IsGreatest {u | u ∈ l} x) (hy : y = x ∨ y = v) (hxy : x ≤ y)
    (hvy : v ≤ y) : IsGreatest {u | u ∈ l ++ [v]} y :=
  isLeast_concat (α := αᵒᵈ) h hy hxy hvy

theorem isLeast_mem_singleton (v : α) : IsLeast {u | u ∈ [v]} v :=
  ⟨List.mem_singleton_self v, fun _ hu => le_of_eq (List.mem_singleton.mp hu).symm⟩

theorem isGreatest_mem_singleton (v : α) : IsGreatest {u | u ∈ [v]} v :=
  isLeast_mem_singleton (α := αᵒᵈ) v

end

/-- A known complexity is larger than none. -/
theorem largerComplexity_eq_max (a b : WithBot Nat) : largerComplexity a b = max a b := by
  cases a <;> cases b <;> rfl

namespace Chunk

/-- What a group of chunks of one file becomes when it is merged: a single chunk stays as it is,
several are joined over the lines that they take up. -/
structure IsMergeOf (c : Chunk) (group : List Chunk) : Prop where
  eq_of_singleton : ∀ d, group = [d] → c = d
  merged_eq : 2 ≤ group.length → c.merged = true
  filePath_eq : ∀ d ∈ group, d.filePath = c.filePath
  startLine_isLeast : IsLeast {n | n ∈ group.map startLine} c.startLine
  stopLine_isGreatest : IsGreatest {n | n ∈ group.map stopLine} c.stopLine
  complexity_isGreatest : IsGreatest {n : WithBot Nat | n ∈ group.map complexity} c.complexity
  confidence_isLeast : IsLeast {x | x ∈ group.map confidence} c.confidence
  content_eq : c.content = "\n".intercalate (group.map content)

theorem isMergeOf_singleton (c : Chunk) : c.IsMergeOf [c] where
  eq_of_singleton _ h := (List.cons.inj h).1
  merged_eq h := absurd h (by simp)
  filePath_eq d hd := congrArg filePath (List.mem_singleton.mp hd)
  startLine_isLeast := isLeast_mem_singleton c.startLine
  stopLine_isGreatest := isGreatest_mem_singleton c.stopLine
  complexity_isGreatest := isGreatest_mem_singleton (α := WithBot Nat) c.complexity
  confidence_isLeast := isLeast_mem_singleton c.confidence
  content_eq := by rw [List.map_singleton, String.intercalate_singleton]

variable {last next c : Chunk} {group : List Chunk}

theorem IsMergeOf.ne_nil (h : c.IsMergeOf group) : group ≠ [] := by
  rintro rfl
  exact absurd h.startLine_isLeast.1 List.not_mem_nil

/-- Some member of a group has the furthest end. -/
theorem IsMergeOf.exists_stopLine_eq (h : c.IsMergeOf group) :
    ∃ d ∈ group, d.stopLine = c.stopLine :=
  List.mem_map.mp h.stopLine_isGreatest.1

theorem IsMergeOf.exists_startLine_eq (h : c.IsMergeOf group) :
    ∃ d ∈ group, d.startLine = c.startLine :=
  List.mem_map.mp h.startLine_isLeast.1

theorem IsMergeOf.stopLine_le (h : c.IsMergeOf group) {d : Chunk} (hd : d ∈ group) :
    d.stopLine ≤ c.stopLine :=
  h.stopLine_isGreatest.2 (List.mem_map_of_mem hd)

/-- The step: a group with one more chunk, which begins no earlier, becomes the chunk that absorbs
this one. -/
theorem IsMergeOf.absorb (h : last.IsMergeOf group) (hfile : last.filePath = next.filePath)
    (hstart : last.startLine ≤ next.startLine) :
    (last.absorb next).IsMergeOf (group ++ [next]) where
  eq_of_singleton d hd := by
    have hlength := congrArg List.length hd
    have hpos := List.length_pos_iff.mpr h.ne_nil
    rw [List.length_append, List.length_singleton, List.length_singleton] at hlength
    omega
  merged_eq _ := rfl
  filePath_eq d hd := by
    rcases List.mem_append.mp hd with hd | hd
    · exact h.filePath_eq d hd
    · rw [List.mem_singleton.mp hd]
      exact hfile.symm
  startLine_isLeast := by
    rw [List.map_append]
    exact isLeast_concat h.startLine_isLeast (Or.inl rfl) (le_refl _) hstart
  stopLine_isGreatest := by
    rw [List.map_append]
    exact isGreatest_concat h.stopLine_isGreatest (max_choice _ _) (le_max_left _ _)
      (le_max_right _ _)
  complexity_isGreatest := by
    have hmax : (last.absorb next).complexity =
        max (α := WithBot Nat) last.complexity next.complexity := largerComplexity_eq_max _ _
    rw [List.map_append, hmax]
    exact isGreatest_concat (α := WithBot Nat) h.complexity_isGreatest (max_choice _ _)
      (le_max_left _ _) (le_max_right _ _)
  confidence_isLeast := by
    have hlesser : (last.absorb next).confidence = last.confidence.lesser next.confidence := rfl
    rw [List.map_append, hlesser, Single.lesser]
    split
    · rename_i hle
      exact isLeast_concat h.confidence_isLeast (Or.inl rfl) (le_refl _) hle
    · rename_i hgt
      exact isLeast_concat h.confidence_isLeast (Or.inr rfl) (le_of_lt (Int.not_le.mp hgt))
        (le_refl _)
  content_eq := by
    have hne : group.map content ≠ [] := fun hnil => h.ne_nil (List.map_eq_nil_iff.mp hnil)
    rw [List.map_append, List.map_singleton,
      String.intercalate_append_of_ne_nil hne (List.cons_ne_nil _ _),
      String.intercalate_singleton, ← h.content_eq]
    rfl

/-! ## Near and far -/

/-- A chunk that is near to what a group became touches the member with the furthest end. -/
theorem IsMergeOf.exists_touches (h : last.IsMergeOf group) (hnear : last.isNear gap next = true)
    (hline : next.startLine ≤ next.stopLine) (hprecedes : ∀ a ∈ group, a.Precedes next) :
    ∃ a ∈ group, a.Touches gap next := by
  obtain ⟨hfile, hreach⟩ := isNear_iff.mp hnear
  obtain ⟨a, ha, hstop⟩ := h.exists_stopLine_eq
  have hafile : a.filePath = next.filePath := (h.filePath_eq a ha).trans hfile
  have hastart := (hprecedes a ha).startLine_le hafile
  exact ⟨a, ha, hafile, reaches_of_le (by omega), hreach.mono (Nat.le_of_eq hstop.symm)⟩

/-- A chunk that is not near to what a group became lies far behind all of its members. -/
theorem IsMergeOf.farBefore_of_not_isNear (h : last.IsMergeOf group)
    (hfar : ¬ last.isNear gap next = true) (hprecedes : ∀ a ∈ group, a.Precedes next) :
    ∀ a ∈ group, a.FarBefore gap next := by
  intro a ha
  rcases hprecedes a ha with hlt | ⟨hfile, -⟩
  · exact Or.inl hlt
  · refine Or.inr ⟨hfile, fun hreach => hfar (isNear_iff.mpr ?_)⟩
    exact ⟨(h.filePath_eq a ha).symm.trans hfile, hreach.mono (h.stopLine_le ha)⟩

/-- Of two groups that lie far apart, so do the chunks that they become. -/
theorem IsMergeOf.farBefore {later : List Chunk} (h : last.IsMergeOf group)
    (hnext : next.IsMergeOf later) (hfar : ∀ a ∈ group, ∀ b ∈ later, a.FarBefore gap b) :
    last.FarBefore gap next := by
  obtain ⟨a, ha, hstop⟩ := h.exists_stopLine_eq
  obtain ⟨b, hb, hstart⟩ := hnext.exists_startLine_eq
  have hab := hfar a ha b hb
  rwa [FarBefore, Reaches, h.filePath_eq a ha, hnext.filePath_eq b hb, hstop, hstart] at hab

theorem IsMergeOf.startLine_le (h : last.IsMergeOf group) (hfile : last.filePath = next.filePath)
    (hprecedes : ∀ a ∈ group, a.Precedes next) : last.startLine ≤ next.startLine := by
  obtain ⟨a, ha, hstart⟩ := h.exists_startLine_eq
  rw [← hstart]
  exact (hprecedes a ha).startLine_le ((h.filePath_eq a ha).trans hfile)

end Chunk

/-! ## The run -/

/-- Chunks in order, cut into groups of linked chunks that lie far apart. -/
structure AreGroups (gap : Nat) (chunks ordered : List Chunk) (groups : List (List Chunk)) :
    Prop where
  flatten_eq : groups.flatten = ordered
  linked : ∀ group ∈ groups, ∀ a ∈ group, ∀ b ∈ group, Linked gap chunks a b
  farBefore : groups.Pairwise fun group later => ∀ a ∈ group, ∀ b ∈ later, a.FarBefore gap b

/-- A chunk that touches a member of a group of linked chunks is linked to all of them. -/
theorem linked_concat {group : List Chunk} {next : Chunk}
    (hlinked : ∀ a ∈ group, ∀ b ∈ group, Linked gap chunks a b)
    (hsub : group ++ [next] ⊆ chunks) (htouches : ∃ a ∈ group, a.Touches gap next) :
    ∀ a ∈ group ++ [next], ∀ b ∈ group ++ [next], Linked gap chunks a b := by
  obtain ⟨c, hc, htouches⟩ := htouches
  have hnext : ∀ a ∈ group, Linked gap chunks a next := fun a ha =>
    (hlinked a ha c hc).tail ⟨hsub (List.mem_append_left _ hc),
      hsub (List.mem_append_right _ (List.mem_singleton_self next)), htouches⟩
  intro a ha b hb
  rcases List.mem_append.mp ha with ha | ha
  · rcases List.mem_append.mp hb with hb | hb
    · exact hlinked a ha b hb
    · exact List.mem_singleton.mp hb ▸ hnext a ha
  · rw [List.mem_singleton.mp ha]
    rcases List.mem_append.mp hb with hb | hb
    · exact (hnext b hb).symm
    · exact List.mem_singleton.mp hb ▸ .refl

/-- Going through chunks in order, while one is held for the group `held`. -/
theorem exists_groups_mergeFrom (hlines : ∀ c ∈ chunks, c.startLine ≤ c.stopLine) :
    ∀ (rest held : List Chunk) {last : Chunk}, last.IsMergeOf held → held ++ rest ⊆ chunks →
      (held ++ rest).Pairwise Chunk.Precedes →
      (∀ a ∈ held, ∀ b ∈ held, Linked gap chunks a b) →
      ∃ groups, AreGroups gap chunks (held ++ rest) groups ∧
        List.Forall₂ Chunk.IsMergeOf (mergeFrom gap last rest) groups
  | [], held, last, hmerge, _, _, hlinked => by
    refine ⟨[held], ⟨by simp, ?_, List.pairwise_singleton _ _⟩, .cons hmerge .nil⟩
    intro group hgroup
    rwa [List.mem_singleton.mp hgroup]
  | next :: rest, held, last, hmerge, hsub, hsorted, hlinked => by
    have hprecedes : ∀ a ∈ held, ∀ b ∈ next :: rest, a.Precedes b :=
      (List.pairwise_append.mp hsorted).2.2
    have hnext : ∀ a ∈ held, a.Precedes next := fun a ha => hprecedes a ha next List.mem_cons_self
    rw [mergeFrom]
    split
    · rename_i hnear
      have hgrown : held ++ next :: rest = held ++ [next] ++ rest := by simp
      rw [hgrown] at hsub hsorted ⊢
      have hsub' : held ++ [next] ⊆ chunks := fun c hc => hsub (List.mem_append_left _ hc)
      have hline := hlines next (hsub' (List.mem_append_right _ (List.mem_singleton_self next)))
      have hfile := Chunk.filePath_eq_of_isNear hnear
      exact exists_groups_mergeFrom hlines rest (held ++ [next])
        (hmerge.absorb hfile (hmerge.startLine_le hfile hnext)) hsub hsorted
        (linked_concat hlinked hsub' (hmerge.exists_touches hnear hline hnext))
    · rename_i hfar
      obtain ⟨groups, hgroups, hmerged⟩ := exists_groups_mergeFrom hlines rest [next]
        (Chunk.isMergeOf_singleton next) (fun c hc => hsub (List.mem_append_right _ hc))
        (List.pairwise_append.mp hsorted).2.1
        (fun a ha b hb => List.mem_singleton.mp ha ▸ List.mem_singleton.mp hb ▸ .refl)
      refine ⟨held :: groups, ⟨?_, ?_, ?_⟩, .cons hmerge hmerged⟩
      · rw [List.flatten_cons, hgroups.flatten_eq]
        rfl
      · exact List.forall_mem_cons.mpr ⟨hlinked, hgroups.linked⟩
      · refine List.pairwise_cons.mpr ⟨fun later hlater a ha b hb => ?_, hgroups.farBefore⟩
        have hb : b ∈ next :: rest := by
          have hflat : b ∈ groups.flatten := List.mem_flatten.mpr ⟨later, hlater, hb⟩
          rwa [hgroups.flatten_eq] at hflat
        have hfirst := hmerge.farBefore_of_not_isNear hfar hnext a ha
        rcases List.mem_cons.mp hb with rfl | hb
        · exact hfirst
        · exact hfirst.trans_precedes
            ((List.pairwise_cons.mp (List.pairwise_append.mp hsorted).2.1).1 b hb)

/-- Groups that lie far apart are not linked, when they are all that comes behind some chunks that
lie far before them. -/
theorem pairwise_not_linked (hlines : ∀ c ∈ chunks, c.startLine ≤ c.stopLine) :
    ∀ (groups : List (List Chunk)) (front : List Chunk), groups.flatten ⊆ chunks →
      (∀ c ∈ chunks, c ∈ front ∨ c ∈ groups.flatten) →
      (∀ a ∈ front, ∀ b ∈ groups.flatten, a.FarBefore gap b) →
      (groups.Pairwise fun group later => ∀ a ∈ group, ∀ b ∈ later, a.FarBefore gap b) →
        groups.Pairwise fun group later => ∀ a ∈ group, ∀ b ∈ later, ¬ Linked gap chunks a b
  | [], _, _, _, _, _ => List.Pairwise.nil
  | group :: groups, front, hsub, hmem, hfront, hfar => by
    obtain ⟨hgroup, hfar⟩ := List.pairwise_cons.mp hfar
    rw [List.flatten_cons] at hsub hmem hfront
    have hsub' : groups.flatten ⊆ chunks := fun c hc => hsub (List.mem_append_right _ hc)
    have hmem' : ∀ c ∈ chunks, c ∈ front ++ group ∨ c ∈ groups.flatten := by
      intro c hc
      rw [List.mem_append, or_assoc, ← List.mem_append]
      exact hmem c hc
    have hfront' : ∀ a ∈ front ++ group, ∀ b ∈ groups.flatten, a.FarBefore gap b := by
      intro a ha b hb
      rcases List.mem_append.mp ha with ha | ha
      · exact hfront a ha b (List.mem_append_right _ hb)
      · obtain ⟨later, hlater, hb⟩ := List.mem_flatten.mp hb
        exact hgroup later hlater a ha b hb
    refine List.pairwise_cons.mpr
      ⟨fun later hlater a ha b hb => ?_,
        pairwise_not_linked hlines groups _ hsub' hmem' hfront' hfar⟩
    have hb : b ∈ groups.flatten := List.mem_flatten.mpr ⟨later, hlater, hb⟩
    exact not_linked_of_farBefore hlines hmem' hfront' (List.mem_append_right _ ha) hb (hsub' hb)

theorem AreGroups.areComponents (hlines : ∀ c ∈ chunks, c.startLine ≤ c.stopLine)
    {groups : List (List Chunk)} (h : AreGroups gap chunks (sortChunks chunks) groups)
    (hne : [] ∉ groups) : AreComponents gap chunks groups where
  flatten_eq := h.flatten_eq
  nil_notMem := hne
  linked := h.linked
  not_linked := by
    have hmem : ∀ c, c ∈ groups.flatten ↔ c ∈ chunks := by
      intro c
      rw [h.flatten_eq, sortChunks, List.mem_mergeSort]
    refine pairwise_not_linked hlines groups [] (fun c hc => (hmem c).mp hc)
      (fun c hc => Or.inr ((hmem c).mpr hc)) ?_ h.farBefore
    exact fun a ha => absurd ha List.not_mem_nil

/-! ## What is given out -/

theorem exists_group_of_mem : ∀ {merged : List Chunk} {groups : List (List Chunk)},
    List.Forall₂ Chunk.IsMergeOf merged groups → ∀ c ∈ merged, ∃ group ∈ groups, c.IsMergeOf group
  | _, _, .nil, c, hc => absurd hc List.not_mem_nil
  | _, _, .cons hfirst hrest, c, hc => by
    rcases List.mem_cons.mp hc with rfl | hc
    · exact ⟨_, List.mem_cons_self, hfirst⟩
    · obtain ⟨group, hgroup, hc⟩ := exists_group_of_mem hrest c hc
      exact ⟨group, List.mem_cons_of_mem _ hgroup, hc⟩

theorem nil_notMem_of_forall₂ {merged : List Chunk} : ∀ {groups : List (List Chunk)},
    List.Forall₂ Chunk.IsMergeOf merged groups → [] ∉ groups
  | _, .nil => List.not_mem_nil
  | _, .cons hfirst hrest => by
    rw [List.mem_cons, not_or]
    exact ⟨hfirst.ne_nil.symm, nil_notMem_of_forall₂ hrest⟩

/-- Groups that lie far apart become chunks that lie far apart. -/
theorem pairwise_farBefore : ∀ {merged : List Chunk} {groups : List (List Chunk)},
    List.Forall₂ Chunk.IsMergeOf merged groups →
      (groups.Pairwise fun group later => ∀ a ∈ group, ∀ b ∈ later, a.FarBefore gap b) →
        merged.Pairwise (Chunk.FarBefore gap)
  | _, _, .nil, _ => List.Pairwise.nil
  | _, _, .cons hfirst hrest, hfar => by
    obtain ⟨hgroup, hfar⟩ := List.pairwise_cons.mp hfar
    refine List.pairwise_cons.mpr ⟨fun c hc => ?_, pairwise_farBefore hrest hfar⟩
    obtain ⟨later, hlater, hc⟩ := exists_group_of_mem hrest c hc
    exact hfirst.farBefore hc (hgroup later hlater)

theorem exists_groups_mergeAdjacent (gap : Nat)
    (hlines : ∀ c ∈ chunks, c.startLine ≤ c.stopLine) :
    ∃ groups, AreGroups gap chunks (sortChunks chunks) groups ∧
      List.Forall₂ Chunk.IsMergeOf (mergeAdjacent gap chunks) groups := by
  have hsub : sortChunks chunks ⊆ chunks := fun c hc => List.mem_mergeSort.mp hc
  have hsorted := pairwise_precedes_sortChunks chunks
  rw [mergeAdjacent_eq]
  cases hsort : sortChunks chunks with
  | nil => exact ⟨[], ⟨rfl, fun _ h => absurd h List.not_mem_nil, List.Pairwise.nil⟩, .nil⟩
  | cons first rest =>
    rw [hsort] at hsub hsorted
    refine exists_groups_mergeFrom hlines rest [first] (Chunk.isMergeOf_singleton first) hsub
      hsorted fun a ha b hb => ?_
    exact List.mem_singleton.mp ha ▸ List.mem_singleton.mp hb ▸ .refl

/-- Merging gives out one chunk for each connected component of the chunks that touch each other, in
the order of files and first lines: a single chunk as it is, several joined to one over all their
lines, with the contents in order.  What is given out for one file lies more than the gap apart.
Where first lines are counts, two chunks touch as they would if sums had no limit. -/
theorem exists_components_mergeAdjacent (gap : Nat) {chunks : List Chunk}
    (hlines : ∀ c ∈ chunks, c.startLine ≤ c.stopLine) :
    (∃ groups, AreComponents gap chunks groups ∧
      List.Forall₂ Chunk.IsMergeOf (mergeAdjacent gap chunks) groups ∧
      ((mergeAdjacent gap chunks).Pairwise fun a b =>
        toLex (a.filePath, a.startLine) < toLex (b.filePath, b.startLine)) ∧
      (mergeAdjacent gap chunks).Pairwise fun a b =>
        a.filePath = b.filePath → a.stopLine + gap < b.startLine) ∧
    ∀ a ∈ chunks, ∀ b ∈ chunks, a.startLine < countLimit → b.startLine < countLimit →
      (a.Touches gap b ↔ a.filePath = b.filePath ∧ a.startLine ≤ b.stopLine + gap ∧
        b.startLine ≤ a.stopLine + gap) := by
  refine ⟨?_, fun a _ b _ => Chunk.touches_iff_of_lt⟩
  obtain ⟨groups, hgroups, hmerged⟩ := exists_groups_mergeAdjacent gap hlines
  have hfar : (mergeAdjacent gap chunks).Pairwise (Chunk.FarBefore gap) :=
    pairwise_farBefore hmerged hgroups.farBefore
  have horder : ∀ c ∈ mergeAdjacent gap chunks, c.startLine ≤ c.stopLine :=
    forall_mem_mergeAdjacent (P := fun c => c.startLine ≤ c.stopLine)
      (fun _ _ hinto _ => Nat.le_trans hinto (Nat.le_max_left _ _)) hlines
  refine ⟨groups, hgroups.areComponents hlines (nil_notMem_of_forall₂ hmerged), hmerged, ?_, ?_⟩
  · refine hfar.imp_of_mem fun {a b} ha _ hab => Prod.Lex.toLex_lt_toLex.mpr ?_
    rcases hab with hlt | ⟨hfile, hfar⟩
    · exact Or.inl hlt
    · have hline := horder a ha
      have hgap := Chunk.lt_of_not_reaches hfar
      exact Or.inr ⟨hfile, by omega⟩
  · refine hfar.imp fun {a b} hab hfile => ?_
    rcases hab with hlt | ⟨-, hfar⟩
    · exact absurd hfile (ne_of_lt hlt)
    · exact Chunk.lt_of_not_reaches hfar

/-- A long chunk brings two short ones together, a fourth lies two lines behind it, and a fifth in
another file; the widest gap leaves one chunk for each file. -/
theorem exists_components_of_bridge :
    let chunk (name file : String) (start stop : Nat) : Chunk :=
      ChunkDraft.build
        { content := name, startLine := start, stopLine := stop, language := "rust",
          kind := .function, name := some name, filePath := file } start stop
    let chunks := [chunk "a" "f.rs" 1 9, chunk "b" "f.rs" 2 3, chunk "c" "f.rs" 8 8,
      chunk "d" "f.rs" 11 12, chunk "e" "g.rs" 1 1].reverse
    (mergeAdjacent 1 chunks).map (fun c => (c.content, c.startLine, c.stopLine, c.merged)) =
        [("a\nb\nc", 1, 9, true), ("d", 11, 12, false), ("e", 1, 1, false)] ∧
      (∃ groups, AreComponents 1 chunks groups ∧ groups.length = 3) ∧
        ∃ groups, AreComponents (countLimit - 1) chunks groups ∧ groups.length = 2 := by
  intro chunk chunks
  have hlines : ∀ c ∈ chunks, c.startLine ≤ c.stopLine := by decide +kernel
  have hsort : sortChunks chunks = chunks.reverse :=
    (sortChunks_eq_of_perm (List.reverse_perm chunks).symm (by decide +kernel)).trans
      (List.mergeSort_of_pairwise (by decide +kernel))
  obtain ⟨⟨groups, hgroups, hmerged, -⟩, -⟩ := exists_components_mergeAdjacent 1 hlines
  obtain ⟨⟨groups', hgroups', hmerged', -⟩, -⟩ :=
    exists_components_mergeAdjacent (countLimit - 1) hlines
  have hlength := hmerged.length_eq
  have hlength' := hmerged'.length_eq
  rw [mergeAdjacent_eq, hsort] at hlength hlength' ⊢
  exact ⟨by decide +kernel, ⟨groups, hgroups, hlength.symm.trans (by decide +kernel)⟩,
    groups', hgroups', hlength'.symm.trans (by decide +kernel)⟩

end Outline

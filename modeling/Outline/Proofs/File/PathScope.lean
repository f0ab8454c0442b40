import Outline.Proofs.File.Chunks

/-!
# Identities and paths

The key of a chunk is its kind, its name, its first line and its path with colons between them.  A
name may hold colons, and so may a path, so a key does not tell where its path begins: what one
reads as the end of a name and a line, another may read as the beginning of a path.

Two different paths can be read into one key exactly when one of them ends in a line number, a
colon and the other one (`exists_chunkKey_eq_iff`).  That the digits of a line hold no colon is all
that the argument needs: both paths are ends of the key, and the shorter one stands behind the
digits of its line.  In particular a path without a colon is never mistaken for another one
(`not_shadows_of_colon_notMem`).

* `Shadows`: a path that ends like a key of another path.
* `eq_or_shadows_of_chunkKey_eq`, `exists_chunkKey_eq_of_shadows`: the two directions.
* `disjoint_chunks_of_paths`: the chunks of two files.
-/

namespace Outline

/-- A path that, behind a colon, ends in the digits of a line, a colon and another path. -/
def Shadows (p q : String) : Prop :=
  ∃ line, ':' :: ((decimal line).toList ++ ':' :: q.toList) <:+ ':' :: p.toList

theorem not_shadows_of_colon_notMem {p q : String} (h : ':' ∉ p.toList) : ¬ Shadows p q := by
  rintro ⟨line, front, hfront⟩
  have hmem : ':' ∈ (decimal line).toList ++ ':' :: q.toList :=
    List.mem_append_right _ List.mem_cons_self
  cases front with
  | nil => exact h ((List.cons.inj hfront).2 ▸ hmem)
  | cons c front =>
    rw [← (List.cons.inj hfront).2] at h
    exact h (List.mem_append_right front (List.mem_cons_of_mem ':' hmem))

/-! ## Reading the path back from a key -/

/-- Of two ends of a text that begin with a colon, where the shorter one follows digits between
colons, the longer one takes in these digits. -/
theorem suffix_of_digits {text digits ps qs : Text} (hdigits : ':' ∉ digits)
    (hps : ':' :: ps <:+ text) (hqs : ':' :: (digits ++ ':' :: qs) <:+ text)
    (hlt : qs.length < ps.length) : ':' :: (digits ++ ':' :: qs) <:+ ':' :: ps := by
  rcases List.suffix_or_suffix_of_suffix hqs hps with h | ⟨front, h⟩
  · exact h
  · cases front with
    | nil => exact h ▸ List.suffix_refl _
    | cons c front =>
      obtain ⟨-, h⟩ := List.cons.inj h
      rcases List.append_eq_append_iff.mp h with ⟨as, has, htail⟩ | ⟨as, -, htail⟩
      · cases as with
        | nil =>
          obtain ⟨-, rfl⟩ := List.cons.inj htail
          exact absurd hlt (Nat.lt_irrefl _)
        | cons d as =>
          -- the longer end would begin at a colon among the digits
          obtain ⟨rfl, -⟩ := List.cons.inj htail
          exact absurd (has ▸ List.mem_append_right front List.mem_cons_self) hdigits
      · have hlength := congrArg List.length htail
        simp only [List.length_cons, List.length_append] at hlength
        omega

/-- The end of a key: the line and the path, each behind a colon. -/
theorem suffix_chunkKey (kind : Kind) (name : Option String) (line : Nat) (path : String) :
    ':' :: ((decimal line).toList ++ ':' :: path.toList) <:+
      (chunkKey kind name line path).toList := by
  rw [toList_chunkKey, List.append_assoc]
  exact List.suffix_append _ _

theorem path_suffix_chunkKey (kind : Kind) (name : Option String) (line : Nat) (path : String) :
    ':' :: path.toList <:+ (chunkKey kind name line path).toList := by
  rw [toList_chunkKey]
  exact List.suffix_append _ _

/-- Chunks with one key belong to one path, or the longer path ends in a line and the other one. -/
theorem eq_or_shadows_of_chunkKey_eq {kind kind' : Kind} {name name' : Option String}
    {line line' : Nat} {p q : String}
    (h : chunkKey kind name line p = chunkKey kind' name' line' q) :
    p = q ∨ Shadows p q ∨ Shadows q p := by
  have hp := path_suffix_chunkKey kind name line p
  have hq := path_suffix_chunkKey kind' name' line' q
  rcases Nat.lt_trichotomy p.toList.length q.toList.length with hlt | heq | hlt
  · right; right
    rw [← h] at hq
    exact ⟨line, suffix_of_digits (colon_notMem_decimal line) hq
      (suffix_chunkKey kind name line p) hlt⟩
  · left
    rw [← h] at hq
    have hlength : (':' :: p.toList).length = (':' :: q.toList).length := by
      rw [List.length_cons, List.length_cons, heq]
    have hsuffix := List.suffix_of_suffix_length_le hp hq (Nat.le_of_eq hlength)
    have hsame := hsuffix.eq_of_length hlength
    exact String.toList_injective (List.cons.inj hsame).2
  · right; left
    rw [h] at hp
    exact ⟨line', suffix_of_digits (colon_notMem_decimal line') hp
      (suffix_chunkKey kind' name' line' q) hlt⟩

/-- Where a path ends in a line and another path, a name that takes in the rest of it makes the
keys equal. -/
theorem exists_chunkKey_eq_of_shadows {p q : String} (h : Shadows p q) (kind : Kind)
    (name : Option String) (line : Nat) :
    ∃ name' line', chunkKey kind name line p = chunkKey kind name' line' q := by
  obtain ⟨line', front, hfront⟩ := h
  refine ⟨some (name.getD "" ++ ":" ++ decimal line ++ String.ofList front), line', ?_⟩
  refine String.toList_injective ?_
  rw [toList_chunkKey, toList_chunkKey, ← hfront]
  simp

/-- Two different paths can be read into one key exactly when one of them ends in a line, a colon
and the other one. -/
theorem exists_chunkKey_eq_iff {p q : String} (hne : p ≠ q) :
    (∃ kind name line kind' name' line',
        chunkKey kind name line p = chunkKey kind' name' line' q) ↔ Shadows p q ∨ Shadows q p := by
  constructor
  · rintro ⟨kind, name, line, kind', name', line', h⟩
    exact (eq_or_shadows_of_chunkKey_eq h).resolve_left hne
  · rintro (h | h)
    · obtain ⟨name', line', heq⟩ := exists_chunkKey_eq_of_shadows h .function none 1
      exact ⟨.function, none, 1, .function, name', line', heq⟩
    · obtain ⟨name', line', heq⟩ := exists_chunkKey_eq_of_shadows h .function none 1
      exact ⟨.function, name', line', .function, none, 1, heq.symm⟩

/-! ## The chunks of two files -/

theorem isSound_of_mem_chunks {parser : Option ParserService} {s : Settings} {content : Text}
    {language filePath : String} {a : FileAnalysis}
    (h : analyseContent parser s content language filePath = .ok a) :
    ∀ c ∈ a.chunks, c.IsSound filePath := by
  obtain ⟨chunks, hchunks, ha⟩ := exists_chunks_of_analyseContent h
  rw [ha]
  exact isSound_of_mem_select (isSound_of_mem_chunksOf hchunks)

/-- Sound chunks of two files have different keys, unless one path shadows the other. -/
theorem Chunk.IsSound.key_ne {p q : String} {c d : Chunk} (hc : c.IsSound p) (hd : d.IsSound q)
    (hne : p ≠ q) (hshadows : ¬ (Shadows p q ∨ Shadows q p)) : c.key ≠ d.key := by
  intro hkey
  rw [Chunk.key, Chunk.key, hc.filePath_eq, hd.filePath_eq] at hkey
  exact hshadows ((eq_or_shadows_of_chunkKey_eq hkey).resolve_left hne)

/-- Two different paths can be read into one key exactly when one of them ends in a line, a colon
and the other one.  Where this is not so, whatever the analyses under the two paths find, no key of
one is a key of the other, and no identity either where the digest tells the keys apart. -/
theorem disjoint_chunks_of_paths {p q : String} (hne : p ≠ q) :
    ((∃ kind name line kind' name' line',
        chunkKey kind name line p = chunkKey kind' name' line' q) ↔ Shadows p q ∨ Shadows q p) ∧
    (¬ (Shadows p q ∨ Shadows q p) →
      ∀ (parser : Option ParserService) (s : Settings) (content : Text) (language : String)
        (a b : FileAnalysis), analyseContent parser s content language p = .ok a →
        analyseContent parser s content language q = .ok b →
          (∀ c ∈ a.chunks, ∀ d ∈ b.chunks, c.key ≠ d.key) ∧
          (Digest.Md5.CollisionFree (a.chunks.map Chunk.key ++ b.chunks.map Chunk.key) →
            ∀ c ∈ a.chunks, ∀ d ∈ b.chunks, c.id ≠ d.id)) := by
  refine ⟨exists_chunkKey_eq_iff hne, fun hshadows parser s content language a b ha hb => ?_⟩
  have hsoundA := isSound_of_mem_chunks ha
  have hsoundB := isSound_of_mem_chunks hb
  have hkey : ∀ c ∈ a.chunks, ∀ d ∈ b.chunks, c.key ≠ d.key :=
    fun c hc d hd => (hsoundA c hc).key_ne (hsoundB d hd) hne hshadows
  refine ⟨hkey, fun hfree c hc d hd hid => ?_⟩
  rw [(hsoundA c hc).id_eq_hexOf_key, (hsoundB d hd).id_eq_hexOf_key] at hid
  exact hkey c hc d hd (hfree c.key (List.mem_append_left _ (List.mem_map_of_mem hc)) d.key
    (List.mem_append_right _ (List.mem_map_of_mem hd)) hid)

/-- The same function in two files. -/
theorem disjoint_chunks_of_function :
    ∃ a b, analyseContent none {} "def f(): pass\n".toList "python" "a.py" = .ok a ∧
      analyseContent none {} "def f(): pass\n".toList "python" "b/a.py" = .ok b ∧
      a.chunks.length = 1 ∧ b.chunks.length = 1 ∧
      ∀ c ∈ a.chunks, ∀ d ∈ b.chunks, c.id ≠ d.id := by
  obtain ⟨a, ha, hcomputedA⟩ : ∃ a, analyseContent none {} "def f(): pass\n".toList "python"
      "a.py" = .ok a ∧ decide (a.chunks.map Chunk.key = ["function:f:1:a.py"]) = true :=
    exists_ok_of_any (by decide +kernel)
  obtain ⟨b, hb, hcomputedB⟩ : ∃ b, analyseContent none {} "def f(): pass\n".toList "python"
      "b/a.py" = .ok b ∧ decide (b.chunks.map Chunk.key = ["function:f:1:b/a.py"]) = true :=
    exists_ok_of_any (by decide +kernel)
  have hkeysA := of_decide_eq_true hcomputedA
  have hkeysB := of_decide_eq_true hcomputedB
  have hshadows : ¬ (Shadows "a.py" "b/a.py" ∨ Shadows "b/a.py" "a.py") :=
    not_or.mpr ⟨not_shadows_of_colon_notMem (by decide), not_shadows_of_colon_notMem (by decide)⟩
  obtain ⟨-, hdisjoint⟩ := (disjoint_chunks_of_paths (p := "a.py") (q := "b/a.py")
    (by decide)).2 hshadows none {} "def f(): pass\n".toList "python" a b ha hb
  refine ⟨a, b, ha, hb, ?_, ?_, hdisjoint ?_⟩
  · simpa using congrArg List.length hkeysA
  · simpa using congrArg List.length hkeysB
  · rw [hkeysA, hkeysB]
    decide +kernel

/-- Two sections, the second named like the first with its line: under a path that begins with
the line of the second, the first has the key that the second has under the rest of the path. -/
theorem exists_id_eq_of_two_paths :
    ∃ a b, analyseContent none {} "# x\n# x:1\n".toList "markdown" "2:b.md" = .ok a ∧
      analyseContent none {} "# x\n# x:1\n".toList "markdown" "b.md" = .ok b ∧
      ∃ c ∈ a.chunks, ∃ d ∈ b.chunks, c.id = d.id := by
  obtain ⟨a, ha, hcomputedA⟩ : ∃ a, analyseContent none {} "# x\n# x:1\n".toList "markdown"
      "2:b.md" = .ok a ∧ decide (∃ c ∈ a.chunks, c.key = "section:x:1:2:b.md") = true :=
    exists_ok_of_any (by decide +kernel)
  obtain ⟨b, hb, hcomputedB⟩ : ∃ b, analyseContent none {} "# x\n# x:1\n".toList "markdown"
      "b.md" = .ok b ∧ decide (∃ d ∈ b.chunks, d.key = "section:x:1:2:b.md") = true :=
    exists_ok_of_any (by decide +kernel)
  obtain ⟨c, hc, hkeyC⟩ := of_decide_eq_true hcomputedA
  obtain ⟨d, hd, hkeyD⟩ := of_decide_eq_true hcomputedB
  refine ⟨a, b, ha, hb, c, hc, d, hd, ?_⟩
  rw [(isSound_of_mem_chunks ha c hc).id_eq_hexOf_key,
    (isSound_of_mem_chunks hb d hd).id_eq_hexOf_key, hkeyC, hkeyD]

end Outline

import Outline.Chunk.Operations

/-!
# The identity of a chunk

The identity of a chunk is the digest of a text put together from its kind, its name, its first
line and its file.  Everything else that a chunk says about itself can be wrong without any harm
to an index; the identity cannot, because it is what a chunk is stored under.  `Chunk.IsSound`
collects what has to hold: the two digests belong to the present fields, the lines are in order,
there is a complexity, and the chunk belongs to the file it was made for.

Soundness holds of a chunk when it is made (`ChunkDraft.isSound_build`), and one chunk that absorbs
another stays sound (`Chunk.isSound_absorb`), although nearly all of its fields change.

* `Chunk.key`: the text that is digested.
* `chunkKey_startLine_inj`: in one file, chunks with the same key begin on the same line.  A name
  may hold colons, but the line is written in digits between the last two colons before the path,
  so it can be read back.
* `chunkKey_inj`: then kind and name can be read back as well, because no kind holds a colon.
* `Digest.Md5.CollisionFree`: the digest tells the texts of a list apart.
-/

namespace Outline

/-! ## Reading the first line back from a key -/

theorem decimal_injective {m n : Nat} (h : decimal m = decimal n) : m = n := by
  have hdigits : Nat.toDigits 10 m = Nat.toDigits 10 n := String.ofList_injective h
  rw [← Nat.ofDigitChars_ten_toDigits (n := m), hdigits, Nat.ofDigitChars_ten_toDigits]

theorem colon_notMem_decimal (n : Nat) : ':' ∉ (decimal n).toList := by
  rw [decimal, String.toList_ofList]
  intro h
  exact absurd (Nat.isDigit_of_mem_toDigits (by omega) (by omega) h) (by decide)

/-- What stands behind the last of some characters is determined. -/
theorem eq_of_append_cons_eq {α : Type} {c : α} {xs xs' ys ys' : List α} (hys : c ∉ ys)
    (hys' : c ∉ ys') (h : xs ++ c :: ys = xs' ++ c :: ys') : ys = ys' := by
  rcases List.append_eq_append_iff.mp h with ⟨as, -, has⟩ | ⟨as, -, has⟩
  all_goals
    cases as with
    | nil => simp_all
    | cons a as =>
      obtain ⟨-, hrest⟩ := List.cons.inj has
      simp_all

/-- A key in its parts: kind and name, the digits of the line, the path. -/
theorem toList_chunkKey (kind : Kind) (name : Option String) (startLine : Nat)
    (filePath : String) :
    (chunkKey kind name startLine filePath).toList =
      ((kind.name ++ ":" ++ name.getD "").toList ++ ':' :: (decimal startLine).toList) ++
        ':' :: filePath.toList := by
  simp [chunkKey]

theorem chunkKey_startLine_inj {kind kind' : Kind} {name name' : Option String}
    {startLine startLine' : Nat} {filePath : String}
    (h : chunkKey kind name startLine filePath = chunkKey kind' name' startLine' filePath) :
    startLine = startLine' := by
  have hchars := congrArg String.toList h
  rw [toList_chunkKey, toList_chunkKey] at hchars
  have hfront := List.append_cancel_right hchars
  have hdigits := eq_of_append_cons_eq (colon_notMem_decimal startLine)
    (colon_notMem_decimal startLine') hfront
  exact decimal_injective (String.toList_injective hdigits)

/-! ## Reading kind and name back -/

theorem Kind.ofName_name (k : Kind) : Kind.ofName k.name = k := by
  cases k <;> decide

theorem Kind.name_injective {k k' : Kind} (h : k.name = k'.name) : k = k' := by
  rw [← k.ofName_name, h, k'.ofName_name]

theorem Kind.colon_notMem_name (k : Kind) : ':' ∉ k.name.toList := by
  cases k <;> decide

/-- In one file a key can be read back.  Behind the line that is known there remain the kind, a
colon and the name, and no kind holds a colon. -/
theorem chunkKey_inj {kind kind' : Kind} {name name' : Option String} {startLine startLine' : Nat}
    {filePath : String}
    (h : chunkKey kind name startLine filePath = chunkKey kind' name' startLine' filePath) :
    kind = kind' ∧ name.getD "" = name'.getD "" ∧ startLine = startLine' := by
  obtain rfl := chunkKey_startLine_inj h
  have hchars := congrArg String.toList h
  rw [toList_chunkKey, toList_chunkKey] at hchars
  have hfront := List.append_cancel_right (List.append_cancel_right hchars)
  have hback : (name.getD "").toList.reverse ++ ':' :: kind.name.toList.reverse =
      (name'.getD "").toList.reverse ++ ':' :: kind'.name.toList.reverse := by
    simpa using congrArg List.reverse hfront
  have hkind : kind.name.toList.reverse = kind'.name.toList.reverse :=
    eq_of_append_cons_eq (by simpa using kind.colon_notMem_name)
      (by simpa using kind'.colon_notMem_name) hback
  have hname := List.append_cancel_right (hkind ▸ hback)
  exact ⟨Kind.name_injective (String.toList_injective (List.reverse_inj.mp hkind)),
    String.toList_injective (List.reverse_inj.mp hname), rfl⟩

/-! ## The digest -/

/-- The digest has different values on different texts of a list. -/
def Digest.Md5.CollisionFree (texts : List String) : Prop :=
  ∀ x ∈ texts, ∀ y ∈ texts, hexOf x = hexOf y → x = y

instance (texts : List String) : Decidable (Digest.Md5.CollisionFree texts) :=
  inferInstanceAs (Decidable (∀ x ∈ texts, ∀ y ∈ texts, _ → x = y))

/-! ## Sound chunks -/

namespace Chunk

/-- The text that identifies a chunk. -/
def key (c : Chunk) : String := chunkKey c.kind c.name c.startLine c.filePath

/-- A chunk of a file whose digests belong to its fields, with lines in order and a complexity. -/
structure IsSound (filePath : String) (c : Chunk) : Prop where
  id_eq : c.id = chunkId c.kind c.name c.startLine c.filePath
  hash_eq : c.hash = some (contentHash c.content)
  one_le_startLine : 1 ≤ c.startLine
  startLine_le_stopLine : c.startLine ≤ c.stopLine
  complexity_pos : ∃ n, c.complexity = some n ∧ 1 ≤ n
  filePath_eq : c.filePath = filePath

theorem IsSound.id_eq_hexOf_key {filePath : String} {c : Chunk} (h : c.IsSound filePath) :
    c.id = Digest.Md5.hexOf c.key :=
  h.id_eq

end Chunk

theorem Analysis.one_le_score (a : Analysis) : 1 ≤ a.score := by
  have hfull : 1 ≤ a.fullScore := by
    cases a <;> simp only [fullScore] <;> omega
  exact Nat.le_min.mpr ⟨hfull, by decide⟩

/-- A draft without a digest of its own gives a sound chunk for lines that are in order. -/
theorem ChunkDraft.isSound_build {d : ChunkDraft} {start stop : Nat} (hhash : d.hash = none)
    (hcomplexity : ∀ n, d.complexity = some n → 1 ≤ n) (hstart : 1 ≤ start) (hstop : start ≤ stop) :
    (d.build start stop).IsSound d.filePath where
  id_eq := rfl
  hash_eq := by rw [build, hhash, Option.getD_none]
  one_le_startLine := hstart
  startLine_le_stopLine := hstop
  complexity_pos := by
    refine ⟨_, rfl, ?_⟩
    cases hd : d.complexity with
    | none => exact Analysis.one_le_score _
    | some n => exact hcomplexity n hd
  filePath_eq := rfl

theorem largerComplexity_pos {a b : Option Nat} (ha : ∃ n, a = some n ∧ 1 ≤ n) :
    ∃ n, largerComplexity a b = some n ∧ 1 ≤ n := by
  obtain ⟨n, rfl, hn⟩ := ha
  cases b with
  | none => exact ⟨n, rfl, hn⟩
  | some m => exact ⟨max n m, rfl, Nat.le_trans hn (Nat.le_max_left n m)⟩

/-- A sound chunk stays sound whatever it absorbs: its lines can only grow at the end, and both
digests are taken anew. -/
theorem Chunk.isSound_absorb {filePath : String} {into : Chunk} (next : Chunk)
    (h : into.IsSound filePath) : (into.absorb next).IsSound filePath where
  id_eq := rfl
  hash_eq := rfl
  one_le_startLine := h.one_le_startLine
  startLine_le_stopLine := Nat.le_trans h.startLine_le_stopLine (Nat.le_max_left _ _)
  complexity_pos := largerComplexity_pos h.complexity_pos
  filePath_eq := h.filePath_eq

end Outline

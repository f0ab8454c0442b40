import Outline.Proofs.Chunk.Operations

/-!
# Chunks that are accepted stay accepted

A check asks a chunk for seven things (`Chunk.IsValid`): text and a language that are not blank, a
known kind, a first line from one on that is not behind the last one, an identity, and a confidence
between nought and one.  The operations on chunks change all of these fields but never ask the check
again.

* Absorbing takes kind and language from the later chunk, the first line from the earlier one, the
  further end, the smaller confidence, and a new identity, which is a digest and so has digits
  (`Digest.Md5.length_hexOf`).
* Normalising cuts blanks off, which leaves something of a text that is not blank
  (`Text.isBlank_trim`), and moves the first line down, but not behind the last one.  Only a line
  number that does not fit into a count could come out as nought.

So whatever is done with accepted chunks, all chunks along the run are accepted
(`check_eq_ok_along_run`); chunks that are made on the way have to be made strictly.
-/

namespace Outline

/-! ## Trimming -/

namespace Text

theorem all_dropWhile (t : Text) : (t.dropWhile isSpace).all isSpace = t.all isSpace := by
  have hsplit := congrArg (List.all · isSpace)
    (List.takeWhile_append_dropWhile (p := isSpace) (l := t))
  simpa only [List.all_append, List.all_takeWhile, Bool.true_and] using hsplit

/-- Trimming takes away nothing but white space. -/
theorem isBlank_trim (t : Text) : (trim t).isBlank = t.isBlank := by
  rw [trim, trimEnd, trimStart, isBlank, isBlank, List.all_reverse, all_dropWhile,
    List.all_reverse, all_dropWhile]

end Text

theorem isBlank_trimmed (s : String) : isBlank (trimmed s) = isBlank s := by
  rw [isBlank, trimmed, String.toList_ofList, Text.isBlank_trim, isBlank]

theorem leadingLines_le_newlines (t : Text) : leadingLines t ≤ Text.newlines t :=
  (List.takeWhile_sublist isSpace).count_le '\n'

/-! ## Confidences -/

namespace Single

theorem inUnitRange_iff (x : Single) : x.inUnitRange = true ↔ zero ≤ x ∧ x ≤ one := by
  rw [inUnitRange, Bool.and_eq_true, decide_eq_true_eq, decide_eq_true_eq]

theorem inUnitRange_clamp (x : Single) : (clamp zero one x).inUnitRange = true := by
  rw [clamp]
  split
  · decide
  · rename_i hlow
    split
    · decide +kernel
    · rename_i hhigh
      exact x.inUnitRange_iff.mpr ⟨Int.not_lt.mp hlow, Int.not_lt.mp hhigh⟩

theorem inUnitRange_lesser {x y : Single} (hx : x.inUnitRange = true) (hy : y.inUnitRange = true) :
    (x.lesser y).inUnitRange = true := by
  rw [lesser]
  split
  · exact hx
  · exact hy

end Single

/-! ## Digests -/

namespace Digest

theorem size_bytesOf (order : ByteOrder) (n value : Nat) : (bytesOf order n value).size = n := by
  cases order <;> simp [bytesOf]

theorem length_hexWord (order : ByteOrder) (x : UInt32) : (hexWord order x).length = 8 := by
  rw [hexWord, List.length_flatMap]
  simp only [List.length_cons, List.length_nil, List.map_const', List.sum_replicate_nat,
    Array.length_toList, size_bytesOf]

/-- A digest is written with eight digits for each word. -/
theorem length_hex (order : ByteOrder) (words : List UInt32) :
    (hex order words).length = 8 * words.length := by
  rw [hex, String.length_ofList, List.length_flatMap]
  simp only [length_hexWord, List.map_const', List.sum_replicate_nat, Nat.mul_comm]

theorem Md5.length_hexOf (text : String) : (Md5.hexOf text).length = 32 := by
  rw [hexOf, length_hex]
  rfl

end Digest

theorem isEmpty_chunkId (kind : Kind) (name : Option String) (startLine : Nat)
    (filePath : String) : (chunkId kind name startLine filePath).isEmpty = false := by
  have hlength := Digest.Md5.length_hexOf (chunkKey kind name startLine filePath)
  refine Bool.eq_false_iff.mpr fun hempty => ?_
  rw [chunkId, String.isEmpty_iff] at hempty
  rw [hempty] at hlength
  exact absurd hlength (by decide)

/-! ## Accepted chunks -/

theorem checkRequired_eq_ok_iff {content language : String} {start stop : Nat} {kind : Kind} :
    checkRequired content start stop language kind = .ok () ↔
      isBlank content = false ∧ 1 ≤ start ∧ start ≤ stop ∧ isBlank language = false ∧
        kind ≠ .unknown := by
  rw [checkRequired]
  grind

namespace Chunk

/-- What a check asks of a chunk. -/
structure IsValid (c : Chunk) : Prop where
  content_not_blank : isBlank c.content = false
  one_le_startLine : 1 ≤ c.startLine
  startLine_le_stopLine : c.startLine ≤ c.stopLine
  language_not_blank : isBlank c.language = false
  kind_ne_unknown : c.kind ≠ .unknown
  id_not_empty : c.id.isEmpty = false
  inUnitRange : c.confidence.inUnitRange = true

/-- A chunk is accepted exactly when it has what the check asks for. -/
theorem check_eq_ok_iff {c : Chunk} : c.check = .ok () ↔ c.IsValid := by
  rw [check, bind_eq_ok_iff]
  constructor
  · rintro ⟨_, hrequired, hrest⟩
    obtain ⟨hcontent, hstart, hstop, hlanguage, hkind⟩ := checkRequired_eq_ok_iff.mp hrequired
    split at hrest
    · cases hrest
    · rename_i hid
      split at hrest
      · cases hrest
      · rename_i hconfidence
        rw [Bool.not_eq_true, Bool.not_eq_false'] at hconfidence
        exact ⟨hcontent, hstart, hstop, hlanguage, hkind, Bool.eq_false_iff.mpr hid, hconfidence⟩
  · intro h
    refine ⟨(), checkRequired_eq_ok_iff.mpr ⟨h.content_not_blank, h.one_le_startLine,
      h.startLine_le_stopLine, h.language_not_blank, h.kind_ne_unknown⟩, ?_⟩
    rw [if_neg (Bool.eq_false_iff.mp h.id_not_empty), h.inUnitRange]
    rfl

instance (c : Chunk) : Decidable (c.check = .ok ()) :=
  match c.check with
  | .ok () => isTrue rfl
  | .error _ => isFalse nofun

end Chunk

/-- A draft that is not refused gives an accepted chunk. -/
theorem ChunkDraft.isValid_of_create {d : ChunkDraft} {c : Chunk} (h : d.create true = .ok c) :
    c.IsValid := by
  obtain ⟨_, hrequired, hbuild⟩ := bind_eq_ok_iff.mp h
  obtain ⟨hcontent, hstart, hstop, hlanguage, hkind⟩ := checkRequired_eq_ok_iff.mp hrequired
  rw [← Except.ok.inj hbuild]
  exact ⟨hcontent, hstart, hstop, hlanguage, hkind, isEmpty_chunkId _ _ _ _,
    Single.inUnitRange_clamp _⟩

namespace Chunk

variable {into next c : Chunk}

theorem IsValid.absorb (hinto : into.IsValid) (hnext : next.IsValid) :
    (into.absorb next).IsValid where
  content_not_blank := by
    have hblank := hinto.content_not_blank
    simp only [isBlank, Text.isBlank] at hblank
    simp [Chunk.absorb, refreshed, isBlank, Text.isBlank, hblank]
  one_le_startLine := hinto.one_le_startLine
  startLine_le_stopLine := Nat.le_trans hinto.startLine_le_stopLine (Nat.le_max_left _ _)
  language_not_blank := hnext.language_not_blank
  kind_ne_unknown := hnext.kind_ne_unknown
  id_not_empty := isEmpty_chunkId _ _ _ _
  inUnitRange := Single.inUnitRange_lesser hinto.inUnitRange hnext.inUnitRange

/-- Normalising a chunk moves its first line to another line of the chunk. -/
theorem startLine_normalized (hcount : c.startLine + leadingLines c.content.toList < countLimit) :
    c.normalized.startLine = min (c.startLine + leadingLines c.content.toList) c.stopLine := by
  have hmod : (c.startLine + leadingLines c.content.toList) % countLimit =
      c.startLine + leadingLines c.content.toList := Nat.mod_eq_of_lt hcount
  rw [← hmod]
  rfl

theorem IsValid.normalized (h : c.IsValid)
    (hcount : c.startLine + Text.newlines c.content.toList < countLimit) :
    c.normalized.IsValid where
  content_not_blank := (isBlank_trimmed c.content).trans h.content_not_blank
  one_le_startLine := by
    have hstart := h.one_le_startLine
    have hstop := h.startLine_le_stopLine
    have hlines := leadingLines_le_newlines c.content.toList
    rw [startLine_normalized (Nat.lt_of_le_of_lt (Nat.add_le_add_left hlines _) hcount)]
    omega
  startLine_le_stopLine := Nat.min_le_right _ _
  language_not_blank := h.language_not_blank
  kind_ne_unknown := h.kind_ne_unknown
  id_not_empty := h.id_not_empty
  inUnitRange := Single.inUnitRange_clamp c.confidence

end Chunk

/-! ## A run -/

variable {chunks : List Chunk} {operations : List ChunkOperation}

/-- Accepted chunks stay accepted along every run that merges, normalises, sorts and leaves out
chunks, and makes further ones strictly, as long as no line that a chunk could be moved to when it
is normalised reaches the limit of counts. -/
theorem check_eq_ok_along_run (hvalid : ∀ c ∈ chunks, c.check = .ok ())
    (hstrict : ∀ strict draft, ChunkOperation.create strict draft ∈ operations → strict = true)
    (hcount : ∀ c, Normalizes operations chunks c →
      c.startLine + Text.newlines c.content.toList < countLimit) (n : Nat) :
    ∀ c ∈ runOperations (operations.take n) chunks, c.check = .ok () := by
  have hrun : ∀ c ∈ runOperations (operations.take n) chunks, c.IsValid := by
    refine forall_mem_run (fun c hc => Chunk.check_eq_ok_iff.mp (hvalid c hc)) ?_
      (fun into next hinto hnext => hinto.absorb hnext)
      (fun c hc h => h.normalized (hcount c hc)) n
    intro strict draft hdraft c hc
    rw [hstrict strict draft hdraft] at hc
    exact ChunkDraft.isValid_of_create hc
  exact fun c hc => Chunk.check_eq_ok_iff.mpr (hrun c hc)

/-- The first chunk loses a blank line at the front and begins on line two; then it absorbs the
second one. -/
theorem check_eq_ok_along_run_of_blankLine :
    let chunk (content : String) (start stop : Nat) : Chunk :=
      ChunkDraft.build
        { content, startLine := start, stopLine := stop, language := "rust", kind := .function }
        start stop
    let chunks := [chunk "\n  f()\n" 1 3, chunk "g()" 4 4]
    (runOperations [.normalize 0] chunks).map (fun c => (c.startLine, c.content)) =
        [(2, "f()"), (4, "g()")] ∧
      ∀ n, ∀ c ∈ runOperations ([.normalize 0, .merge 1, .filter "text", .sort].take n) chunks,
        c.check = .ok () := by
  have hfirst : ∀ (n position : Nat), ([.normalize 0, .merge 1, .filter "text", .sort] :
      List ChunkOperation)[n]? = some (.normalize position) → n = 0 ∧ position = 0 := by
    intro n position hn
    match n with
    | 0 => exact ⟨rfl, (ChunkOperation.normalize.inj (Option.some.inj hn)).symm⟩
    | 1 => cases hn
    | 2 => cases hn
    | 3 => cases hn
    | n + 4 => cases hn
  intro chunk chunks
  refine ⟨by decide +kernel, check_eq_ok_along_run (by decide +kernel) ?_ ?_⟩
  · intro strict draft hdraft
    simp at hdraft
  · rintro c ⟨n, position, hn, hget⟩
    obtain ⟨rfl, rfl⟩ := hfirst n position hn
    obtain rfl : chunk "\n  f()\n" 1 3 = c := Option.some.inj hget
    decide +kernel

end Outline

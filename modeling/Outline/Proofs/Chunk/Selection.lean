import Outline.Proofs.Chunk.Conversion

/-!
# Which structures become chunks

Of the structures of an extraction, those with some text and a known kind are candidates.  Chunks
with the same identity are dropped, except for the first one, and an identity is the digest of a
text in which kind, name, line and path are joined.  What is dropped therefore depends on whether
this text can be read in two ways.  In one file it cannot (`chunkKey_inj`), so that, where the
digest tells the texts apart, a candidate is dropped exactly when an earlier one has its kind, its
name and its first line (`id_chunkIn_eq_iff`).

Statements often have no name and share their line.  They are told apart by number: a statement
without a name is counted among those of its kind that begin on its line, blank ones included, and
from the second one on the number is part of the name (`statementName`).  Numbers that differ give
names that differ (`numberedName_injective`), so no two such statements are taken for one.  One of
them may still be taken for a statement that was given the same name by its author.

* `nameStatements_eq`: the running count is the number at each place.
* `candidates`, `ChunkDraft.identity`: what may become a chunk, and what tells chunks apart.
* `chunksOf_eq_firstOfEach`: the chunks are the first candidates of each identity.
-/

namespace Outline

/-! ## Names of statements -/

/-- A name with a number behind it, unless the number is one. -/
def numberedName (name : String) (number : Nat) : String :=
  if number = 1 then name else name ++ "_" ++ decimal number

/-- Different numbers give different names. -/
theorem numberedName_injective {name : String} {m n : Nat}
    (h : numberedName name m = numberedName name n) : m = n := by
  have hlonger : ∀ k, name ≠ name ++ "_" ++ decimal k := by
    intro k hk
    have hlength := congrArg String.length hk
    simp only [String.length_append] at hlength
    have hone : "_".length = 1 := rfl
    omega
  rw [numberedName, numberedName] at h
  split at h <;> split at h
  · omega
  · exact absurd h (hlonger n)
  · exact absurd h.symm (hlonger m)
  · have hchars := congrArg String.toList h
    simp only [String.toList_append] at hchars
    exact decimal_injective (String.toList_injective (List.append_cancel_left hchars))

/-- Whether a statement without a name has the kind and the first line of another one. -/
def InternalStructure.isUnnamedLike (s e : InternalStructure) : Bool :=
  e.name.isNone && e.kind == s.kind && e.location.start == s.location.start

/-- The name under which the statement at a place becomes a chunk: its own one, or else its kind and
line with its number among those without a name that have the same kind and line. -/
def statementName (statements : List InternalStructure) (place : Nat) (s : InternalStructure) :
    String :=
  s.name.getD (numberedName (defaultName s.kind s.location.start)
    ((statements.take place).countP s.isUnnamedLike + 1))

/-- The kinds and lines that were kept so far stand for the statements without a name that were
passed, `done`; so what is counted among them is the number at the place that is reached. -/
theorem nameStatements_eq : ∀ (rest done : List InternalStructure) (before : List (Kind × Nat)),
    (∀ s : InternalStructure, before.count (s.kind, s.location.start) =
      done.countP s.isUnnamedLike) →
    nameStatements before rest =
      (rest.zipIdx done.length).map fun e => (e.1, statementName (done ++ rest) e.2 e.1)
  | [], done, before, _ => rfl
  | s :: rest, done, before, hbefore => by
    have hlater : ∀ before' : List (Kind × Nat), (∀ e : InternalStructure,
        before'.count (e.kind, e.location.start) =
          before.count (e.kind, e.location.start) + if e.isUnnamedLike s then 1 else 0) →
        nameStatements before' rest = (rest.zipIdx (done.length + 1)).map fun e =>
          (e.1, statementName (done ++ s :: rest) e.2 e.1) := by
      intro before' hbefore'
      have h := nameStatements_eq rest (done ++ [s]) before' fun e => by
        rw [hbefore', hbefore, List.countP_append, List.countP_singleton]
      rwa [List.length_append, List.length_singleton, List.append_assoc, List.singleton_append]
        at h
    rw [nameStatements, List.zipIdx_cons, List.map_cons]
    cases hname : s.name with
    | some name =>
      have hown : statementName (done ++ s :: rest) done.length s = name := by
        rw [statementName, hname, Option.getD_some]
      simp only [hown]
      refine congrArg _ (hlater before fun e => ?_)
      simp [InternalStructure.isUnnamedLike, hname]
    | none =>
      have hnumber : statementName (done ++ s :: rest) done.length s =
          numberedName (defaultName s.kind s.location.start)
            (before.count (s.kind, s.location.start) + 1) := by
        rw [statementName, hname, Option.getD_none, List.take_left, hbefore]
      simp only [hnumber, numberedName, Nat.add_eq_right]
      refine congrArg _ (hlater _ fun e => ?_)
      rw [List.count_cons]
      simp [InternalStructure.isUnnamedLike, hname, Prod.ext_iff]

theorem InternalStructure.isUnnamedLike_self {s : InternalStructure} (h : s.name = none) :
    s.isUnnamedLike s = true := by
  simp [InternalStructure.isUnnamedLike, h]

/-- Statements without a name that have the same kind and line are numbered differently. -/
theorem statementName_ne {statements : List InternalStructure} {i j : Nat}
    {s e : InternalStructure} (hs : statements[i]? = some s) (hij : i < j)
    (hsname : s.name = none) (hename : e.name = none) (hkind : s.kind = e.kind)
    (hstart : s.location.start = e.location.start) :
    statementName statements i s ≠ statementName statements j e := by
  have halike : e.isUnnamedLike = s.isUnnamedLike := by
    funext o
    rw [InternalStructure.isUnnamedLike, InternalStructure.isUnnamedLike, hkind, hstart]
  -- the statement at the earlier place counts at the later one
  have hcount : (statements.take (i + 1)).countP s.isUnnamedLike =
      (statements.take i).countP s.isUnnamedLike + 1 := by
    rw [List.take_add_one, hs, Option.toList_some, List.countP_append, List.countP_singleton,
      if_pos (InternalStructure.isUnnamedLike_self hsname)]
  have hle : (statements.take (i + 1)).countP s.isUnnamedLike ≤
      (statements.take j).countP s.isUnnamedLike :=
    (List.take_sublist_take_left hij).countP_le
  rw [statementName, statementName, hsname, hename, Option.getD_none, Option.getD_none, halike,
    ← hkind, ← hstart]
  intro h
  have hnumber := numberedName_injective h
  omega

/-! ## Candidates -/

/-- What may become a chunk: the structures of the top level, then the nested ones, then, if they
are asked for, the statements under their names; of these the ones with some text and a known
kind. -/
def candidates (includeInternal : Bool) (x : Extraction) : List ChunkDraft :=
  (x.topLevel.map (Structure.draft x.language x.tree) ++
    x.nested.map (NestedStructure.draft x.language x.tree) ++
      if includeInternal then
        x.internal.zipIdx.map fun e => e.1.draft x.language (statementName x.internal e.2 e.1)
      else []).filter fun d => !isBlank d.content && d.kind != .unknown

theorem filter_isFilled_draftsOf (includeInternal : Bool) (x : Extraction) :
    (draftsOf includeInternal x).filter ChunkDraft.isFilled = candidates includeInternal x := by
  have hnames : nameStatements [] x.internal =
      x.internal.zipIdx.map fun e => (e.1, statementName x.internal e.2 e.1) :=
    nameStatements_eq x.internal [] [] fun _ => rfl
  rw [draftsOf, candidates, hnames, List.map_map]
  rfl

theorem candidates_prefix (includeInternal : Bool) (x : Extraction) :
    candidates false x <+: candidates includeInternal x := by
  rw [candidates, candidates, if_neg Bool.false_ne_true, List.append_nil]
  exact (List.prefix_append _ _).filter _

theorem exists_name_of_mem_candidates {includeInternal : Bool} {x : Extraction} {d : ChunkDraft}
    (h : d ∈ candidates includeInternal x) : ∃ name, d.name = some name := by
  rw [candidates, List.mem_filter, List.mem_append, List.mem_append, List.mem_map,
    List.mem_map] at h
  rcases h.1 with (⟨s, -, rfl⟩ | ⟨s, -, rfl⟩) | h
  · exact ⟨s.name, rfl⟩
  · exact ⟨s.name, rfl⟩
  · split at h
    · obtain ⟨e, -, rfl⟩ := List.mem_map.mp h
      exact ⟨_, rfl⟩
    · exact absurd h List.not_mem_nil

namespace ChunkDraft

/-- What tells the chunks of a file apart. -/
def identity (d : ChunkDraft) : Kind × Option String × Nat := (d.kind, d.name, d.startLine)

/-- The text that identifies the chunk of a draft in a file. -/
def keyIn (filePath : String) (d : ChunkDraft) : String :=
  chunkKey d.kind d.name d.startLine filePath

theorem id_chunkIn (filePath : String) (strategy : Strategy) (d : ChunkDraft) :
    (d.chunkIn filePath strategy).id = Digest.Md5.hexOf (d.keyIn filePath) := rfl

end ChunkDraft

/-- Candidates have the same identity exactly when kind, name and first line agree. -/
theorem id_chunkIn_eq_iff {includeInternal : Bool} {x : Extraction} {filePath : String}
    (hmd5 : Digest.Md5.CollisionFree
      ((candidates includeInternal x).map (ChunkDraft.keyIn filePath)))
    {d e : ChunkDraft} (hd : d ∈ candidates includeInternal x)
    (he : e ∈ candidates includeInternal x) :
    (d.chunkIn filePath x.strategy).id = (e.chunkIn filePath x.strategy).id ↔
      d.identity = e.identity := by
  obtain ⟨n, hn⟩ := exists_name_of_mem_candidates hd
  obtain ⟨m, hm⟩ := exists_name_of_mem_candidates he
  rw [ChunkDraft.id_chunkIn, ChunkDraft.id_chunkIn]
  constructor
  · intro hid
    have hkey : d.keyIn filePath = e.keyIn filePath :=
      hmd5 _ (List.mem_map_of_mem hd) _ (List.mem_map_of_mem he) hid
    obtain ⟨hkind, hname, hstart⟩ := chunkKey_inj hkey
    rw [hn, hm, Option.getD_some, Option.getD_some] at hname
    rw [ChunkDraft.identity, ChunkDraft.identity, hkind, hn, hm, hname, hstart]
  · intro hidentity
    simp only [ChunkDraft.identity, Prod.mk.injEq] at hidentity
    obtain ⟨hkind, hname, hstart⟩ := hidentity
    rw [ChunkDraft.keyIn, ChunkDraft.keyIn, hkind, hname, hstart]

/-! ## The chunks -/

theorem eq_distinctBy_candidates {strict includeInternal : Bool} {x : Extraction}
    {filePath : String} {chunks : List Chunk}
    (h : chunksOf strict includeInternal x filePath = .ok chunks) :
    chunks = distinctBy (·.id)
      ((candidates includeInternal x).map (ChunkDraft.chunkIn filePath x.strategy)) := by
  rw [eq_of_chunksOf_eq_ok h, filter_isFilled_draftsOf]

/-- Without the statements there are fewer chunks, in the same order. -/
theorem exists_chunksOf_prefix {strict includeInternal : Bool} {x : Extraction}
    {filePath : String} {chunks : List Chunk}
    (h : chunksOf strict includeInternal x filePath = .ok chunks) :
    ∃ fewer, chunksOf strict false x filePath = .ok fewer ∧ fewer <+: chunks := by
  obtain ⟨later, hlater⟩ := candidates_prefix includeInternal x
  obtain ⟨made, hmade, -⟩ := bind_eq_ok_iff.mp h
  rw [filter_isFilled_draftsOf, ← hlater, List.mapM_append] at hmade
  obtain ⟨first, hfirst, -⟩ := bind_eq_ok_iff.mp hmade
  have hfewer : chunksOf strict false x filePath = .ok (distinctBy (·.id) first) := by
    rw [← filter_isFilled_draftsOf] at hfirst
    exact bind_eq_ok_iff.mpr ⟨first, hfirst, rfl⟩
  refine ⟨_, hfewer, ?_⟩
  rw [eq_distinctBy_candidates hfewer, eq_distinctBy_candidates h, ← hlater, List.map_append]
  exact distinctBy_prefix _ _

/-- The chunks of an extraction are those of the candidates before which none has the same kind,
name and first line, in order.  Candidates are conflated only if all three agree, statements without
a name never with each other, and the chunks without the statements come first. -/
theorem chunksOf_eq_firstOfEach {strict includeInternal : Bool} {x : Extraction}
    {filePath : String} {chunks : List Chunk}
    (h : chunksOf strict includeInternal x filePath = .ok chunks)
    (hmd5 : Digest.Md5.CollisionFree
      ((candidates includeInternal x).map (ChunkDraft.keyIn filePath))) :
    chunks = (firstOfEach ChunkDraft.identity (candidates includeInternal x)).map
        (ChunkDraft.chunkIn filePath x.strategy) ∧
      (∀ d ∈ candidates includeInternal x, ∀ e ∈ candidates includeInternal x,
        (d.chunkIn filePath x.strategy).id = (e.chunkIn filePath x.strategy).id ↔
          d.identity = e.identity) ∧
      (∀ (i j : Nat) (s e : InternalStructure), x.internal[i]? = some s →
        x.internal[j]? = some e → i ≠ j → s.name = none → e.name = none →
          (s.draft x.language (statementName x.internal i s)).identity ≠
            (e.draft x.language (statementName x.internal j e)).identity) ∧
      ∃ fewer, chunksOf strict false x filePath = .ok fewer ∧ fewer <+: chunks := by
  refine ⟨?_, fun d hd e he => id_chunkIn_eq_iff hmd5 hd he, ?_, exists_chunksOf_prefix h⟩
  · rw [eq_distinctBy_candidates h, distinctBy_eq_firstOfEach]
    exact firstOfEach_map fun d hd e he => id_chunkIn_eq_iff hmd5 hd he
  · intro i j s e hs he hij hsname hename hidentity
    simp only [ChunkDraft.identity, InternalStructure.draft, Prod.mk.injEq,
      Option.some.injEq] at hidentity
    obtain ⟨hkind, hname, hstart⟩ := hidentity
    rcases Nat.lt_or_gt_of_ne hij with hlt | hgt
    · exact statementName_ne hs hlt hsname hename hkind hstart hname
    · exact statementName_ne he hgt hename hsname hkind.symm hstart.symm hname.symm

/-- Three statements without a name on one line, the second one blank, and one that bears the name
given to the third. -/
theorem chunksOf_eq_firstOfEach_of_oneLine :
    let top : Structure := ⟨.function, "f", "f(x)", .clamped 1 3, none, "js", .one⟩
    let statement (name : Option String) (content : String) : InternalStructure :=
      ⟨.controlFlow, name, content, .clamped 2 2, top.ref, .medium, .one⟩
    let x : Extraction :=
      ⟨"js", .text, [top], [], [statement none "if", statement none " ", statement none "for",
        statement (some "control_flow_2_3") "while"], none⟩
    ∃ chunks, chunksOf true true x "a.js" = .ok chunks ∧
      chunks.map (·.name) = [some "f", some "control_flow_2", some "control_flow_2_3"] ∧
        chunks = (firstOfEach ChunkDraft.identity (candidates true x)).map
          (ChunkDraft.chunkIn "a.js" x.strategy) := by
  intro top statement x
  obtain ⟨chunks, h⟩ : ∃ chunks, chunksOf true true x "a.js" = .ok chunks :=
    exists_chunksOf_eq_ok (fun _ => by decide +kernel) "a.js"
  have heq := (chunksOf_eq_firstOfEach h (by decide +kernel)).1
  refine ⟨chunks, h, ?_, heq⟩
  rw [heq, List.map_map]
  decide +kernel

end Outline

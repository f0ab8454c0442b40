import Mathlib.Data.List.Nodup
import Mathlib.Data.Prod.Lex
import Mathlib.Data.String.Basic
import Outline.Import
import Outline.Proofs.Extraction.Distinct
import Outline.Proofs.Pattern.Capture
import Outline.Proofs.Sort
import Outline.Proofs.Text.Lines
import Outline.Proofs.Text.Pieces
import Outline.Proofs.Text.Space

/-!
# Where imports stand

An import names a line, and a reader looks for the target there.  The line is counted where the
group of a pattern begins, but the target is only what is left of the group when it has been cut at
commas and trimmed, and may begin further on.  It is on the same line all the same.  White space in
front of a target has no line feed in it: either the group has none at all, or it does not begin
with white space, which is read off the patterns (`opensInLine_of_mem_importRules`, by evaluation of
the table).  And a group that is cut at commas has no line feed.  An entry of a block is found in
the body of the block, and so its place is counted from where the body begins.

* `Import.StandsIn`: a text has the target of an import from the line of the import on.
* `standsIn_of_mem_importsOfRule`, `standsIn_of_mem_importsInBlocks`: what is found stands there,
  before two imports with one line and target are made one.
* `scanImports_standIn`: the imports of a text, in strict order, with the places of all that is
  found.
-/

namespace Outline

open Text

/-! ## What opens a group -/

namespace Pattern

/-- Whether no match of a pattern has a line feed in the white space that it begins with: it has no
line feed at all, or it does not begin with white space. -/
def opensInLine (q : Pattern) : Bool :=
  q.excludes '\n' || spaceCodes.all fun n => q.avoids (Char.ofNat n)

theorem Opens.newline_notMem_takeWhile {q : Pattern} {w : Text} (h : q.Opens w)
    (hq : q.opensInLine = true) (hexcludes : q.excludes '\n' = true → '\n' ∉ w) :
    '\n' ∉ w.takeWhile isSpace := by
  rw [opensInLine, Bool.or_eq_true] at hq
  rcases hq with hq | hq
  · exact fun hmem => hexcludes hq ((List.takeWhile_sublist isSpace).subset hmem)
  · cases w with
    | nil => exact List.not_mem_nil
    | cons c w =>
      have havoids : isSpace c = true → q.avoids c = true :=
        forall_of_spaceCodes (p := fun d => q.avoids d = true) (List.all_eq_true.mp hq)
      have hc : ¬ isSpace c = true := fun hspace => h.head?_ne c (havoids hspace) rfl
      rw [List.takeWhile_cons_of_neg hc]
      exact List.not_mem_nil

/-- A group cuts the text in three, and what is in it opens as the pattern of the group says and has
the characters of its classes only. -/
theorem IsMatch.exists_split {p : Pattern} {text : Text} {f : Found} (h : p.IsMatch text f)
    {n start stop : Nat} (hspan : f.span? n = some (start, stop)) :
    ∃ q ∈ p.groupBodies, ∃ pre post, text = pre ++ (Found.cut text start stop ++ post) ∧
      pre.length = start ∧ q.Opens (Found.cut text start stop) ∧
      ∀ bad, q.excludes bad = true → bad ∉ Found.cut text start stop := by
  obtain ⟨q, hq, a, b, hin, hab, rfl, rfl⟩ := h.exists_body hspan
  obtain ⟨w, hw, hopens⟩ := hab.exists_passes
  have hcut := hin.cut_eq hw
  obtain ⟨pre, htext, hindex, -⟩ := id hin
  refine ⟨q, hq, pre, b.rest, ?_, hindex.symm, hcut ▸ hopens, fun bad hbad => ?_⟩
  · rw [hcut, ← hw.rest_eq, htext]
  · obtain ⟨v, hv, hnot⟩ := hab.exists_notMem hbad
    rw [hin.cut_eq hv]
    exact hnot

end Pattern

/-- The patterns of the groups of imports open in their line, and the groups that are cut at commas
have no line feed. -/
theorem opensInLine_of_mem_importRules : ∀ rule ∈ importRules, ∀ q ∈ rule.pattern.groupBodies,
    q.opensInLine = true ∧ (rule.splits = true → q.excludes '\n' = true) := by
  decide +kernel

theorem opensInLine_of_mem_importEntry : ∀ q ∈ importEntry.groupBodies, q.opensInLine = true := by
  decide

/-! ## What is found -/

section Found

variable {content : Text} {i : Import}

/-- A rule finds its imports in the groups of its matches, piece by piece. -/
theorem mem_importsOfRule_iff {rule : ImportRule} : i ∈ importsOfRule content rule ↔
    ∃ f ∈ rule.pattern.all content, ∃ start stop, f.span? 1 = some (start, stop) ∧
      ∃ piece ∈ if rule.splits then splitOn ',' (Found.cut content start stop)
          else [Found.cut content start stop],
        importOf? content rule.form start piece = some i := by
  rw [importsOfRule, List.mem_flatMap]
  refine exists_congr fun f => and_congr_right fun _ => ?_
  cases f.span? 1 with
  | none => simp
  | some g =>
    obtain ⟨start, stop⟩ := g
    simp [List.mem_filterMap]

/-- The imports in blocks are found in the bodies of the blocks, entry by entry. -/
theorem mem_importsInBlocks_iff : i ∈ importsInBlocks content ↔
    ∃ block ∈ importBlock.all content, ∃ start stop, block.span? 1 = some (start, stop) ∧
      ∃ entry ∈ importEntry.all (Found.cut content start stop), ∃ first last,
        entry.span? 1 = some (first, last) ∧
          importOf? content .go (start + first)
            (Found.cut (Found.cut content start stop) first last) = some i := by
  rw [importsInBlocks, List.mem_flatMap]
  refine exists_congr fun block => and_congr_right fun _ => ?_
  cases block.span? 1 with
  | none => simp
  | some g =>
    obtain ⟨start, stop⟩ := g
    simp [List.mem_filterMap, Option.bind_eq_some_iff]

/-- What is found is reported, perhaps as it is found by another rule. -/
theorem exists_mem_scanImports
    (h : i ∈ importRules.flatMap (importsOfRule content) ++ importsInBlocks content) :
    ∃ j ∈ scanImports content, j.line = i.line ∧ j.target = i.target := by
  have hkey : ∃ j ∈ distinctBy (fun i : Import => (i.line, i.target))
      (importRules.flatMap (importsOfRule content) ++ importsInBlocks content),
      (j.line, j.target) = (i.line, i.target) :=
    exists_mem_distinctBy_iff.mpr ⟨i, h, rfl⟩
  obtain ⟨j, hj, hkey⟩ := hkey
  exact ⟨j, List.mem_mergeSort.mpr hj, Prod.mk.inj hkey⟩

end Found

/-! ## The place of one import -/

/-- The target of an import is trimmed and not empty, and a text has it from the line of the import
on. -/
structure Import.StandsIn (i : Import) (content : Text) : Prop where
  target_ne : i.target ≠ ""
  trim_eq : trim i.target.toList = i.target.toList
  one_le_line : 1 ≤ i.line
  line_le : i.line ≤ content.lineCount
  occurs : ∃ pre post, content = pre ++ (i.target.toList ++ post) ∧ newlines pre + 1 = i.line

section Place

variable {content : Text} {i : Import}

theorem lineAt_of_eq_append {pre u : Text} (h : content = pre ++ u) {index : Nat}
    (hindex : pre.length = index) : content.lineAt index = newlines pre + 1 := by
  rw [lineAt, h, ← hindex, List.take_left]

/-- The target is what is left of a piece of the text when it is trimmed. -/
theorem standsIn_of_importOf? {form : ImportForm} {index : Nat} {pre piece post : Text}
    (h : importOf? content form index piece = some i)
    (hcontent : content = pre ++ (piece ++ post))
    (hline : content.lineAt index = newlines pre + 1)
    (hopen : '\n' ∉ piece.takeWhile isSpace) : i.StandsIn content := by
  obtain ⟨rest, hpiece, -⟩ := exists_trim piece
  have hplace : content = (pre ++ piece.takeWhile isSpace) ++ (piece.trim ++ (rest ++ post)) := by
    calc content = pre ++ (piece ++ post) := hcontent
      _ = pre ++ (piece.takeWhile isSpace ++ (piece.trim ++ rest) ++ post) := by rw [← hpiece]
      _ = _ := by simp only [List.append_assoc]
  have hnewlines : newlines (pre ++ piece.takeWhile isSpace) = newlines pre := by
    rw [newlines_append, newlines_eq_zero hopen, Nat.add_zero]
  simp only [importOf?, List.isEmpty_iff] at h
  cases htrim : piece.trim with
  | nil =>
    rw [htrim, if_pos rfl] at h
    exact absurd h (by simp)
  | cons c cs =>
    rw [htrim, if_neg (List.cons_ne_nil c cs), Option.some_inj] at h
    subst h
    have hc : isSpace c = false := by
      have hhead := head?_trim piece
      rw [htrim] at hhead
      exact hhead
    have hends : c ≠ '\n' ∧ c ≠ '\r' := by
      constructor <;> rintro rfl <;> exact absurd hc (by decide)
    rw [htrim] at hplace
    obtain ⟨line, hget, -⟩ := exists_line_of_eq_append hends.1 hends.2 (cs ++ (rest ++ post))
      (pre ++ piece.takeWhile isSpace)
    rw [← List.cons_append, ← hplace, hnewlines] at hget
    have hlt := (List.getElem?_eq_some_iff.mp hget).1
    refine ⟨fun hempty => ?_, ?_, ?_, ?_, pre ++ piece.takeWhile isSpace, rest ++ post, ?_, ?_⟩
    · have hnil := congrArg String.toList hempty
      rw [String.toList_ofList] at hnil
      exact absurd hnil (List.cons_ne_nil c cs)
    · rw [String.toList_ofList, ← htrim, trim_trim]
    · exact Nat.succ_le_of_lt (by simp only [hline]; omega)
    · simp only [hline]
      exact hlt
    · rw [String.toList_ofList]
      exact hplace
    · rw [hnewlines]
      exact hline.symm

/-- What a rule finds stands where it says, also each part of a target with commas. -/
theorem standsIn_of_mem_importsOfRule {rule : ImportRule} (hrule : rule ∈ importRules)
    (hi : i ∈ importsOfRule content rule) : i.StandsIn content := by
  obtain ⟨f, hf, start, stop, hspan, piece, hpiece, hi⟩ := mem_importsOfRule_iff.mp hi
  obtain ⟨q, hq, pre, post, hcontent, hlength, hopens, hexcludes⟩ :=
    (Pattern.isMatch_of_mem_all hf).exists_split hspan
  obtain ⟨hopen, hsplits⟩ := opensInLine_of_mem_importRules rule hrule q hq
  have hline := lineAt_of_eq_append hcontent hlength
  split at hpiece
  · rename_i hcommas
    obtain ⟨before, after, hcut⟩ := infix_of_mem_splitOn hpiece
    have hfeed := hexcludes '\n' (hsplits hcommas)
    rw [← hcut, List.mem_append, List.mem_append, not_or, not_or] at hfeed
    have hplace : content = (pre ++ before) ++ (piece ++ (after ++ post)) := by
      rw [← hcut] at hcontent
      rw [hcontent]
      simp only [List.append_assoc]
    refine standsIn_of_importOf? hi hplace ?_ ?_
    · rw [newlines_append, newlines_eq_zero hfeed.1.1]
      exact hline
    · exact fun hmem => hfeed.1.2 ((List.takeWhile_sublist isSpace).subset hmem)
  · rw [List.mem_singleton.mp hpiece] at hi
    exact standsIn_of_importOf? hi hcontent hline
      (hopens.newline_notMem_takeWhile hopen (hexcludes '\n'))

/-- An entry of a block stands where it says. -/
theorem standsIn_of_mem_importsInBlocks (hi : i ∈ importsInBlocks content) :
    i.StandsIn content := by
  obtain ⟨block, hblock, start, stop, hspan, entry, hentry, first, last, hinner, hi⟩ :=
    mem_importsInBlocks_iff.mp hi
  obtain ⟨-, -, pre, post, hcontent, hlength, -, -⟩ :=
    (Pattern.isMatch_of_mem_all hblock).exists_split hspan
  obtain ⟨q, hq, pre', post', hbody, hlength', hopens, hexcludes⟩ :=
    (Pattern.isMatch_of_mem_all hentry).exists_split hinner
  -- the front of the text, then the front of the body
  have hplace : content = (pre ++ pre') ++
      (Found.cut (Found.cut content start stop) first last ++ (post' ++ post)) := by
    calc content = pre ++ (Found.cut content start stop ++ post) := hcontent
      _ = pre ++ (pre' ++ (Found.cut (Found.cut content start stop) first last ++ post') ++
          post) := by rw [← hbody]
      _ = _ := by simp only [List.append_assoc]
  refine standsIn_of_importOf? hi hplace (lineAt_of_eq_append hplace ?_) ?_
  · rw [List.length_append, hlength, hlength']
  · exact hopens.newline_notMem_takeWhile (opensInLine_of_mem_importEntry q hq) (hexcludes '\n')

end Place

/-! ## All imports -/

/-- What imports are sorted by, and told apart by. -/
def Import.key (i : Import) : ℕ ×ₗ String := toLex (i.line, i.target)

theorem Import.le_iff (i j : Import) : i.le j = true ↔ i.key ≤ j.key := by
  rw [key, key, Prod.Lex.toLex_le_toLex, Import.le]
  simp

theorem Import.key_eq_iff {i j : Import} :
    i.key = j.key ↔ i.line = j.line ∧ i.target = j.target := by
  rw [key, key, EmbeddingLike.apply_eq_iff_eq, Prod.mk.injEq]

theorem pairwise_key_scanImports (content : Text) :
    (scanImports content).Pairwise fun i j => i.key < j.key := by
  have hdistinct : (distinctBy (fun i : Import => (i.line, i.target))
      (importRules.flatMap (importsOfRule content) ++ importsInBlocks content)).Pairwise
        fun i j => i.key ≠ j.key := by
    refine (List.pairwise_map.mp (nodup_map_distinctBy _)).imp fun {i j} hne hkey => ?_
    exact hne (Prod.ext (Import.key_eq_iff.mp hkey).1 (Import.key_eq_iff.mp hkey).2)
  have hsorted : (scanImports content).Pairwise fun i j => i.key ≠ j.key :=
    hdistinct.perm (List.mergeSort_perm _ _).symm fun hne => Ne.symm hne
  exact (pairwise_key_mergeSort Import.le_iff _).imp₂ (fun _ _ => lt_of_le_of_ne) hsorted

/-- The imports of a text are in strict order of line and target, and each target stands on its
line.  The same holds of all that is found, by each of the rules, in each part of a target with
commas and in each entry of a block, and exactly one import is reported for its line and target. -/
theorem scanImports_standIn (content : Text) :
    ((scanImports content).Pairwise fun i j =>
        i.line < j.line ∨ i.line = j.line ∧ i.target < j.target) ∧
      (∀ i ∈ scanImports content, i.StandsIn content) ∧
      ∀ i ∈ importRules.flatMap (importsOfRule content) ++ importsInBlocks content,
        i.StandsIn content ∧
          ∃! j, j ∈ scanImports content ∧ j.line = i.line ∧ j.target = i.target := by
  have hfound : ∀ i ∈ importRules.flatMap (importsOfRule content) ++ importsInBlocks content,
      i.StandsIn content := by
    intro i hi
    rcases List.mem_append.mp hi with hi | hi
    · obtain ⟨rule, hrule, hi⟩ := List.mem_flatMap.mp hi
      exact standsIn_of_mem_importsOfRule hrule hi
    · exact standsIn_of_mem_importsInBlocks hi
  have hsorted := pairwise_key_scanImports content
  refine ⟨hsorted.imp fun {i j} hlt => Prod.Lex.toLex_lt_toLex.mp hlt, fun i hi => ?_,
    fun i hi => ⟨hfound i hi, ?_⟩⟩
  · exact hfound i (mem_of_mem_distinctBy (List.mem_mergeSort.mp hi))
  · obtain ⟨j, hj, hline, htarget⟩ := exists_mem_scanImports hi
    refine ⟨j, ⟨hj, hline, htarget⟩, fun k hk => ?_⟩
    have hnodup : ((scanImports content).map Import.key).Nodup :=
      List.pairwise_map.mpr (hsorted.imp fun {i j} hlt => ne_of_lt hlt)
    refine List.inj_on_of_nodup_map hnodup hk.1 hj ?_
    exact Import.key_eq_iff.mpr ⟨hk.2.1.trans hline.symm, hk.2.2.trans htarget.symm⟩

end Outline

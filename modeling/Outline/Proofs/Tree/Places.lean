import Outline.Proofs.Ascending
import Outline.Proofs.Extraction.NodeOnce
import Outline.Proofs.Relation.Containment
import Outline.Proofs.Text.Bytes

/-!
# The places of nodes

A node keeps its two ends twice, as bytes and as row and column.  The second pair is worked out from
the first one when the node is added, and never changes (`IsBuilt.isPlaced`).  Later bytes have
later places (`pointAt_mono`): what a search among the line starts finds is the last of the lines
that have begun at a byte (`pointAt_eq`), and all of these have begun at a later byte too, so either
more lines have begun there, or the last one is the same and the column is counted from the same
byte.  So whatever lies inside something by its bytes lies inside it by its places
(`IsPlaced.encloses_of_mem_children`).

* `SyntaxTree.IsPlaced`: the places of all nodes are those of their bytes.
* `SyntaxTree.IsNested`: the bytes of a node lie inside those of its parent.
* `Node.span`: the places between which a node lies.
-/

namespace Outline

theorem Point.le_trans {a b c : Point} (hab : a ≤ b) (hbc : b ≤ c) : a ≤ c := by
  rcases hab with hab | ⟨hrow, hab⟩
  · rcases hbc with hbc | ⟨hrow', -⟩
    · exact Or.inl (Nat.lt_trans hab hbc)
    · exact Or.inl (hrow' ▸ hab)
  · rcases hbc with hbc | ⟨hrow', hbc⟩
    · exact Or.inl (hrow ▸ hbc)
    · exact Or.inr ⟨hrow.trans hrow', Nat.le_trans hab hbc⟩

namespace Span

theorem encloses_refl (a : Span) : a.encloses a = true :=
  encloses_iff.mpr ⟨Point.le_refl _, Point.le_refl _⟩

theorem encloses_trans {a b c : Span} (hab : a.encloses b = true) (hbc : b.encloses c = true) :
    a.encloses c = true := by
  obtain ⟨hstart, hstop⟩ := encloses_iff.mp hab
  obtain ⟨hstart', hstop'⟩ := encloses_iff.mp hbc
  exact encloses_iff.mpr ⟨Point.le_trans hstart hstart', Point.le_trans hstop' hstop⟩

end Span

/-- The places between which a node lies. -/
def Node.span (n : Node) : Span := ⟨n.start, n.stop⟩

namespace SyntaxTree

variable {t : SyntaxTree}

/-! ## Bytes and places -/

/-- The lines that have begun at a byte of the source. -/
def begun (t : SyntaxTree) (byte : Nat) : List Nat :=
  t.source.lineStarts.filter (· ≤ min byte t.source.byteLength)

theorem zero_mem_begun (t : SyntaxTree) (byte : Nat) : 0 ∈ t.begun byte :=
  List.mem_filter.mpr ⟨List.mem_cons_self, by simp⟩

/-- The place of a byte is counted from the last line that has begun. -/
theorem pointAt_eq (h : t.lineStarts = t.source.lineStarts) (byte : Nat) : t.pointAt byte =
    ⟨(t.begun byte).length - 1, min byte t.source.byteLength - (t.begun byte).getLastD 0⟩ := by
  have hascending := Text.pairwise_lt_lineStarts t.source
  obtain ⟨hle, hbegun⟩ := filter_le_eq_take hascending
    (isOf_slotOf hascending (min byte t.source.byteLength))
  rw [← begun] at hbegun
  have hrow : t.rowOf (min byte t.source.byteLength) =
      (slotOf t.source.lineStarts (min byte t.source.byteLength)).count - 1 := by
    rw [rowOf, h]
    split <;> rename_i hslot <;> rw [hslot] <;> rfl
  have hlength : (t.begun byte).length =
      (slotOf t.source.lineStarts (min byte t.source.byteLength)).count := by
    rw [hbegun, List.length_take, Nat.min_eq_left hle]
  have hpos : 0 < (t.begun byte).length := List.length_pos_of_mem (t.zero_mem_begun byte)
  obtain ⟨row, hcount⟩ := Nat.exists_eq_add_of_le' (hlength ▸ hpos)
  have hline : row < t.source.lineStarts.length := by omega
  simp only [pointAt, hrow, h, hlength]
  rw [hbegun, hcount, take_succ_eq_append_getD hline, List.getLastD_concat, Nat.add_sub_cancel]

/-- Later bytes have later places. -/
theorem pointAt_mono (h : t.lineStarts = t.source.lineStarts) {a b : Nat} (hab : a ≤ b) :
    t.pointAt a ≤ t.pointAt b := by
  have hmin : min a t.source.byteLength ≤ min b t.source.byteLength := by omega
  have hbegun : (t.begun a).Sublist (t.begun b) :=
    List.monotone_filter_right _ fun line hline => by
      simp only [decide_eq_true_eq] at hline ⊢
      exact Nat.le_trans hline hmin
  have hpos : 0 < (t.begun a).length := List.length_pos_of_mem (t.zero_mem_begun a)
  rw [pointAt_eq h, pointAt_eq h]
  rcases Nat.lt_or_eq_of_le hbegun.length_le with hlt | heq
  · exact Or.inl (by simp only; omega)
  · -- no line has begun in between
    rw [hbegun.eq_of_length heq]
    exact Or.inr ⟨rfl, Nat.sub_le_sub_right hmin _⟩

/-- The places of all nodes are those of their bytes, counted in the lines of the source. -/
structure IsPlaced (t : SyntaxTree) : Prop where
  lineStarts_eq : t.lineStarts = t.source.lineStarts
  span_eq : ∀ id n, t.get? id = some n → n.span = ⟨t.pointAt n.startByte, t.pointAt n.stopByte⟩

section Add

variable (t : SyntaxTree) (parent : Option Nat) (kind : String) (field : Option String)
  (startByte stopByte : Nat)

@[simp] theorem source_add : (t.add parent kind field startByte stopByte).source = t.source := by
  cases parent <;> rfl

@[simp] theorem lineStarts_add :
    (t.add parent kind field startByte stopByte).lineStarts = t.lineStarts := by
  cases parent <;> rfl

theorem pointAt_add (byte : Nat) :
    (t.add parent kind field startByte stopByte).pointAt byte = t.pointAt byte := by
  simp only [pointAt, rowOf, source_add, lineStarts_add]

end Add

theorem isPlaced_ofSource (source : Text) : (ofSource source).IsPlaced where
  lineStarts_eq := rfl
  span_eq _ _ h := absurd h (by simp [get?, ofSource])

theorem IsPlaced.add (h : t.IsPlaced) (parent : Option Nat) (kind : String)
    (field : Option String) (startByte stopByte : Nat) :
    (t.add parent kind field startByte stopByte).IsPlaced where
  lineStarts_eq := by rw [lineStarts_add, source_add, h.lineStarts_eq]
  span_eq id n hn := by
    rw [pointAt_add, pointAt_add]
    by_cases hid : id = t.size
    · rw [hid, get?_add_size, Option.some_inj] at hn
      rw [← hn]
      rfl
    · rw [get?_add_of_ne t parent kind field startByte stopByte hid, Option.map_eq_some_iff] at hn
      obtain ⟨m, hm, rfl⟩ := hn
      have hspan := h.span_eq id m hm
      split
      · exact hspan
      · exact hspan

theorem IsBuilt.isPlaced (h : t.IsBuilt) : t.IsPlaced := by
  induction h with
  | ofSource source => exact isPlaced_ofSource source
  | add h parent kind field startByte stopByte ih =>
    exact ih.add parent kind field startByte stopByte

/-! ## Parents and children -/

/-- The bytes of a node lie inside those of the node that it is a child of. -/
def IsNested (t : SyntaxTree) : Prop :=
  ∀ n ∈ t.nodes, ∀ c ∈ n.children, ∀ m ∈ t.get? c,
    n.startByte ≤ m.startByte ∧ m.stopByte ≤ n.stopByte

instance (t : SyntaxTree) : Decidable t.IsNested :=
  inferInstanceAs (Decidable (∀ n ∈ t.nodes, _))

theorem exists_get?_of_lt {id : Nat} (h : id < t.size) : ∃ n, t.get? id = some n :=
  ⟨t.nodes[id], Array.getElem?_eq_getElem h⟩

/-- A child lies inside its parent. -/
theorem IsPlaced.encloses_of_mem_children (h : t.IsPlaced) (hnested : t.IsNested) {p c : Nat}
    {n m : Node} (hn : t.get? p = some n) (hm : t.get? c = some m) (hc : c ∈ t.children p) :
    n.span.encloses m.span = true := by
  have hchild : c ∈ n.children := by
    rwa [children, hn, Option.map_some, Option.getD_some] at hc
  obtain ⟨hstart, hstop⟩ := hnested n (Array.mem_of_getElem? hn) c hchild m hm
  rw [h.span_eq p n hn, h.span_eq c m hm, Span.encloses_iff]
  exact ⟨pointAt_mono h.lineStarts_eq hstart, pointAt_mono h.lineStarts_eq hstop⟩

end SyntaxTree

end Outline

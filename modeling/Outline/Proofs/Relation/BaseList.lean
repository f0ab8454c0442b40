import Mathlib.Data.List.Basic
import Outline.Proofs.Relation.BaseName
import Outline.Proofs.Relation.TypeArguments

/-!
# Lists of bases

A list of bases is described by what is written in it: each base is a name, with white space around
it and perhaps arguments in brackets (`WrittenBase`), and a comma stands between each two
(`commaList`).  Reading such a list erases all type arguments and cuts the rest at its commas.

The two steps meet each base by itself.  Angle brackets in the arguments of a base have their
partners there, so what is kept of the list is what is kept of each base
(`withoutMatched_commaList`).  The first comma of a base stands behind its name, so cutting gives
one piece that begins with the name and then what stands behind each comma that was kept
(`IsTyped.filterMap_pieceBase?`).  Those further pieces are read like bases of the list.

* `splitBases_commaList`: a list is read base by base.
* `IsTyped.found_eq`: a base in whose arguments no comma is kept is read as itself.
-/

namespace Outline

open Pattern

/-! ## What is written -/

/-- The kinds of brackets that the arguments of a base stand in. -/
inductive ArgumentKind where
  | angle
  | round
  | square
  deriving DecidableEq, Repr

namespace ArgumentKind

def opening : ArgumentKind → Char
  | .angle => '<'
  | .round => '('
  | .square => '['

def closing : ArgumentKind → Char
  | .angle => '>'
  | .round => ')'
  | .square => ']'

end ArgumentKind

/-- A base as it is written in a list: a name, and perhaps arguments in brackets. -/
structure WrittenBase where
  before : Text
  name : Text
  gap : Text
  argument : Option (ArgumentKind × Text)
  after : Text
  deriving DecidableEq, Repr

namespace WrittenBase

/-- The arguments with their brackets. -/
def argumentText (b : WrittenBase) : Text :=
  match b.argument with
  | none => []
  | some (k, inner) => k.opening :: inner ++ [k.closing]

def text (b : WrittenBase) : Text :=
  b.before ++ (b.name ++ (b.gap ++ (b.argumentText ++ b.after)))

/-- A base is written with white space around its name, which is an identifier, and behind its
arguments, which stand in brackets of given kinds. -/
structure IsWritten (kinds : List ArgumentKind) (b : WrittenBase) : Prop where
  before : ∀ c ∈ b.before, isSpace c = true
  name : IsIdentifier b.name
  gap : ∀ c ∈ b.gap, isSpace c = true
  after : ∀ c ∈ b.after, isSpace c = true
  kind : ∀ k inner, b.argument = some (k, inner) → k ∈ kinds

end WrittenBase

/-- Texts with a comma between each two. -/
def commaList (texts : List Text) : Text := List.intercalate [','] texts

theorem commaList_singleton (t : Text) : commaList [t] = t := by
  simp [commaList, List.intercalate]

theorem commaList_cons_cons (t u : Text) (texts : List Text) :
    commaList (t :: u :: texts) = t ++ ',' :: commaList (u :: texts) := by
  rw [commaList, List.intercalate_cons_cons, List.append_assoc]
  rfl

/-- The first text and what is behind it. -/
theorem commaList_cons (t : Text) (texts : List Text) :
    commaList (t :: texts) = t ++ texts.flatMap (',' :: ·) := by
  induction texts generalizing t with
  | nil => rw [commaList_singleton, List.flatMap_nil, List.append_nil]
  | cons u texts ih => rw [commaList_cons_cons, ih, List.flatMap_cons, List.cons_append]

theorem splitOn_commaList : ∀ {texts : List Text}, texts ≠ [] →
    Text.splitOn ',' (commaList texts) = texts.flatMap (Text.splitOn ',')
  | [], h => absurd rfl h
  | [t], _ => by rw [commaList_singleton, List.flatMap_singleton]
  | t :: u :: texts, _ => by
    rw [commaList_cons_cons, Text.splitOn_append_cons, List.flatMap_cons,
      splitOn_commaList (List.cons_ne_nil u texts)]

/-- The pieces of a text behind its commas. -/
def behindCommas (t : Text) : List Text := (Text.splitOn ',' t).tail

theorem behindCommas_eq_nil {t : Text} (h : ',' ∉ t) : behindCommas t = [] := by
  rw [behindCommas, Text.splitOn_eq_singleton h, List.tail_cons]

/-- The first comma of a base stands behind its name. -/
theorem splitOn_text {kinds : List ArgumentKind} {b : WrittenBase} (hb : b.IsWritten kinds)
    (t : Text) : Text.splitOn ',' (b.before ++ (b.name ++ (b.gap ++ t))) =
      (b.before ++ (b.name ++ (b.gap ++ (Text.splitOn ',' t).headD []))) ::
        behindCommas t := by
  have hcomma : ',' ∉ b.before ++ (b.name ++ b.gap) := by
    rw [List.mem_append, List.mem_append, not_or, not_or]
    exact ⟨notMem_of_forall_isSpace hb.before (by decide), hb.name.notMem (by decide),
      notMem_of_forall_isSpace hb.gap (by decide)⟩
  have hsplit := Text.splitOn_append_left hcomma t
  rw [List.append_assoc, List.append_assoc, List.append_assoc, List.append_assoc] at hsplit
  exact hsplit

/-- The white space behind the arguments has nothing else in it. -/
theorem notMem_append_after {kinds : List ArgumentKind} {b : WrittenBase} (hb : b.IsWritten kinds)
    {t : Text} {c : Char} (h : c ∉ t) (hc : isSpace c = false) : c ∉ t ++ b.after :=
  fun hmem => (List.mem_append.mp hmem).elim h (notMem_of_forall_isSpace hb.after hc)

/-! ## Lists after a colon -/

namespace WrittenBase

variable {b : WrittenBase}

/-- The arguments that are left when type arguments are erased. -/
def keptArgument (b : WrittenBase) : Text := withoutMatched b.argumentText

/-- The base that is meant. -/
def base (b : WrittenBase) : Base := ⟨b.name, b.argument.any (·.1 == .round)⟩

/-- All bases that are read: the one that is meant, and what stands behind commas that are left. -/
def found (b : WrittenBase) : List Base :=
  b.base :: (behindCommas (b.keptArgument ++ b.after)).filterMap pieceBase?

/-- What a list after a colon asks of a base: its arguments are type arguments, or those of a call,
and angle brackets in them have partners.  A word about access that is the name of a base has no
white space before its arguments. -/
structure IsTyped (b : WrittenBase) : Prop extends b.IsWritten [.angle, .round] where
  enclosed : ∀ k inner, b.argument = some (k, inner) → IsEnclosed inner
  access : (∃ s ∈ accessNames, b.name = s.toList) → b.gap = []

theorem IsTyped.isEnclosed_argumentText (hb : b.IsTyped) : IsEnclosed b.argumentText := by
  rw [argumentText]
  cases harg : b.argument with
  | none => exact .nil
  | some arg =>
    obtain ⟨k, inner⟩ := arg
    have hinner := hb.enclosed k inner harg
    cases k with
    | angle => exact .group hinner .nil
    | round =>
      exact .char (by decide) (by decide)
        (hinner.append (.char (by decide) (by decide) .nil))
    | square =>
      exact .char (by decide) (by decide)
        (hinner.append (.char (by decide) (by decide) .nil))

/-- Of type arguments nothing is kept, of those of a call what is not in angle brackets. -/
theorem IsTyped.keptArgument_cases (hb : b.IsTyped) :
    (b.keptArgument = [] ∧ b.base.called = false) ∨
      ∃ inner, b.argument = some (.round, inner) ∧
        b.keptArgument = '(' :: (withoutMatched inner ++ [')']) ∧ b.base.called = true := by
  rw [keptArgument, argumentText, base]
  cases harg : b.argument with
  | none => exact Or.inl ⟨rfl, rfl⟩
  | some arg =>
    obtain ⟨k, inner⟩ := arg
    have hinner := hb.enclosed k inner harg
    have hkind := hb.kind k inner harg
    cases k with
    | angle => exact Or.inl ⟨withoutMatched_group hinner, rfl⟩
    | round =>
      have hopening : ∀ c ∈ ['('], c ≠ '<' ∧ c ≠ '>' := Text.forall_of_all (by decide)
      have hclosing : ∀ c ∈ [')'], c ≠ '<' ∧ c ≠ '>' := Text.forall_of_all (by decide)
      have hkept := withoutMatched_append (isEnclosed_of_forall hopening)
        (hinner.append (isEnclosed_of_forall hclosing))
      rw [withoutMatched_append hinner (isEnclosed_of_forall hclosing),
        withoutMatched_of_forall hopening, withoutMatched_of_forall hclosing] at hkept
      exact Or.inr ⟨inner, rfl, hkept, rfl⟩
    | square => exact absurd hkind (by decide)

/-- White space and names before a text stay when type arguments are erased. -/
theorem withoutMatched_append_left {t u : Text}
    (ht : ∀ c ∈ t, isSpace c = true ∨ isNameChar c = true) (hu : IsEnclosed u) :
    IsEnclosed (t ++ u) ∧ withoutMatched (t ++ u) = t ++ withoutMatched u := by
  have hplain : ∀ c ∈ t, c ≠ '<' ∧ c ≠ '>' := by
    intro c hc
    constructor
    · rintro rfl
      exact absurd (ht _ hc) (by decide)
    · rintro rfl
      exact absurd (ht _ hc) (by decide)
  have henclosed := isEnclosed_of_forall hplain
  exact ⟨henclosed.append hu,
    by rw [withoutMatched_append henclosed hu, withoutMatched_of_forall hplain]⟩

/-- Of a base all is kept but its type arguments. -/
theorem IsTyped.withoutMatched_text (hb : b.IsTyped) : IsEnclosed b.text ∧
    withoutMatched b.text = b.before ++ (b.name ++ (b.gap ++ (b.keptArgument ++ b.after))) := by
  obtain ⟨hafter, hkeptAfter⟩ := withoutMatched_append_left (fun c hc => Or.inl (hb.after c hc))
    .nil
  rw [List.append_nil] at hafter hkeptAfter
  have hargument := withoutMatched_append hb.isEnclosed_argumentText hafter
  rw [hkeptAfter] at hargument
  obtain ⟨hgap, hkeptGap⟩ := withoutMatched_append_left (fun c hc => Or.inl (hb.gap c hc))
    (hb.isEnclosed_argumentText.append hafter)
  obtain ⟨hname, hkeptName⟩ := withoutMatched_append_left
    (fun c hc => Or.inr (hb.name.chars c hc)) hgap
  obtain ⟨htext, hkeptText⟩ := withoutMatched_append_left
    (fun c hc => Or.inl (hb.before c hc)) hname
  refine ⟨htext, ?_⟩
  have hnil : withoutMatched [] = [] := rfl
  rw [text, hkeptText, hkeptName, hkeptGap, hargument, keptArgument, hnil, List.append_nil]

/-- The first piece of what stands behind the name ends the name there. -/
theorem IsTyped.endsName (hb : b.IsTyped) {head : Text}
    (hhead : (Text.splitOn ',' (b.keptArgument ++ b.after)).headD [] = head) :
    EndsName (b.gap ++ head) ∧
      ((∃ s ∈ accessNames, b.name = s.toList) →
        (b.gap ++ head).trimEnd.head?.any isSpace = false) ∧
      (b.gap ++ head).any (· == '(') = b.base.called := by
  subst hhead
  rcases hb.keptArgument_cases with ⟨hkept, hcalled⟩ | ⟨inner, -, hkept, hcalled⟩
  · have hsplit : Text.splitOn ',' b.after = [b.after] :=
      Text.splitOn_eq_singleton (notMem_of_forall_isSpace hb.after (by decide))
    have hspace : ∀ c ∈ b.gap ++ b.after, isSpace c = true := fun c hc =>
      (List.mem_append.mp hc).elim (hb.gap c) (hb.after c)
    rw [hkept, List.nil_append, hsplit, List.headD_cons, hcalled]
    refine ⟨fun c hc => hspace c ((List.takeWhile_prefix _).subset hc), fun _ => ?_,
      any_of_forall_isSpace hspace (by decide)⟩
    rw [Text.trimEnd_eq_nil hspace]
    rfl
  · rw [hkept, List.cons_append, Text.splitOn_cons_of_ne (by decide), List.headD_cons, hcalled]
    refine ⟨endsName_append hb.gap ?_, fun haccess => ?_, ?_⟩
    · rintro c hc
      obtain rfl := Option.some.inj hc
      decide
    · rw [hb.access haccess, List.nil_append, ← List.singleton_append,
        Text.trimEnd_append (by decide), List.singleton_append, List.head?_cons, Option.any_some]
      decide
    · rw [List.any_append, List.any_cons, beq_self_eq_true, Bool.true_or, Bool.or_true]

/-- Only commas that are left cut a base: those of type arguments do not. -/
theorem IsTyped.found_eq (hb : b.IsTyped)
    (hcomma : ∀ inner, b.argument = some (.round, inner) → ',' ∉ withoutMatched inner) :
    b.found = [b.base] := by
  have hkept : ',' ∉ b.keptArgument := by
    rcases hb.keptArgument_cases with ⟨hkept, -⟩ | ⟨inner, harg, hkept, -⟩
    · rw [hkept]
      exact List.not_mem_nil
    · rw [hkept, List.mem_cons, List.mem_append, not_or, not_or]
      exact ⟨by decide, hcomma inner harg, by decide⟩
  rw [found, behindCommas_eq_nil (notMem_append_after hb.toIsWritten hkept (by decide)),
    List.filterMap_nil]

/-- A base is read as itself, and what follows a comma of its arguments as further bases. -/
theorem IsTyped.filterMap_pieceBase? (hb : b.IsTyped) :
    (Text.splitOn ',' (withoutMatched b.text)).filterMap pieceBase? = b.found := by
  obtain ⟨hends, haccess, hcalled⟩ := hb.endsName rfl
  rw [hb.withoutMatched_text.2, splitOn_text hb.toIsWritten,
    List.filterMap_cons_some (pieceBase?_append hb.name hb.before hends haccess), hcalled]
  rfl

end WrittenBase

/-- In a list each text has its own type arguments. -/
theorem withoutMatched_commaList : ∀ {texts : List Text}, (∀ t ∈ texts, IsEnclosed t) →
    IsEnclosed (commaList texts) ∧
      withoutMatched (commaList texts) = commaList (texts.map withoutMatched)
  | [], _ => ⟨.nil, rfl⟩
  | [t], h => by
    rw [List.map_singleton, commaList_singleton, commaList_singleton]
    exact ⟨h t List.mem_cons_self, rfl⟩
  | t :: u :: texts, h => by
    obtain ⟨ht, htail⟩ := List.forall_mem_cons.mp h
    obtain ⟨hrest, hkept⟩ := withoutMatched_commaList htail
    have hcomma : ∀ c ∈ [','], c ≠ '<' ∧ c ≠ '>' := Text.forall_of_all (by decide)
    have htext : IsEnclosed (',' :: commaList (u :: texts)) := .char (by decide) (by decide) hrest
    rw [List.map_cons] at hkept
    rw [commaList_cons_cons, List.map_cons, List.map_cons, commaList_cons_cons,
      withoutMatched_append ht htext, ← List.singleton_append (l := commaList (u :: texts)),
      withoutMatched_append (isEnclosed_of_forall hcomma) hrest, hkept,
      withoutMatched_of_forall hcomma]
    exact ⟨ht.append htext, rfl⟩

/-- A list after a colon is read base by base. -/
theorem splitBases_commaList {bases : List WrittenBase} (hne : bases ≠ [])
    (hbases : ∀ b ∈ bases, b.IsTyped) :
    splitBases (commaList (bases.map WrittenBase.text)) = bases.flatMap WrittenBase.found := by
  have henclosed : ∀ t ∈ bases.map WrittenBase.text, IsEnclosed t := by
    intro t ht
    obtain ⟨b, hb, rfl⟩ := List.mem_map.mp ht
    exact (hbases b hb).withoutMatched_text.1
  have hne' : (bases.map WrittenBase.text).map withoutMatched ≠ [] := by
    rwa [Ne, List.map_eq_nil_iff, List.map_eq_nil_iff]
  rw [splitBases_eq, stripArguments_eq, (withoutMatched_commaList henclosed).2,
    splitOn_commaList hne', List.filterMap_flatMap, List.flatMap_map, List.flatMap_map]
  exact List.flatMap_congr fun b hb => (hbases b hb).filterMap_pieceBase?

end Outline

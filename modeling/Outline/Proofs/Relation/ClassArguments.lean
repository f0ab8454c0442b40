import Outline.Proofs.Relation.BaseList

/-!
# Bases between round brackets

Between the round brackets of a class stand bases and keyword arguments (`ClassArgument`).  They are
cut at commas as they are written, without a look at the brackets in them, and a piece with an
equals sign in it is taken for a keyword argument.  So a base is read up to the first comma of its
arguments, and what stands behind a comma is read like an argument of its own, also where it belongs
to the value of a keyword (`ClassArgument.filterMap_pieceName?`).

* `listedBases_commaList`: a list is read argument by argument.
* `ClassArgument.found_eq`: an argument without such characters in it is read as what is meant.
-/

namespace Outline

/-! ## Pieces -/

/-- Whether a piece may name a base: it is no keyword argument, and not the type that all others are
built upon. -/
def mayName (t : Text) : Bool := !t.isEmpty && !t.any (· == '=') && t != "object".toList

/-- The name in a piece between commas. -/
def pieceName? (piece : Text) : Option Text :=
  if mayName piece.trim && beginsName (baseName piece.trim) then some (baseName piece.trim)
  else none

theorem listedBases_eq (t : Text) :
    listedBases ',' mayName t = (Text.splitOn ',' t).filterMap pieceName? := by
  rw [listedBases]
  induction Text.splitOn ',' t with
  | nil => rfl
  | cons piece pieces ih =>
    rw [List.map_cons, List.filter_cons, List.filterMap_cons, ← ih, pieceName?]
    cases hmay : mayName piece.trim with
    | false => rfl
    | true =>
      rw [if_pos rfl, List.map_cons, List.filter_cons, Bool.true_and]
      cases beginsName (baseName piece.trim) <;> rfl

/-- A piece with a keyword names nothing. -/
theorem pieceName?_of_keyword {piece : Text} (h : '=' ∈ piece) : pieceName? piece = none := by
  have hkeyword : piece.trim.any (· == '=') = true :=
    List.any_eq_true.mpr ⟨'=', Text.mem_trim h (by decide), beq_self_eq_true '='⟩
  rw [pieceName?, mayName, hkeyword, Bool.not_true, Bool.and_false, Bool.false_and,
    Bool.false_and, if_neg Bool.false_ne_true]

variable {pre name rest : Text}

/-- An identifier with more behind it is another text than an identifier, unless there is nothing
more. -/
theorem IsIdentifier.append_eq_iff {word : Text} (hname : IsIdentifier name)
    (hrest : EndsName rest) (hword : ∀ c ∈ word, isNameChar c = true) :
    name ++ rest = word ↔ name = word ∧ rest = [] := by
  constructor
  · intro h
    have htake := congrArg (List.takeWhile isNameChar) h
    rw [Text.takeWhile_append_stop hname.chars hrest.head?_any,
      List.takeWhile_eq_self_iff.mpr hword] at htake
    rw [htake] at h
    exact ⟨htake, List.append_right_eq_self.mp h⟩
  · rintro ⟨rfl, rfl⟩
    exact List.append_nil name

/-- A piece that has an identifier up to its first bracket names it, unless it is `object`. -/
theorem pieceName?_append (hname : IsIdentifier name) (hpre : ∀ c ∈ pre, isSpace c = true)
    (hrest : EndsName rest) (hkeyword : '=' ∉ rest) :
    pieceName? (pre ++ (name ++ rest)) =
      if name = "object".toList ∧ rest.trimEnd = [] then none else some name := by
  have hplain : (name ++ rest.trimEnd).any (· == '=') = false := by
    rw [hname.any_append (by decide), any_trimEnd rest (by decide), List.any_eq_false]
    exact fun c hc heq => hkeyword (beq_iff_eq.mp heq ▸ hc)
  have hempty : (name ++ rest.trimEnd).isEmpty = false := by
    rw [List.isEmpty_eq_false_iff, Ne, List.append_eq_nil_iff]
    exact fun h => hname.ne_nil h.1
  have hobject : (name ++ rest.trimEnd != "object".toList) =
      !decide (name = "object".toList ∧ rest.trimEnd = []) := by
    rw [bne, beq_eq_decide,
      decide_eq_decide.mpr (hname.append_eq_iff hrest.trimEnd (Text.forall_of_all (by decide)))]
  rw [pieceName?, hname.trim_append hpre, mayName, hplain, hempty, hobject,
    baseName_append hname hrest.trimEnd, hname.begins]
  by_cases h : name = "object".toList ∧ rest.trimEnd = []
  · rw [if_pos h, decide_eq_true h]
    rfl
  · rw [if_neg h, decide_eq_false h]
    rfl

/-! ## What is written -/

/-- What is written between the round brackets of a class: a base, or a keyword with a value. -/
inductive ClassArgument where
  | base (b : WrittenBase)
  | keyword (key value : Text)
  deriving DecidableEq, Repr

namespace ClassArgument

def text : ClassArgument → Text
  | base b => b.text
  | keyword key value => key ++ '=' :: value

/-- A base has its arguments in square brackets, and a keyword is a name with white space. -/
def IsWritten : ClassArgument → Prop
  | base b => b.IsWritten [.square]
  | keyword key _ => ∀ c ∈ key, isSpace c = true ∨ isNameChar c = true

/-- There are no commas in the arguments of a base or in a value, and no equals signs in the
arguments of a base. -/
def IsPlain : ClassArgument → Prop
  | base b => ',' ∉ b.argumentText ∧ '=' ∉ b.argumentText
  | keyword _ value => ',' ∉ value

instance : DecidablePred IsPlain
  | base b => inferInstanceAs (Decidable (',' ∉ b.argumentText ∧ '=' ∉ b.argumentText))
  | keyword _ value => inferInstanceAs (Decidable (',' ∉ value))

/-- The base that is meant, if there is one: `object` alone is none. -/
def meant? : ClassArgument → Option Text
  | base b => if b.name = "object".toList ∧ b.argument = none then none else some b.name
  | keyword _ _ => none

/-- The base that is read before the first comma: none behind which an equals sign stands. -/
def named? : ClassArgument → Option Text
  | base b =>
    if '=' ∈ (Text.splitOn ',' (b.argumentText ++ b.after)).headD [] then none
    else (base b).meant?
  | keyword _ _ => none

/-- What stands behind the name or the keyword. -/
def behind : ClassArgument → Text
  | base b => b.argumentText ++ b.after
  | keyword _ value => value

/-- All names that are read. -/
def found (a : ClassArgument) : List Text :=
  a.named?.toList ++ (behindCommas a.behind).filterMap pieceName?

end ClassArgument

/-! ## Reading one -/

section Reading

variable {b : WrittenBase}

/-- There are square brackets behind the name, or there is nothing. -/
theorem WrittenBase.IsWritten.argumentText_cases (hb : b.IsWritten [.square]) :
    (b.argument = none ∧ b.argumentText = []) ∨
      ∃ inner, b.argument = some (.square, inner) ∧ b.argumentText = '[' :: (inner ++ [']']) := by
  rw [WrittenBase.argumentText]
  cases harg : b.argument with
  | none => exact Or.inl ⟨rfl, rfl⟩
  | some arg =>
    obtain ⟨k, inner⟩ := arg
    obtain rfl := List.mem_singleton.mp (hb.kind k inner harg)
    exact Or.inr ⟨inner, rfl, rfl⟩

/-- The first piece of what stands behind the name ends the name there, and it is all white space
exactly where there are no arguments. -/
theorem WrittenBase.IsWritten.endsName (hb : b.IsWritten [.square]) :
    EndsName (b.gap ++ (Text.splitOn ',' (b.argumentText ++ b.after)).headD []) ∧
      ((b.gap ++ (Text.splitOn ',' (b.argumentText ++ b.after)).headD []).trimEnd = [] ↔
        b.argument = none) := by
  rcases hb.argumentText_cases with ⟨hnone, htext⟩ | ⟨inner, hsome, htext⟩
  · have hsplit : Text.splitOn ',' b.after = [b.after] :=
      Text.splitOn_eq_singleton (notMem_of_forall_isSpace hb.after (by decide))
    have hspace : ∀ c ∈ b.gap ++ b.after, isSpace c = true := fun c hc =>
      (List.mem_append.mp hc).elim (hb.gap c) (hb.after c)
    rw [htext, List.nil_append, hsplit, List.headD_cons]
    exact ⟨fun c hc => hspace c ((List.takeWhile_prefix _).subset hc),
      iff_of_true (Text.trimEnd_eq_nil hspace) hnone⟩
  · rw [htext, List.cons_append, Text.splitOn_cons_of_ne (by decide), List.headD_cons, hsome]
    refine ⟨endsName_append hb.gap ?_, iff_of_false ?_ (by simp)⟩
    · intro c hc
      obtain rfl := Option.some.inj hc
      decide
    · intro hnil
      have hbracket := any_trimEnd (b.gap ++ '[' :: (Text.splitOn ',' (inner ++ [']'] ++
        b.after)).headD []) (d := '[') (by decide)
      rw [hnil, List.any_append, List.any_cons, beq_self_eq_true, Bool.true_or,
        Bool.or_true] at hbracket
      exact absurd hbracket (by decide)

/-- A base is read as itself, unless an equals sign stands behind it before the first comma, and
what follows a comma as further bases. -/
theorem ClassArgument.filterMap_pieceName? {a : ClassArgument} (ha : a.IsWritten) :
    (Text.splitOn ',' a.text).filterMap pieceName? = a.found := by
  cases a with
  | base b =>
    have hb : b.IsWritten [.square] := ha
    obtain ⟨hends, hnil⟩ := hb.endsName
    have hfirst : pieceName? (b.before ++ (b.name ++ (b.gap ++
        (Text.splitOn ',' (b.argumentText ++ b.after)).headD []))) = (base b).named? := by
      rw [named?]
      split
      · rename_i hkeyword
        exact pieceName?_of_keyword (List.mem_append_right _ (List.mem_append_right _
          (List.mem_append_right _ hkeyword)))
      · rename_i hkeyword
        rw [pieceName?_append hb.name hb.before hends fun hmem => (List.mem_append.mp hmem).elim
          (notMem_of_forall_isSpace hb.gap (by decide)) hkeyword, meant?]
        simp only [hnil]
    rw [text, WrittenBase.text, splitOn_text hb, List.filterMap_cons, hfirst, found, behind]
    cases (base b).named? <;> rfl
  | keyword key value =>
    have hkey : ',' ∉ key := fun hmem => absurd (ha _ hmem) (by decide)
    have hcomma : ',' ∉ key ++ ['='] := by
      rw [List.mem_append, not_or]
      exact ⟨hkey, by decide⟩
    have hpieces := Text.splitOn_append_left hcomma value
    rw [List.append_assoc, List.singleton_append] at hpieces
    have hfirst : pieceName? (key ++ ['='] ++ (Text.splitOn ',' value).headD []) = none :=
      pieceName?_of_keyword (by simp)
    rw [text, hpieces, List.filterMap_cons_none hfirst]
    rfl

/-- A plain argument is read as what is meant. -/
theorem ClassArgument.found_eq {a : ClassArgument} (ha : a.IsWritten) (hplain : a.IsPlain) :
    a.found = a.meant?.toList := by
  cases a with
  | base b =>
    have hb : b.IsWritten [.square] := ha
    have hcomma : ',' ∉ b.argumentText ++ b.after := notMem_append_after hb hplain.1 (by decide)
    have hkeyword : '=' ∉ b.argumentText ++ b.after := notMem_append_after hb hplain.2 (by decide)
    rw [found, named?, behind, behindCommas_eq_nil hcomma, List.filterMap_nil, List.append_nil,
      Text.splitOn_eq_singleton hcomma, List.headD_cons, if_neg hkeyword]
  | keyword key value =>
    have hbehind : behindCommas value = [] := behindCommas_eq_nil hplain
    rw [found, named?, behind, hbehind, meant?]
    rfl

/-- A list between round brackets is read argument by argument. -/
theorem listedBases_commaList {arguments : List ClassArgument} (hne : arguments ≠ [])
    (harguments : ∀ a ∈ arguments, a.IsWritten) :
    listedBases ',' mayName (commaList (arguments.map ClassArgument.text)) =
      arguments.flatMap ClassArgument.found := by
  have hne' : arguments.map ClassArgument.text ≠ [] := by rwa [Ne, List.map_eq_nil_iff]
  rw [listedBases_eq, splitOn_commaList hne', List.filterMap_flatMap, List.flatMap_map]
  exact List.flatMap_congr fun a ha => ClassArgument.filterMap_pieceName? (harguments a ha)

end Reading

end Outline

import Outline.Proofs.Relation.ClassArguments
import Outline.Proofs.Relation.HeaderStart

/-!
# The bases in the header of a class

Bases are listed after a colon or between round brackets.  A header of either kind is described by
its parts (`ColonHeader`, `ArgumentHeader`), with the limits that the patterns set: type parameters
have no others in them, own arguments no brackets, and a list between round brackets no brackets of
that kind.  The search then goes through the parts one after the other and captures the list, and
constraints behind it are erased.

How many names come out depends on the commas in brackets.  After a colon, commas of type arguments
are erased with them, but those in the arguments of a call are left; between round brackets all are
left.  Each of them cuts a base, and what stands behind it becomes a name of its own if it begins
like one.

* `ColonHeader.IsWritten.exists_capture`, `ArgumentHeader.IsWritten.capture?_eq`: the list.
* `textHeritage_header`: the names.
-/

namespace Outline

open Pattern Attempt

/-! ## Optional parts -/

/-- White space and a text in brackets, or nothing. -/
def enclosedText (opening closing : Char) : Option (Text × Text) → Text
  | none => []
  | some (blanks, inner) => blanks ++ opening :: (inner ++ [closing])

/-- Before the brackets there is white space, and in them none of some characters. -/
def IsEnclosing (forbidden : String) (part : Option (Text × Text)) : Prop :=
  ∀ blanks inner, part = some (blanks, inner) →
    (∀ c ∈ blanks, isSpace c = true) ∧ ∀ c ∈ inner, c ∉ forbidden.toList

theorem except_iff {forbidden : String} {c : Char} :
    (!forbidden.toList.contains c) = true ↔ c ∉ forbidden.toList := by
  rw [Bool.not_eq_true', ← Bool.not_eq_true, List.contains_iff_mem]

/-- The first character behind white space that is taken. -/
theorem head?_dropWhile_of_takes {s : String} {o : Char} (hs : s.toList = [o])
    (ho : isSpace o = false) {ps : List Pattern} {a b : Attempt}
    (h : (chain (spaces :: literal s :: ps)).Takes a b) :
    (a.rest.dropWhile isSpace).head? = some o := by
  simp only [takes_chain_cons_iff, spaces, space, takes_many_char_iff, takes_literal_iff, hs] at h
  obtain ⟨e, ⟨w, hw, he⟩, f, hf, -⟩ := h
  rw [he.rest_eq, hf.rest_eq, Text.dropWhile_append_stop hw (by exact ho)]
  rfl

/-- A text before which there may be a part in brackets. -/
theorem any_head?_enclosedText_append {p : Char → Bool} {o c : Char} (ho : p o = true)
    (hspace : isSpace o = false) {forbidden : String} {part : Option (Text × Text)}
    (hpart : IsEnclosing forbidden part) {t : Text}
    (ht : (t.dropWhile isSpace).head?.any p = true) :
    ((enclosedText o c part ++ t).dropWhile isSpace).head?.any p = true := by
  cases part with
  | none => exact ht
  | some part =>
    obtain ⟨blanks, inner⟩ := part
    rw [enclosedText, List.append_assoc,
      Text.dropWhile_append_stop (hpart blanks inner rfl).1 (by exact hspace)]
    exact ho

/-- A part in brackets is gone through where it stands, and passed over where the next character
that is not white space is another one than its opening bracket. -/
theorem leads_enclosed {limit : Nat} {forbidden opening closing : String} {o c : Char}
    (ho : opening.toList = [o]) (hc : closing.toList = [c]) (hspace : isSpace o = false)
    (hclosing : c ∈ forbidden.toList) {part : Option (Text × Text)}
    (hpart : IsEnclosing forbidden part) {a b : Attempt} (h : a.Skips (enclosedText o c part) b)
    (hlimit : a.rest.length ≤ limit) (hnext : (b.rest.dropWhile isSpace).head? ≠ some o) :
    Leads limit (opt (chain [spaces, opening, many (except forbidden), closing])) a b := by
  cases part with
  | none =>
    obtain rfl := Skips.nil_iff.mp h
    exact .opt_of_not_takes fun d hd => hnext (head?_dropWhile_of_takes ho hspace hd)
  | some part =>
    obtain ⟨blanks, inner⟩ := part
    obtain ⟨hblanks, hinner⟩ := hpart blanks inner rfl
    obtain ⟨d, hd, h⟩ := Skips.append_iff.mp h
    obtain ⟨e, he, h⟩ := Skips.cons_iff.mp h
    obtain ⟨f, hf, hb⟩ := Skips.append_iff.mp h
    have hdrest : d.rest = o :: e.rest := he.rest_eq
    have hfrest : f.rest = c :: b.rest := hb.rest_eq
    refine .opt (.chain_cons (.many_char hblanks hd ?_ hlimit) (.chain_cons (.literal (ho ▸ he))
      (.chain_cons (.many_char (fun ch hch => except_iff.mpr (hinner ch hch)) hf ?_ ?_)
        (.literal (hc ▸ hb)))))
    · rw [hdrest]
      exact hspace
    · rw [hfrest, List.head?_cons, Option.any_some, List.contains_iff_mem.mpr hclosing]
      rfl
    · exact Nat.le_trans he.length_le (Nat.le_trans hd.length_le hlimit)

/-! ## Bases after a colon -/

/-- Declarations that may have bases after a colon. -/
def typeDeclarator : Declarator where
  keywords := ["class", "struct", "interface", "object", "record", "protocol", "enum"]
  openers := ['<', '(', ':']
  keywords_ne := by decide
  keyword_ne := by decide
  all_isWord := by decide
  apart := by decide
  any_isWord := by decide

/-- What may stand between the name and the bases, and the bases. -/
def colonParts : List Pattern :=
  [opt (chain [spaces, "<", many (except ">\x7b"), ">"]),
    opt (chain [spaces, "(", many (except ")"), ")"]), spaces, ":", spaces,
    captured (many1 (except "\x7b;"))]

theorem colonClause_eq : colonClause = typeDeclarator.clause colonParts := rfl

theorem colonParts_opens {a b : Attempt} (h : (chain colonParts).Takes a b) :
    (a.rest.dropWhile isSpace).head?.any typeDeclarator.opens = true := by
  rw [colonParts, takes_chain_cons_iff] at h
  obtain ⟨c, hparameters, h⟩ := h
  rcases takes_opt_iff.mp hparameters with hparameters | rfl
  · rw [head?_dropWhile_of_takes (o := '<') rfl (by decide) hparameters]
    rfl
  rw [takes_chain_cons_iff] at h
  obtain ⟨d, harguments, h⟩ := h
  rcases takes_opt_iff.mp harguments with harguments | rfl
  · rw [head?_dropWhile_of_takes (o := '(') rfl (by decide) harguments]
    rfl
  · rw [head?_dropWhile_of_takes (o := ':') rfl (by decide) h]
    rfl

/-- A header with bases after a colon. -/
structure ColonHeader where
  start : HeaderStart
  parameters : Option (Text × Text)
  arguments : Option (Text × Text)
  gap : Text
  bases : List WrittenBase
  constraints : Option Text
  tail : Text
  deriving DecidableEq, Repr

namespace ColonHeader

/-- Constraints with their keyword. -/
def constraintText (h : ColonHeader) : Text :=
  match h.constraints with
  | none => []
  | some t => "where".toList ++ t

/-- What stands behind the colon. -/
def list (h : ColonHeader) : Text := commaList (h.bases.map WrittenBase.text) ++ h.constraintText

def text (h : ColonHeader) : Text :=
  h.start.text ++ (enclosedText '<' '>' h.parameters ++ (enclosedText '(' ')' h.arguments ++
    (h.gap ++ ':' :: (h.list ++ h.tail))))

end ColonHeader

variable {h : ColonHeader}

/-- A list is captured without the white space in front, up to the character that ends it. -/
theorem exists_leads_captured {forbidden : String} {limit : Nat} {list tail : Text}
    (hne : list.trimStart ≠ []) (hlist : ∀ c ∈ list, c ∉ forbidden.toList)
    (htail : ∀ c, tail.head? = some c → c ∈ forbidden.toList) {a : Attempt}
    (ha : a.rest = list ++ tail) (hlimit : a.rest.length ≤ limit) :
    ∃ u b x, a.Skips u b ∧ b.Skips list.trimStart x ∧
      Leads limit (chain [spaces, captured (many1 (except forbidden))]) a
        (x.record 1 b.index) := by
  have hsplit : a.rest = list.takeWhile isSpace ++ (list.trimStart ++ tail) := by
    rw [← List.append_assoc, Text.trimStart, List.takeWhile_append_dropWhile, ha]
  obtain ⟨b, hb, hbrest⟩ := exists_skips hsplit
  obtain ⟨x, hx, hxrest⟩ := exists_skips hbrest
  refine ⟨_, b, x, hb, hx, .chain_cons (.many_char (w := list.takeWhile isSpace) ?_ hb ?_ hlimit)
    (.group 1 (.many1_char hne ?_ hx ?_ (Nat.le_trans hb.length_le hlimit)))⟩
  · exact fun c hc => List.mem_takeWhile_imp hc
  · rw [hbrest, Text.any_head?_append hne]
    exact Text.head?_trimStart list
  · exact fun c hc => except_iff.mpr (hlist c ((List.dropWhile_sublist isSpace).subset hc))
  · rw [hxrest]
    cases hhead : tail.head? with
    | none => rfl
    | some c =>
      rw [Option.any_some, List.contains_iff_mem.mpr (htail c hhead)]
      rfl

/-- What stands behind the colon is captured without the white space in front. -/
theorem ColonHeader.capture?_eq (hstart : h.start.IsWritten typeDeclarator)
    (hparameters : IsEnclosing ">\x7b" h.parameters) (harguments : IsEnclosing ")" h.arguments)
    (hgap : ∀ c ∈ h.gap, isSpace c = true) (hne : h.list.trimStart ≠ [])
    (hlist : ∀ c ∈ h.list, c ∉ "\x7b;".toList)
    (htail : ∀ c, h.tail.head? = some c → c ∈ "\x7b;".toList) :
    capture? colonClause h.text = some h.list.trimStart := by
  have hcolon : ((h.gap ++ ':' :: (h.list ++ h.tail)).dropWhile isSpace).head? = some ':' := by
    rw [Text.dropWhile_append_stop hgap (by exact (by decide : isSpace ':' = false))]
    rfl
  have hbehind : ((enclosedText '(' ')' h.arguments ++
      (h.gap ++ ':' :: (h.list ++ h.tail))).dropWhile isSpace).head?.any
        (fun c => c == '(' || c == ':') = true :=
    any_head?_enclosedText_append (by decide) (by decide) harguments (by rw [hcolon]; rfl)
  have hopens : ((enclosedText '<' '>' h.parameters ++ (enclosedText '(' ')' h.arguments ++
      (h.gap ++ ':' :: (h.list ++ h.tail)))).dropWhile isSpace).head?.any
        typeDeclarator.opens = true :=
    any_head?_enclosedText_append (by decide) (by decide) hparameters
      (any_head?_enclosedText_append (by decide) (by decide) harguments (by rw [hcolon]; rfl))
  rw [colonClause_eq, ColonHeader.text]
  refine HeaderStart.capture?_clause hstart (fun a b => colonParts_opens) hopens
    fun b hb hgroups hlimit => ?_
  obtain ⟨c, hc, hcrest⟩ := exists_skips hb
  obtain ⟨d, hd, hdrest⟩ := exists_skips hcrest
  obtain ⟨e, he, herest⟩ := exists_skips hdrest
  obtain ⟨f, hf, hfrest⟩ := exists_skips (w := [':']) herest
  have hclimit := Nat.le_trans hc.length_le hlimit
  have hdlimit := Nat.le_trans hd.length_le hclimit
  obtain ⟨u, g, x, hg, hx, hlast⟩ := exists_leads_captured hne hlist htail hfrest
    (Nat.le_trans hf.length_le (Nat.le_trans he.length_le hdlimit))
  refine ⟨_, g, x, x.record 1 g.index, hc.trans (hd.trans (he.trans (hf.trans hg))), hx, ?_, ?_⟩
  · rw [Attempt.record, hx.groups_eq, hg.groups_eq, hf.groups_eq, he.groups_eq, hd.groups_eq,
      hc.groups_eq, hgroups]
  · refine .chain_cons (leads_enclosed rfl rfl (by decide) (by decide) hparameters hc hlimit ?_)
      (.chain_cons (leads_enclosed rfl rfl (by decide) (by decide) harguments hd hclimit ?_)
        (.chain_cons (.many_char hgap he ?_ hdlimit) (.chain_cons (.literal hf) hlast)))
    · rw [hcrest]
      intro hopening
      rw [hopening] at hbehind
      exact absurd hbehind (by decide)
    · rw [hdrest, hcolon]
      decide
    · rw [herest]
      exact (by decide : isSpace ':' = false)

/-! ## Constraints -/

/-- Where constraints are found, their keyword stands as a word. -/
theorem exists_of_takes_whereClause {t u : Text} {a b : Attempt} (ha : (front t).Skips u a)
    (h : whereClause.Takes a b) :
    ∃ v, t = u ++ ("where".toList ++ v) ∧ u.getLast?.any isWord = false ∧
      v.head?.any isWord = false := by
  simp only [whereClause, takes_chain_cons_iff, boundary, takes_anchor_iff, takes_literal_iff] at h
  obtain ⟨d, ⟨hbefore, hd⟩, c, hc, -, ⟨hbehind, -⟩, -⟩ := h
  subst hd
  have hstart : d.before = u.getLast? := by
    rw [ha.before_eq]
    exact Option.or_none
  have hword : d.rest.head?.any isWord = true := by
    rw [hc.rest_eq]
    exact (by decide : isWord 'w' = true)
  have hend : c.before.any isWord = true := by
    rw [hc.before_eq]
    exact (by decide : isWord 'e' = true)
  rw [Anchor.holds, hstart, hword, bne_iff_ne, ne_eq, Bool.not_eq_true] at hbefore
  rw [Anchor.holds, hend, bne_iff_ne, ne_comm, ne_eq, Bool.not_eq_true] at hbehind
  refine ⟨c.rest, ?_, hbefore, hbehind⟩
  rw [← hc.rest_eq, ← ha.rest_eq]
  rfl

theorem eraseFirst_whereClause {t : Text} (ht : "where".toList ∉ Text.words t) :
    whereClause.eraseFirst t = t := by
  refine eraseFirst_eq_self fun u a b ha hab => ?_
  obtain ⟨v, rfl, hu, hv⟩ := exists_of_takes_whereClause ha hab
  exact ht (Text.mem_words (Text.forall_of_all (by decide)) hu hv)

section Behind

variable {t v : Text} (ht : "where".toList ∉ Text.words t)
  (hlast : t.getLast?.any isSpace = true) (hv : v.head?.any isWord = false)

include ht hlast in
/-- Before the constraints none are found: an earlier keyword would be a word of the text, or have
the white space in it that the text ends in. -/
theorem not_takes_whereClause {u : Text} {a b : Attempt}
    (ha : (front (t ++ ("where".toList ++ v))).Skips u a) (hlt : u.length < t.length) :
    ¬ whereClause.Takes a b := by
  intro htakes
  have hwhere : ∀ c ∈ "where".toList, isWord c = true := Text.forall_of_all (by decide)
  obtain ⟨r, hsplit, hu, hr⟩ := exists_of_takes_whereClause ha htakes
  obtain ⟨w, hwne, rfl, hw⟩ := Text.exists_of_append_eq_append hsplit hlt
  rcases List.prefix_or_prefix_of_prefix ⟨r, hw⟩ (List.prefix_append w _) with hin | hover
  · obtain ⟨x, rfl⟩ := hin
    rw [List.append_assoc, List.append_cancel_left_eq] at hw
    refine ht (Text.mem_words hwhere hu ?_)
    cases x with
    | nil => rfl
    | cons ch x =>
      rw [hw] at hr
      exact hr
  · have hword := hwhere _ (hover.subset (List.getLast_mem hwne))
    rw [List.getLast?_append_of_ne_nil _ hwne, List.getLast?_eq_some_getLast hwne,
      Option.any_some] at hlast
    rw [isWord_eq_false_of_isSpace hlast] at hword
    exact absurd hword (by decide)

include hlast hv in
/-- Constraints reach to the end of the text. -/
theorem exists_leads_whereClause (hline : '\n' ∉ v) :
    ∃ a e, (front (t ++ ("where".toList ++ v))).Skips t a ∧ a.Skips ("where".toList ++ v) e ∧
      e.rest = [] ∧ Leads (t ++ ("where".toList ++ v)).length whereClause a e := by
  obtain ⟨a, ha, harest⟩ := exists_skips (a := front (t ++ ("where".toList ++ v))) (w := t) rfl
  obtain ⟨c, hc, hcrest⟩ := exists_skips harest
  have hcsplit : c.rest = v ++ [] := by rw [hcrest, List.append_nil]
  obtain ⟨e, he, herest⟩ := exists_skips hcsplit
  have hstart : Anchor.boundary.holds a = true := by
    have hbefore : a.before = t.getLast? := by
      rw [ha.before_eq]
      exact Option.or_none
    have hspace : t.getLast?.any isWord = false := by
      cases hend : t.getLast? with
      | none => rfl
      | some ch =>
        rw [hend, Option.any_some] at hlast
        exact isWord_eq_false_of_isSpace hlast
    rw [Anchor.holds, hbefore, hspace, harest]
    exact (by decide : (false != isWord 'w') = true)
  have hstop : Anchor.boundary.holds c = true := by
    rw [Anchor.holds, hc.before_eq, hcrest, hv]
    exact (by decide : (isWord 'e' != false) = true)
  refine ⟨a, e, ha, hc.trans he, herest, .chain_cons (.anchor hstart) (.chain_cons (.literal hc)
    (.chain_cons (.anchor hstop) (.chain_cons (.many_char (w := v) ?_ he ?_ ?_) (.anchor ?_))))⟩
  · have hfeed : "\n".toList = ['\n'] := rfl
    intro ch hch
    rw [except_iff, hfeed, List.mem_singleton]
    rintro rfl
    exact hline hch
  · rw [herest]
    rfl
  · exact Nat.le_trans hc.length_le ha.length_le
  · rw [Anchor.holds, herest]
    rfl

include ht hlast hv in
theorem eraseFirst_whereClause_append (hline : '\n' ∉ v) :
    whereClause.eraseFirst (t ++ ("where".toList ++ v)) = t := by
  obtain ⟨a, e, ha, he, herest, hleads⟩ := exists_leads_whereClause hlast hv hline
  have hfirst := first?_eq_of_leads ha hleads fun u b c hb hlt =>
    not_takes_whereClause ht hlast hb hlt
  rw [eraseFirst_eq_append ha he.toPasses hfirst, herest, List.append_nil]

end Behind

/-! ## Reading the bases after a colon -/

namespace WrittenBase

/-- A base without the white space in front. -/
def unindented (b : WrittenBase) : WrittenBase := { b with before := [] }

theorem text_eq (b : WrittenBase) : b.text = b.before ++ b.unindented.text := rfl

theorem IsTyped.unindented {b : WrittenBase} (hb : b.IsTyped) : b.unindented.IsTyped where
  before := by simp [WrittenBase.unindented]
  name := hb.name
  gap := hb.gap
  after := hb.after
  kind := hb.kind
  enclosed := hb.enclosed
  access := hb.access

theorem commaList_eq (b : WrittenBase) (bs : List WrittenBase) :
    commaList ((b :: bs).map text) = b.before ++ commaList ((b.unindented :: bs).map text) := by
  rw [List.map_cons, List.map_cons, commaList_cons, commaList_cons, text_eq, List.append_assoc]

/-- Without the white space in front a list of bases begins with a name. -/
theorem exists_commaList_eq (b : WrittenBase) (bs : List WrittenBase) :
    ∃ t, commaList ((b.unindented :: bs).map text) = b.name ++ t := by
  refine ⟨b.gap ++ (b.argumentText ++ b.after) ++ (bs.map text).flatMap (',' :: ·), ?_⟩
  rw [List.map_cons, commaList_cons, ← List.append_assoc]
  rfl

end WrittenBase

namespace ColonHeader

/-- A header as it is written: its type parameters have no others in them, its own arguments no
brackets, and `where` is no word of the list of bases. -/
structure IsWritten (h : ColonHeader) : Prop where
  start : h.start.IsWritten typeDeclarator
  parameters : IsEnclosing ">\x7b" h.parameters
  arguments : IsEnclosing ")" h.arguments
  gap : ∀ c ∈ h.gap, isSpace c = true
  bases_ne : h.bases ≠ []
  bases : ∀ b ∈ h.bases, b.IsTyped
  list : ∀ c ∈ h.list, c ∉ "\x7b;".toList
  where_notMem : "where".toList ∉ Text.words (commaList (h.bases.map WrittenBase.text))
  constraints : ∀ t, h.constraints = some t → t.head?.any isWord = false ∧ '\n' ∉ t ∧
    (commaList (h.bases.map WrittenBase.text)).getLast?.any isSpace = true
  tail : ∀ c, h.tail.head? = some c → c ∈ "\x7b;".toList

theorem eraseFirst_constraints {t : Text} (ht : "where".toList ∉ Text.words t)
    (hconstraints : ∀ v, h.constraints = some v → v.head?.any isWord = false ∧ '\n' ∉ v ∧
      t.getLast?.any isSpace = true) :
    whereClause.eraseFirst (t ++ h.constraintText) = t := by
  rw [constraintText]
  cases hsome : h.constraints with
  | none => rw [List.append_nil, eraseFirst_whereClause ht]
  | some v =>
    obtain ⟨hv, hline, hlast⟩ := hconstraints v hsome
    exact eraseFirst_whereClause_append ht hlast hv hline

/-- The list of bases is captured, and read base by base. -/
theorem IsWritten.exists_capture (hh : h.IsWritten) : ∃ list,
    capture? colonClause h.text = some list ∧
      splitBases (whereClause.eraseFirst list) = h.bases.flatMap WrittenBase.found := by
  obtain ⟨b, bs, hbases⟩ := List.exists_cons_of_ne_nil hh.bases_ne
  have htyped := hh.bases
  rw [hbases] at htyped
  obtain ⟨hb, hbs⟩ := List.forall_mem_cons.mp htyped
  obtain ⟨u, hu⟩ := b.exists_commaList_eq bs
  have hlist := WrittenBase.commaList_eq b bs
  have hwhere := hh.where_notMem
  have hconstraints := hh.constraints
  rw [hbases, hlist] at hwhere hconstraints
  have hne : commaList ((b.unindented :: bs).map WrittenBase.text) ≠ [] := by
    rw [hu, Ne, List.append_eq_nil_iff]
    exact fun h => hb.name.ne_nil h.1
  have htrim : h.list.trimStart =
      commaList ((b.unindented :: bs).map WrittenBase.text) ++ h.constraintText := by
    rw [ColonHeader.list, hbases, hlist, List.append_assoc, Text.trimStart_append hb.before]
    refine Text.trimStart_eq_self ?_
    rw [hu, List.append_assoc]
    exact hb.name.head?_any _ fun c => isSpace_eq_false_of_isNameChar
  rw [List.getLast?_append_of_ne_nil _ hne] at hconstraints
  refine ⟨_, ColonHeader.capture?_eq hh.start hh.parameters hh.arguments hh.gap ?_ hh.list hh.tail,
    ?_⟩
  · rw [htrim, Ne, List.append_eq_nil_iff]
    exact fun h => hne h.1
  · have hbefore : ∀ c ∈ b.before, isWord c = false := fun c hc =>
      isWord_eq_false_of_isSpace (hb.before c hc)
    rw [htrim, eraseFirst_constraints
        (fun hmem => hwhere (Text.mem_words_append_left _ hmem hbefore)) hconstraints,
      splitBases_commaList (List.cons_ne_nil _ _) (List.forall_mem_cons.mpr ⟨hb.unindented, hbs⟩),
      hbases]
    rfl

end ColonHeader

/-! ## Reading the bases between round brackets -/

/-- Classes that may have bases between round brackets. -/
def classDeclarator : Declarator where
  keywords := ["class"]
  openers := ['(']
  keywords_ne := by decide
  keyword_ne := by decide
  all_isWord := by decide
  apart := by decide
  any_isWord := by decide

theorem argumentClause_eq : argumentClause =
    classDeclarator.clause [spaces, "(", captured (many (except ")")), ")"] := rfl

/-- A header with bases between round brackets. -/
structure ArgumentHeader where
  start : HeaderStart
  gap : Text
  arguments : List ClassArgument
  tail : Text
  deriving DecidableEq, Repr

namespace ArgumentHeader

/-- What stands between the brackets. -/
def list (h : ArgumentHeader) : Text := commaList (h.arguments.map ClassArgument.text)

def text (h : ArgumentHeader) : Text :=
  h.start.text ++ (h.gap ++ '(' :: (h.list ++ ')' :: h.tail))

/-- A header as it is written: there are no round brackets in others. -/
structure IsWritten (h : ArgumentHeader) : Prop where
  start : h.start.IsWritten classDeclarator
  gap : ∀ c ∈ h.gap, isSpace c = true
  arguments_ne : h.arguments ≠ []
  arguments : ∀ a ∈ h.arguments, a.IsWritten
  list : ')' ∉ h.list

/-- What stands between the brackets is captured. -/
theorem IsWritten.capture?_eq {h : ArgumentHeader} (hh : h.IsWritten) :
    capture? argumentClause h.text = some h.list := by
  have hbracket : isSpace '(' = false := by decide
  have hopens : ((h.gap ++ '(' :: (h.list ++ ')' :: h.tail)).dropWhile isSpace).head?.any
      classDeclarator.opens = true := by
    rw [Text.dropWhile_append_stop hh.gap (by exact hbracket)]
    rfl
  rw [argumentClause_eq, ArgumentHeader.text]
  refine HeaderStart.capture?_clause hh.start (fun a b hab => ?_) hopens
    fun b hb hgroups hlimit => ?_
  · rw [head?_dropWhile_of_takes (o := '(') rfl hbracket hab]
    rfl
  · obtain ⟨c, hc, hcrest⟩ := exists_skips hb
    obtain ⟨d, hd, hdrest⟩ := exists_skips (w := ['(']) hcrest
    have hdsplit : d.rest = h.list ++ ')' :: h.tail := hdrest
    obtain ⟨e, he, herest⟩ := exists_skips hdsplit
    obtain ⟨f, hf, -⟩ := exists_skips (a := e.record 1 d.index) (w := [')']) herest
    have hdlimit := Nat.le_trans hd.length_le (Nat.le_trans hc.length_le hlimit)
    refine ⟨_, d, e, f, hc.trans hd, he, ?_, ?_⟩
    · rw [hf.groups_eq, Attempt.record, he.groups_eq, hd.groups_eq, hc.groups_eq, hgroups]
    · refine .chain_cons (.many_char hh.gap hc ?_ hlimit) (.chain_cons (.literal hd)
        (.chain_cons (.group 1 (.many_char ?_ he ?_ hdlimit)) (.literal hf)))
      · rw [hcrest]
        exact hbracket
      · have hclosing : ")".toList = [')'] := rfl
        intro c hc
        rw [except_iff, hclosing, List.mem_singleton]
        rintro rfl
        exact hh.list hc
      · rw [herest]
        rfl

end ArgumentHeader

/-! ## Headers -/

/-- Bases as they are divided by a language, each at its place in the list. -/
def HeritageClause.divided (language : String) (kind : Kind) (bases : List Base) :
    HeritageClause where
  extended :=
    (bases.zipIdx.filter fun b => !isImplementedBase language kind b.2 b.1).map (·.1.name)
  implemented :=
    (bases.zipIdx.filter fun b => isImplementedBase language kind b.2 b.1).map (·.1.name)

theorem ColonHeader.IsWritten.textHeritage_eq (hh : h.IsWritten) (language : String) (kind : Kind) :
    textHeritage .colonList language kind h.text =
      .divided language kind (h.bases.flatMap WrittenBase.found) := by
  obtain ⟨list, hcapture, hbases⟩ := hh.exists_capture
  simp only [textHeritage, hcapture, hbases, List.partition_eq_filter_filter]
  rfl

theorem ArgumentHeader.IsWritten.textHeritage_eq {h : ArgumentHeader} (hh : h.IsWritten)
    (language : String) (kind : Kind) : textHeritage .argumentList language kind h.text =
      ⟨h.arguments.flatMap ClassArgument.found, []⟩ := by
  have hbases := listedBases_commaList hh.arguments_ne hh.arguments
  simp only [textHeritage, hh.capture?_eq]
  exact congrArg (fun names => HeritageClause.mk names []) hbases

/-- What a header names as bases.  Each base of the list is read, and besides it what stands behind
each comma that is left in brackets: after a colon only type arguments are erased before the list
is cut, and between round brackets nothing is.  If no comma is left, the names are those of the
list. -/
theorem textHeritage_header (language : String) (kind : Kind) :
    (∀ h : ColonHeader, h.IsWritten →
      textHeritage .colonList language kind h.text =
          .divided language kind (h.bases.flatMap WrittenBase.found) ∧
        ((∀ b ∈ h.bases, ∀ inner, b.argument = some (.round, inner) →
            ',' ∉ withoutMatched inner) →
          h.bases.flatMap WrittenBase.found = h.bases.map WrittenBase.base)) ∧
    ∀ h : ArgumentHeader, h.IsWritten →
      textHeritage .argumentList language kind h.text =
          ⟨h.arguments.flatMap ClassArgument.found, []⟩ ∧
        ((∀ a ∈ h.arguments, a.IsPlain) →
          h.arguments.flatMap ClassArgument.found =
            h.arguments.filterMap ClassArgument.meant?) := by
  constructor
  · intro h hh
    refine ⟨hh.textHeritage_eq language kind, fun hcomma => ?_⟩
    rw [List.map_eq_flatMap]
    exact List.flatMap_congr fun b hb => (hh.bases b hb).found_eq (hcomma b hb)
  · intro h hh
    refine ⟨hh.textHeritage_eq language kind, fun hplain => ?_⟩
    rw [List.filterMap_eq_flatMap_toList]
    exact List.flatMap_congr fun a ha => ClassArgument.found_eq (hh.arguments a ha) (hplain a ha)

/-- `data class Box<T>(val size: Int) : Shape(size), Map<K, V> where T : Any` -/
def boxHeader : ColonHeader where
  start := ⟨"data ".toList, "class", " ".toList, "Box".toList⟩
  parameters := some ([], "T".toList)
  arguments := some ([], "val size: Int".toList)
  gap := " ".toList
  bases := [⟨" ".toList, "Shape".toList, [], some (.round, "size".toList), []⟩,
    ⟨" ".toList, "Map".toList, [], some (.angle, "K, V".toList), " ".toList⟩]
  constraints := some " T : Any ".toList
  tail := []

theorem isWritten_boxHeader : boxHeader.IsWritten where
  start := ⟨by decide, by decide, by decide, by decide, Text.forall_of_all (by decide), by decide,
    Text.forall_of_all (by decide)⟩
  parameters := by
    rintro _ _ ⟨⟩
    exact ⟨Text.forall_of_all (by decide), Text.forall_of_all (by decide)⟩
  arguments := by
    rintro _ _ ⟨⟩
    exact ⟨Text.forall_of_all (by decide), Text.forall_of_all (by decide)⟩
  gap := Text.forall_of_all (by decide)
  bases_ne := by decide
  bases := by
    have hspace : ∀ {t : Text}, t.all isSpace = true → ∀ c ∈ t, isSpace c = true :=
      List.all_eq_true.mp
    have hname : ∀ {t : Text}, beginsName t = true → t.all isNameChar = true → IsIdentifier t :=
      fun hbegins hchars => ⟨hbegins, List.all_eq_true.mp hchars⟩
    refine List.forall_mem_cons.mpr ⟨⟨⟨hspace rfl, hname rfl rfl, hspace rfl, hspace rfl, ?_⟩, ?_,
      by decide⟩, List.forall_mem_singleton.mpr ⟨⟨hspace rfl, hname rfl rfl, hspace rfl, hspace rfl,
      ?_⟩, ?_, by decide⟩⟩
    · rintro _ _ ⟨⟩
      decide
    · rintro _ _ ⟨⟩
      exact isEnclosed_of_forall (Text.forall_of_all (by decide))
    · rintro _ _ ⟨⟩
      decide
    · rintro _ _ ⟨⟩
      exact isEnclosed_of_forall (Text.forall_of_all (by decide))
  list := Text.forall_of_all (by decide)
  where_notMem := by decide
  constraints := by
    rintro _ ⟨⟩
    decide
  tail := by
    rintro _ ⟨⟩

/-- `class Table(Base[int], metaclass=Meta):` -/
def tableHeader : ArgumentHeader where
  start := ⟨[], "class", " ".toList, "Table".toList⟩
  gap := []
  arguments := [.base ⟨[], "Base".toList, [], some (.square, "int".toList), []⟩,
    .keyword " metaclass".toList "Meta".toList]
  tail := ":".toList

theorem isWritten_tableHeader : tableHeader.IsWritten where
  start := ⟨by decide, by decide, by decide, by decide, Text.forall_of_all (by decide), by decide,
    Text.forall_of_all (by decide)⟩
  gap := Text.forall_of_all (by decide)
  arguments_ne := by decide
  arguments := by
    refine List.forall_mem_cons.mpr ⟨?_, List.forall_mem_singleton.mpr ?_⟩
    · refine ⟨Text.forall_of_all (by decide), ⟨by decide, Text.forall_of_all (by decide)⟩,
        Text.forall_of_all (by decide), Text.forall_of_all (by decide), ?_⟩
      rintro _ _ ⟨⟩
      decide
    · exact Text.forall_of_all (t := " metaclass".toList) (by decide)
  list := by decide

theorem textHeritage_header_of_isWritten :
    (boxHeader.IsWritten ∧ tableHeader.IsWritten) ∧
      textHeritage .colonList "kotlin" .classDecl boxHeader.text =
        ⟨["Shape".toList], ["Map".toList]⟩ ∧
      textHeritage .argumentList "python" .classDecl tableHeader.text = ⟨["Base".toList], []⟩ := by
  obtain ⟨hbox, hboxNames⟩ :=
    (textHeritage_header "kotlin" .classDecl).1 boxHeader isWritten_boxHeader
  obtain ⟨htable, htableNames⟩ :=
    (textHeritage_header "python" .classDecl).2 tableHeader isWritten_tableHeader
  refine ⟨⟨isWritten_boxHeader, isWritten_tableHeader⟩, ?_, ?_⟩
  · rw [hbox, hboxNames]
    · decide
    · refine List.forall_mem_cons.mpr ⟨?_, List.forall_mem_singleton.mpr ?_⟩
      · rintro _ ⟨⟩
        decide
      · rintro _ ⟨⟩
  · rw [htable, htableNames (by decide)]
    decide

/-- A comma in the arguments of a base makes a name of what stands behind it. -/
theorem textHeritage_header_ne :
    textHeritage .colonList "kotlin" .classDecl "class A : B(x, y), C ".toList =
        ⟨["B".toList], ["y)".toList, "C".toList]⟩ ∧
      textHeritage .argumentList "python" .classDecl "class A(Dict[str, int]): ".toList =
        ⟨["Dict".toList, "int]".toList], []⟩ := by
  decide +kernel

end Outline

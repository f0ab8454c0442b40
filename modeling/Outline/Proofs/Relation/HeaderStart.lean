import Mathlib.Data.List.Infix
import Outline.Proofs.Pattern.FirstWay
import Outline.Proofs.Text.Pieces
import Outline.Proofs.Text.Space
import Outline.Relation.Heritage

/-!
# Where a header is found

A header begins with a keyword and a name, and there may be other words before the keyword, among
them keywords: in `enum class A` the first one is followed by a word that is no name.  A search for
the header goes past these, unless one of them stands before a word with a character behind it that
may stand behind the name of a declaration.  This is what `Declarator.DeclaresNothing` excludes, by
a walk over the text (`behindName`).

The words before the header end before the keyword, so what stands behind them is either in front of
the header as well, or it begins with the keyword or the name (`behindName_append_start`).

* `HeaderStart.not_takes_clause`: before the keyword nothing is found.
* `HeaderStart.capture?_clause`: the search captures what the pattern behind the name captures.
-/

namespace Outline

open Pattern Attempt

/-! ## What is written -/

/-- What stands behind a word, white space and another word, and more white space. -/
def behindName (t : Text) : Text :=
  (((t.dropWhile isWord).dropWhile isSpace).dropWhile isWord).dropWhile isSpace

/-- The keywords of a kind of declaration, and the characters that may stand behind a name. -/
structure Declarator where
  keywords : List String
  openers : List Char
  keywords_ne : keywords ≠ []
  keyword_ne : ∀ k ∈ keywords, k.toList ≠ []
  all_isWord : ∀ k ∈ keywords, k.toList.all isWord = true
  apart : ∀ k ∈ keywords, ∀ l ∈ keywords,
    l.toList <+: k.toList ∨ k.toList <+: l.toList → l = k
  any_isWord : openers.any isWord = false

namespace Declarator

theorem isWord_of_keyword (d : Declarator) {k : String} (hk : k ∈ d.keywords) :
    ∀ c ∈ k.toList, isWord c = true := List.all_eq_true.mp (d.all_isWord k hk)

/-- Whether a character may stand behind the name. -/
def opens (d : Declarator) (c : Char) : Bool := d.openers.contains c

theorem opens_eq_false_of_isWord (d : Declarator) {c : Char} (h : isWord c = true) :
    d.opens c = false := by
  cases hopens : d.opens c with
  | false => rfl
  | true =>
    exact absurd h (List.any_eq_false.mp d.any_isWord c (List.contains_iff_mem.mp hopens))

/-- A declaration with more behind its name. -/
def clause (d : Declarator) (ps : List Pattern) : Pattern :=
  chain (boundary :: words d.keywords :: spaces1 :: wordRun :: ps)

/-- Nowhere in a text does a keyword stand before a name with one of the characters behind it. -/
def DeclaresNothing (d : Declarator) (t : Text) : Prop :=
  ∀ v ∈ t.tails, ∀ k ∈ d.keywords, k.toList <+: v → (behindName v).head?.any d.opens = false

instance (d : Declarator) (t : Text) : Decidable (d.DeclaresNothing t) :=
  inferInstanceAs (Decidable (∀ v ∈ t.tails, ∀ k ∈ d.keywords, _ → _))

end Declarator

/-- A header up to the name of what is declared. -/
structure HeaderStart where
  before : Text
  keyword : String
  gap : Text
  name : Text
  deriving DecidableEq, Repr

namespace HeaderStart

def text (s : HeaderStart) : Text := s.before ++ (s.keyword.toList ++ (s.gap ++ s.name))

/-- A keyword and a name, and nothing before that reads like a declaration of its own. -/
structure IsWritten (d : Declarator) (s : HeaderStart) : Prop where
  before : s.before.getLast?.any isWord = false
  declares : d.DeclaresNothing s.before
  keyword : s.keyword ∈ d.keywords
  gap_ne : s.gap ≠ []
  gap : ∀ c ∈ s.gap, isSpace c = true
  name_ne : s.name ≠ []
  name : ∀ c ∈ s.name, isWord c = true

end HeaderStart

/-! ## No earlier match -/

section Behind

/-- Where the first character that is not white space is none of a word, no word goes on. -/
theorem head?_any_isWord_of_dropWhile {p : Char → Bool} (hp : ∀ c, isWord c = true → p c = false)
    {t : Text} (h : (t.dropWhile isSpace).head?.any p = true) : t.head?.any isWord = false := by
  cases t with
  | nil => rfl
  | cons c t =>
    rw [List.head?_cons, Option.any_some]
    cases hword : isWord c with
    | false => rfl
    | true =>
      rw [List.dropWhile_cons_of_neg (by rw [isSpace_eq_false_of_isWord hword]; decide),
        List.head?_cons, Option.any_some, hp c hword] at h
      exact absurd h (by decide)

/-- A keyword, a name and what comes behind it. -/
theorem behindName_append {k s w r : Text} (hk : ∀ c ∈ k, isWord c = true)
    (hs : ∀ c ∈ s, isSpace c = true) (hsne : s ≠ []) (hw : ∀ c ∈ w, isWord c = true)
    (hwne : w ≠ []) (hr : r.head?.any isWord = false) :
    behindName (k ++ (s ++ (w ++ r))) = r.dropWhile isSpace := by
  have hgap : (s ++ (w ++ r)).head?.any isWord = false := by
    rw [Text.any_head?_append hsne]
    exact Text.head?_any_of_forall hs fun c => isWord_eq_false_of_isSpace
  have hname : (w ++ r).head?.any isSpace = false := by
    rw [Text.any_head?_append hwne]
    exact Text.head?_any_of_forall hw fun c => isSpace_eq_false_of_isWord
  rw [behindName, Text.dropWhile_append_stop hk hgap, Text.dropWhile_append_stop hs hname,
    Text.dropWhile_append_stop hw hr]

/-- A text that does not end in a word declares no more than before with another declaration behind
it. -/
theorem behindName_append_start {t k g n : Text} (hne : t ≠ [])
    (hlast : t.getLast?.any isWord = false) (hkne : k ≠ []) (hk : ∀ c ∈ k, isWord c = true)
    (hgne : g ≠ []) (hg : ∀ c ∈ g, isSpace c = true) (hn : n.head?.any isWord = true)
    {opens : Char → Bool} (hopens : ∀ c, isWord c = true → opens c = false)
    (h : (behindName t).head?.any opens = false) :
    (behindName (t ++ (k ++ (g ++ n)))).head?.any opens = false := by
  have hnot : ∀ {q : Char → Bool}, (∀ c, isWord c = true → q c = false) →
      (k ++ (g ++ n)).head?.any q = false := by
    intro q hq
    rw [Text.any_head?_append hkne]
    exact Text.head?_any_of_forall hk hq
  have hspace := hnot fun c => isSpace_eq_false_of_isWord
  have hgap : (g ++ n).head?.any isWord = false := by
    rw [Text.any_head?_append hgne]
    exact Text.head?_any_of_forall hg fun c => isWord_eq_false_of_isSpace
  obtain ⟨c, n, rfl⟩ : ∃ c cs, n = c :: cs := by
    cases n with
    | nil => exact absurd hn (by decide)
    | cons c n => exact ⟨c, n, rfl⟩
  have hc : isWord c = true := hn
  have hname : (c :: n).head?.any isSpace = false := isSpace_eq_false_of_isWord hc
  have hword : ∀ {u v : Text}, u <:+ t → u ≠ [] →
      u.dropWhile isWord ≠ [] ∧ (u ++ v).dropWhile isWord = u.dropWhile isWord ++ v := by
    intro u v hu hune
    have hstop : u.dropWhile isWord ≠ [] := by
      obtain ⟨pre, rfl⟩ := hu
      rw [List.getLast?_append_of_ne_nil _ hune] at hlast
      exact Text.dropWhile_ne_nil_of_getLast? hune hlast
    rw [List.dropWhile_append, List.isEmpty_eq_false_iff.mpr hstop, if_neg Bool.false_ne_true]
    exact ⟨hstop, rfl⟩
  obtain ⟨hne₁, heq₁⟩ := hword (List.suffix_refl t) hne
  rw [behindName] at h ⊢
  rw [heq₁]
  -- the white space behind the first word may reach to the end
  rcases Text.dropWhile_append_cases isSpace (t.dropWhile isWord) hspace with
    ⟨-, heq₂⟩ | ⟨hne₂, heq₂⟩
  · rw [heq₂, Text.dropWhile_append_stop hk hgap,
      Text.dropWhile_append_stop hg hname, List.head?_cons, Option.any_some, hopens c hc]
  · have hsuffix : (t.dropWhile isWord).dropWhile isSpace <:+ t :=
      (List.dropWhile_suffix _).trans (List.dropWhile_suffix _)
    obtain ⟨hne₃, heq₃⟩ := hword hsuffix hne₂
    rw [heq₂, heq₃]
    rcases Text.dropWhile_append_cases isSpace
      (((t.dropWhile isWord).dropWhile isSpace).dropWhile isWord) hspace with
      ⟨-, heq₄⟩ | ⟨hne₄, heq₄⟩
    · rw [heq₄]
      exact hnot hopens
    · rw [heq₄, Text.any_head?_append hne₄]
      exact h

end Behind

namespace HeaderStart

variable {d : Declarator} {s : HeaderStart} {ps : List Pattern}

/-- A declaration that is found stands where a keyword does, with a name and one of the characters
behind it. -/
theorem exists_of_takes_clause (hps : ∀ a b, (chain ps).Takes a b →
      (a.rest.dropWhile isSpace).head?.any d.opens = true) {a b : Attempt}
    (h : (d.clause ps).Takes a b) :
    (∃ k ∈ d.keywords, k.toList <+: a.rest) ∧ (behindName a.rest).head?.any d.opens = true := by
  obtain ⟨l, ls, hkeywords⟩ := List.exists_cons_of_ne_nil d.keywords_ne
  simp only [Declarator.clause, takes_chain_cons_iff, boundary, takes_anchor_iff, hkeywords,
    takes_words_iff, spaces1, space, wordRun, word, takes_many1_char_iff] at h
  obtain ⟨_, ⟨-, rfl⟩, c, ⟨k, hk, hc⟩, e, ⟨w, hwne, hw, he⟩, f, ⟨n, hnne, hn, hf⟩, hrest⟩ := h
  rw [← hkeywords] at hk
  have hopens := hps f b hrest
  have hstop : f.rest.head?.any isWord = false :=
    head?_any_isWord_of_dropWhile (fun c => d.opens_eq_false_of_isWord) hopens
  refine ⟨⟨k, hk, c.rest, hc.rest_eq.symm⟩, ?_⟩
  rw [hc.rest_eq, he.rest_eq, hf.rest_eq,
    behindName_append (d.isWord_of_keyword hk) hw hwne hn hnne hstop]
  exact hopens

/-- Before the declaration nothing is found. -/
theorem not_takes_clause (hs : s.IsWritten d) (hps : ∀ a b, (chain ps).Takes a b →
      (a.rest.dropWhile isSpace).head?.any d.opens = true) (rest : Text) {v : Text}
    {a b : Attempt} (ha : (front (s.text ++ rest)).Skips v a) (hv : v.length < s.before.length) :
    ¬ (d.clause ps).Takes a b := by
  intro htakes
  obtain ⟨⟨k, hk, hprefix⟩, hopens⟩ := exists_of_takes_clause hps htakes
  have htext : s.before ++ (s.keyword.toList ++ (s.gap ++ (s.name ++ rest))) = v ++ a.rest := by
    rw [← ha.rest_eq, front, text, List.append_assoc, List.append_assoc, List.append_assoc]
  obtain ⟨t, htne, hbefore, harest⟩ := Text.exists_of_append_eq_append htext hv
  have hlast : t.getLast?.any isWord = false := by
    have hlast := hs.before
    rwa [hbefore, List.getLast?_append_of_ne_nil _ htne] at hlast
  -- the keyword is all in front of the declaration, where no word ends
  have hkt : k.toList <+: t := by
    rw [harest] at hprefix
    rcases List.prefix_or_prefix_of_prefix hprefix (List.prefix_append t _) with h | h
    · exact h
    · have hword := d.isWord_of_keyword hk _ (h.subset (List.getLast_mem htne))
      rw [List.getLast?_eq_some_getLast htne, Option.any_some, hword] at hlast
      exact absurd hlast (by decide)
  have hdeclares := hs.declares t ((List.mem_tails _ _).mpr ⟨v, hbefore.symm⟩) k hk hkt
  have hname : (s.name ++ rest).head?.any isWord = true := by
    obtain ⟨c, n, hn⟩ := List.exists_cons_of_ne_nil hs.name_ne
    rw [hn]
    exact hs.name c (hn ▸ List.mem_cons_self)
  rw [harest, behindName_append_start htne hlast (d.keyword_ne _ hs.keyword)
    (d.isWord_of_keyword hs.keyword) hs.gap_ne hs.gap hname
    (fun c => d.opens_eq_false_of_isWord) hdeclares] at hopens
  exact absurd hopens (by decide)

/-- A search goes to the declaration, and from its name on. -/
theorem exists_leads_clause (hs : s.IsWritten d) {rest : Text}
    (hrest : rest.head?.any isWord = false) :
    ∃ a b, (front (s.text ++ rest)).Skips s.before a ∧
      a.Skips (s.keyword.toList ++ (s.gap ++ s.name)) b ∧ b.rest = rest ∧
      ∀ ps e, Leads (s.text ++ rest).length (chain ps) b e →
        Leads (s.text ++ rest).length (d.clause ps) a e := by
  have hsplit : (front (s.text ++ rest)).rest =
      s.before ++ (s.keyword.toList ++ (s.gap ++ (s.name ++ rest))) := by
    rw [front, text, List.append_assoc, List.append_assoc, List.append_assoc]
  obtain ⟨a, ha, harest⟩ := exists_skips hsplit
  obtain ⟨c, hc, hcrest⟩ := exists_skips harest
  obtain ⟨e, he, herest⟩ := exists_skips hcrest
  obtain ⟨b, hb, hbrest⟩ := exists_skips herest
  have hlimit : a.rest.length ≤ (s.text ++ rest).length := ha.length_le
  have hword := d.isWord_of_keyword hs.keyword
  have hbound : Anchor.boundary.holds a = true := by
    have hstart : a.rest.head?.any isWord = true := by
      obtain ⟨ch, k, hk⟩ := List.exists_cons_of_ne_nil (d.keyword_ne _ hs.keyword)
      rw [harest, hk]
      exact hword ch (hk ▸ List.mem_cons_self)
    rw [Anchor.holds, ha.before_eq, front, Option.or_none, hs.before, hstart]
    rfl
  have hgap : e.rest.head?.any isSpace = false := by
    rw [herest, Text.any_head?_append hs.name_ne]
    exact Text.head?_any_of_forall hs.name fun c => isSpace_eq_false_of_isWord
  refine ⟨a, b, ha, hc.trans (he.trans hb), hbrest, fun ps x hx => ?_⟩
  exact .chain_cons (.anchor hbound) (.chain_cons
    (.words hc hs.keyword (d.apart _ hs.keyword)) (.chain_cons
      (.many1_char hs.gap_ne hs.gap he hgap (Nat.le_trans hc.length_le hlimit)) (.chain_cons
        (.many1_char hs.name_ne hs.name hb (hbrest ▸ hrest)
          (Nat.le_trans he.length_le (Nat.le_trans hc.length_le hlimit))) hx)))

/-- What is captured behind the name of the declaration. -/
theorem capture?_clause (hs : s.IsWritten d) (hps : ∀ a b, (chain ps).Takes a b →
      (a.rest.dropWhile isSpace).head?.any d.opens = true) {rest w : Text}
    (hopens : (rest.dropWhile isSpace).head?.any d.opens = true)
    (h : ∀ b, b.rest = rest → b.groups = [] → b.rest.length ≤ (s.text ++ rest).length →
      ∃ u c x e, b.Skips u c ∧ c.Skips w x ∧ e.groups = [(1, c.index, x.index)] ∧
        Leads (s.text ++ rest).length (chain ps) b e) :
    capture? (d.clause ps) (s.text ++ rest) = some w := by
  obtain ⟨a, b, ha, hb, hbrest, hleads⟩ := exists_leads_clause hs
    (head?_any_isWord_of_dropWhile (fun c => d.opens_eq_false_of_isWord) hopens)
  have hgroups : b.groups = [] := by
    rw [hb.groups_eq, ha.groups_eq]
    rfl
  obtain ⟨u, c, x, e, hc, hx, he, hlead⟩ :=
    h b hbrest hgroups (Nat.le_trans hb.length_le ha.length_le)
  have hin : c.IsIn (s.text ++ rest) :=
    (((Attempt.isIn_start _).passes ha.toPasses).passes hb.toPasses).passes hc.toPasses
  rw [capture?, first?_eq_of_leads ha (hleads ps e hlead)
    fun v b c hv hlt => not_takes_clause hs hps rest hv hlt, Option.bind_some, Found.group?,
    Found.span?, he, List.lookup_cons_self, Option.map_some]
  exact congrArg some (hin.cut_eq hx.toPasses)

end HeaderStart

end Outline

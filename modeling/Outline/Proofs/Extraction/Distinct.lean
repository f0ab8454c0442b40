import Outline.Extraction.Distinct

/-!
# The first entry for each key

What is left by `distinctBy` are entries of the list (`mem_of_mem_distinctBy`), in order, and no
two of them have the same key (`nodup_map_distinctBy`).  More exactly, they are the entries before
which none has the same key (`distinctBy_eq_firstOfEach`), those that a search for their own key
finds (`mem_distinctBy_iff`).  So no key is lost (`exists_mem_distinctBy_iff`) and of the entries
with a key the first one is left (`filter_key_distinctBy`), entries that are added at the end take
nothing away (`distinctBy_prefix`), and of the keys it matters only which of them are equal
(`firstOfEach_map`).
-/

namespace Outline

variable {α β γ : Type} [BEq β] {key : α → β}

theorem distinctFrom_sublist : ∀ (entries : List α) (seen : List β),
    (distinctFrom key seen entries).Sublist entries
  | [], seen => List.Sublist.refl []
  | a :: as, seen => by
    rw [distinctFrom]
    split
    · exact (distinctFrom_sublist as seen).cons a
    · exact (distinctFrom_sublist as (key a :: seen)).cons_cons a

theorem mem_of_mem_distinctBy {entries : List α} {a : α} (h : a ∈ distinctBy key entries) :
    a ∈ entries :=
  (distinctFrom_sublist entries []).subset h

theorem distinctFrom_prefix (later : List α) : ∀ (entries : List α) (seen : List β),
    distinctFrom key seen entries <+: distinctFrom key seen (entries ++ later)
  | [], seen => List.nil_prefix
  | a :: as, seen => by
    rw [List.cons_append, distinctFrom, distinctFrom]
    split
    · exact distinctFrom_prefix later as seen
    · exact List.cons_prefix_cons.mpr ⟨rfl, distinctFrom_prefix later as (key a :: seen)⟩

/-- Further entries only add to what is left. -/
theorem distinctBy_prefix (entries later : List α) :
    distinctBy key entries <+: distinctBy key (entries ++ later) :=
  distinctFrom_prefix later entries []

variable [LawfulBEq β]

/-- No key that was seen before comes up again. -/
theorem key_notMem_of_mem_distinctFrom : ∀ {entries : List α} {seen : List β} {a : α},
    a ∈ distinctFrom key seen entries → key a ∉ seen
  | [], seen, a, h => absurd h List.not_mem_nil
  | b :: bs, seen, a, h => by
    rw [distinctFrom] at h
    split at h
    · exact key_notMem_of_mem_distinctFrom h
    · rename_i hb
      rcases List.mem_cons.mp h with rfl | h
      · exact fun hm => hb (List.contains_iff_mem.mpr hm)
      · exact fun hm => key_notMem_of_mem_distinctFrom h (List.mem_cons_of_mem _ hm)

theorem nodup_map_distinctFrom : ∀ (entries : List α) (seen : List β),
    ((distinctFrom key seen entries).map key).Nodup
  | [], seen => List.nodup_nil
  | a :: as, seen => by
    rw [distinctFrom]
    split
    · exact nodup_map_distinctFrom as seen
    · rw [List.map_cons, List.nodup_cons]
      refine ⟨fun hmem => ?_, nodup_map_distinctFrom as (key a :: seen)⟩
      obtain ⟨b, hb, hkey⟩ := List.mem_map.mp hmem
      exact key_notMem_of_mem_distinctFrom hb (hkey ▸ List.mem_cons_self)

/-- No two entries that are left have the same key. -/
theorem nodup_map_distinctBy (entries : List α) : ((distinctBy key entries).map key).Nodup :=
  nodup_map_distinctFrom entries []

theorem mem_distinctFrom_iff : ∀ {entries : List α} {seen : List β} {a : α},
    a ∈ distinctFrom key seen entries ↔
      key a ∉ seen ∧ entries.find? (fun b => key b == key a) = some a
  | [], seen, a => iff_of_false List.not_mem_nil fun h => by simpa using h.2
  | b :: bs, seen, a => by
    rw [distinctFrom]
    by_cases hkey : key b = key a
    · -- the search ends here, and so does the walk for this key
      rw [List.find?_cons, beq_iff_eq.mpr hkey, Option.some_inj]
      split
      · rename_i hb
        have hseen : key a ∈ seen := hkey ▸ List.contains_iff_mem.mp hb
        exact iff_of_false (fun h => key_notMem_of_mem_distinctFrom h hseen) fun h => h.1 hseen
      · rename_i hb
        have hseen : key a ∉ seen := fun h => hb (List.contains_iff_mem.mpr (hkey ▸ h))
        rw [List.mem_cons, eq_comm, and_iff_right hseen]
        refine or_iff_left fun h => key_notMem_of_mem_distinctFrom h ?_
        rw [← hkey]
        exact List.mem_cons_self
    · have hne : a ≠ b := fun h => hkey (congrArg key h.symm)
      rw [List.find?_cons, beq_eq_false_iff_ne.mpr hkey]
      split
      · exact mem_distinctFrom_iff
      · rw [List.mem_cons, or_iff_right hne, mem_distinctFrom_iff, List.mem_cons, not_or]
        simp only [Ne.symm hkey, not_false_eq_true, true_and]

/-- What is left are the entries that are found first by their own keys. -/
theorem mem_distinctBy_iff {entries : List α} {a : α} :
    a ∈ distinctBy key entries ↔ entries.find? (fun b => key b == key a) = some a := by
  rw [distinctBy, mem_distinctFrom_iff, and_iff_right List.not_mem_nil]

/-- No key is lost. -/
theorem exists_mem_distinctBy_iff {entries : List α} {k : β} :
    (∃ a ∈ distinctBy key entries, key a = k) ↔ ∃ a ∈ entries, key a = k := by
  constructor
  · rintro ⟨a, ha, hkey⟩
    exact ⟨a, mem_of_mem_distinctBy ha, hkey⟩
  · rintro ⟨a, ha, rfl⟩
    have hsome : (entries.find? fun b => key b == key a).isSome = true :=
      List.find?_isSome.mpr ⟨a, ha, beq_self_eq_true (key a)⟩
    obtain ⟨b, hb⟩ := Option.isSome_iff_exists.mp hsome
    have hkey : key b = key a := by simpa using List.find?_some hb
    exact ⟨b, mem_distinctBy_iff.mpr (hkey ▸ hb), hkey⟩

theorem filter_key_distinctFrom (k : β) : ∀ (entries : List α) (seen : List β),
    (distinctFrom key seen entries).filter (fun a => key a == k) =
      if k ∈ seen then [] else (entries.find? fun a => key a == k).toList
  | [], seen => by split <;> rfl
  | a :: as, seen => by
    have ih := filter_key_distinctFrom k as
    rw [distinctFrom, List.find?_cons]
    by_cases hkey : key a = k
    · have hbeq : (key a == k) = true := beq_iff_eq.mpr hkey
      rw [hbeq]
      split
      · rename_i ha
        have hseen : k ∈ seen := hkey ▸ List.contains_iff_mem.mp ha
        rw [ih, if_pos hseen, if_pos hseen]
      · rename_i ha
        have hseen : k ∉ seen := fun h => ha (List.contains_iff_mem.mpr (hkey ▸ h))
        rw [List.filter_cons, if_pos hbeq, ih, if_pos (hkey ▸ List.mem_cons_self), if_neg hseen]
        rfl
    · have hbeq : (key a == k) = false := beq_eq_false_iff_ne.mpr hkey
      have hmem : k ∈ key a :: seen ↔ k ∈ seen := by
        rw [List.mem_cons, or_iff_right (Ne.symm hkey)]
      rw [hbeq]
      split
      · exact ih seen
      · rw [List.filter_cons, hbeq, if_neg Bool.false_ne_true, ih]
        simp only [hmem]

/-- Of the entries with a key, the first one is left. -/
theorem filter_key_distinctBy (entries : List α) (k : β) :
    (distinctBy key entries).filter (fun a => key a == k) =
      (entries.find? fun a => key a == k).toList := by
  rw [distinctBy, filter_key_distinctFrom, if_neg List.not_mem_nil]

/-- The entries before which none has the same key. -/
def firstOfEach (key : α → β) (entries : List α) : List α :=
  (entries.zipIdx.filter fun e => (entries.take e.2).all fun b => key b != key e.1).map Prod.fst

theorem distinctFrom_eq : ∀ (entries done : List α) (seen : List β),
    (∀ k, k ∈ seen ↔ k ∈ done.map key) → distinctFrom key seen entries =
      ((entries.zipIdx done.length).filter fun e =>
        ((done ++ entries).take e.2).all fun b => key b != key e.1).map Prod.fst
  | [], done, seen, _ => rfl
  | a :: as, done, seen, hseen => by
    have hlater : ∀ seen', (∀ k, k ∈ seen' ↔ k ∈ seen ∨ k = key a) → distinctFrom key seen' as =
        ((as.zipIdx (done.length + 1)).filter fun e =>
          ((done ++ a :: as).take e.2).all fun b => key b != key e.1).map Prod.fst := by
      intro seen' hseen'
      have h := distinctFrom_eq as (done ++ [a]) seen' fun k => by
        rw [hseen', hseen, List.map_append, List.mem_append, List.map_singleton,
          List.mem_singleton]
      rwa [List.length_append, List.length_singleton, List.append_assoc, List.singleton_append]
        at h
    have hfirst : ((done ++ a :: as).take done.length).all (fun b => key b != key a) =
        !seen.contains (key a) := by
      rw [List.take_left, Bool.eq_iff_iff, List.all_eq_true]
      simp [hseen]
    rw [distinctFrom, List.zipIdx_cons, List.filter_cons, hfirst]
    by_cases ha : key a ∈ seen
    · simp only [List.contains_iff_mem.mpr ha, if_true, Bool.not_true, Bool.false_eq_true, if_false]
      exact hlater seen fun k => ⟨Or.inl, fun hk => hk.elim id fun hka => hka ▸ ha⟩
    · have hnew : seen.contains (key a) = false := by simpa using ha
      simp only [hnew, Bool.false_eq_true, if_false, Bool.not_false, if_true, List.map_cons]
      refine congrArg (a :: ·) (hlater (key a :: seen) fun k => ?_)
      rw [List.mem_cons, or_comm]

/-- What is left are the entries before which none has the same key. -/
theorem distinctBy_eq_firstOfEach (entries : List α) :
    distinctBy key entries = firstOfEach key entries :=
  distinctFrom_eq entries [] [] fun _ => Iff.rfl

/-- Of two ways to tell entries apart that agree, either may be used. -/
theorem firstOfEach_map {δ : Type} [BEq δ] [LawfulBEq δ] {f : γ → α} {label : γ → δ}
    {entries : List γ}
    (h : ∀ c ∈ entries, ∀ d ∈ entries, key (f c) = key (f d) ↔ label c = label d) :
    firstOfEach key (entries.map f) = (firstOfEach label entries).map f := by
  rw [firstOfEach, firstOfEach, List.zipIdx_map, List.filter_map, List.map_map, List.map_map]
  refine congrArg (List.map _) (List.filter_congr ?_)
  rintro ⟨c, i⟩ hc
  have hmem : c ∈ entries := (List.mem_zipIdx' hc).2 ▸ List.getElem_mem _
  have hlabel : ∀ b ∈ entries.take i, key (f b) = key (f c) ↔ label b = label c :=
    fun b hb => h b (List.mem_of_mem_take hb) c hmem
  rw [Bool.eq_iff_iff]
  simp only [Function.comp_apply, Prod.map_fst, Prod.map_snd, id_eq, ← List.map_take,
    List.all_map, List.all_eq_true, bne_iff_ne, ne_eq]
  exact forall₂_congr fun b hb => not_congr (hlabel b hb)

end Outline

/-!
# Computations that may be refused

A computation in several steps gives a result exactly when each step does; this takes such a
computation apart (`bind_eq_ok_iff`), and a list of them (`eq_map_of_mapM_eq_ok`).  A list is
refused as its first entry is (`mapM_cons_eq_error`).  On a fixed input, `exists_ok_of_any` turns
an evaluation into the result that it finds.
-/

namespace Outline

variable {α β ε : Type}

theorem bind_eq_ok_iff {x : Except ε α} {f : α → Except ε β} {b : β} :
    x >>= f = .ok b ↔ ∃ a, x = .ok a ∧ f a = .ok b := by
  cases x with
  | error e => simp [bind, Except.bind]
  | ok a => simp [bind, Except.bind]

theorem toOption_eq_some_iff {x : Except ε α} {a : α} : x.toOption = some a ↔ x = .ok a := by
  cases x with
  | error e => simp [Except.toOption]
  | ok b => simp [Except.toOption]

/-- A computed property of a result is a property of some result. -/
theorem exists_ok_of_any {x : Except ε α} {p : α → Bool} (h : x.toOption.any p = true) :
    ∃ a, x = .ok a ∧ p a = true := by
  cases x with
  | error e => exact absurd h (by simp [Except.toOption])
  | ok a => exact ⟨a, rfl, h⟩

/-- When every step that gives a result gives a known one, so does the whole list. -/
theorem eq_map_of_mapM_eq_ok {f : α → Except ε β} {g : α → β} :
    ∀ {as : List α} {bs : List β}, (∀ a ∈ as, ∀ b, f a = .ok b → b = g a) →
      as.mapM f = .ok bs → bs = as.map g
  | [], bs, _, h => by
    rw [List.mapM_nil] at h
    exact (Except.ok.inj h).symm
  | a :: as, bs, hf, h => by
    obtain ⟨hhead, htail⟩ := List.forall_mem_cons.mp hf
    rw [List.mapM_cons] at h
    obtain ⟨b, hb, h⟩ := bind_eq_ok_iff.mp h
    obtain ⟨rest, hrest, h⟩ := bind_eq_ok_iff.mp h
    rw [← Except.ok.inj h, List.map_cons, hhead b hb, eq_map_of_mapM_eq_ok htail hrest]

/-- When every step gives a result, so does the whole list. -/
theorem exists_mapM_eq_ok {f : α → Except ε β} :
    ∀ {as : List α}, (∀ a ∈ as, ∃ b, f a = .ok b) → ∃ bs, as.mapM f = .ok bs
  | [], _ => ⟨[], List.mapM_nil⟩
  | a :: as, h => by
    obtain ⟨⟨b, hb⟩, htail⟩ := List.forall_mem_cons.mp h
    obtain ⟨bs, hbs⟩ := exists_mapM_eq_ok htail
    refine ⟨b :: bs, ?_⟩
    rw [List.mapM_cons]
    exact bind_eq_ok_iff.mpr ⟨b, hb, bind_eq_ok_iff.mpr ⟨bs, hbs, rfl⟩⟩

theorem mapM_cons_eq_error {f : α → Except ε β} {a : α} {e : ε} (h : f a = .error e)
    (as : List α) : (a :: as).mapM f = .error e := by
  rw [List.mapM_cons, h]
  rfl

end Outline

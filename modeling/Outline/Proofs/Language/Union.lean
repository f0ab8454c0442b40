import Outline.Proofs.Language.Rules

/-!
# The rules of several languages in one

A union is built up entry by entry: for each language, for each row of a table, for each node type
of the row, an entry is added unless the node type has one.  A look-up in a table asks its rows in
turn and stops at the first one with the node type.  The two come to the same, however often and
wherever a node type is listed, because of what one addition does to a look-up: what was found
before is found still, and only where nothing was found the new entry is (`lookup_insertNew`).  What
holds of one addition in this way holds of many one after the other (`shown_foldl`), and this is
used three times: for the node types of a row, for the rows of a table and for the languages.

* `lookup_ofLanguages`, `contains_ofLanguages_iff`: a table and a list of words in a union.
* `Rules.union_answersAsFirst`: all that a union answers.
-/

namespace Outline.Rules

/-- If each addition leaves what is shown and where nothing is shown adds its own, many additions
show what the first of them shows that shows anything. -/
theorem shown_foldl {σ ρ α : Type} {add : σ → ρ → σ} (shown : σ → Option α) (own : ρ → Option α)
    (hadd : ∀ s row, shown (add s row) = (shown s).or (own row)) (rows : List ρ) (s : σ) :
    shown (rows.foldl add s) = (shown s).or (rows.findSome? own) := by
  induction rows generalizing s with
  | nil => rw [List.foldl_nil, List.findSome?_nil, Option.or_none]
  | cons row rows ih =>
    rw [List.foldl_cons, ih, hadd, Option.or_assoc, List.findSome?_cons]
    cases own row with
    | none => rw [Option.none_or]
    | some a => rw [Option.some_or]

/-! ## Look-ups in a table -/

section Table

variable {α : Type}

theorem lookup_insertNew (table : List (String × α)) (key : String) (value : α) (type : String) :
    (insertNew table key value).lookup type =
      (table.lookup type).or (if type == key then some value else none) := by
  rw [insertNew]
  split
  · rename_i hknown
    split
    · rename_i htype
      obtain ⟨old, hold⟩ := Option.isSome_iff_exists.mp hknown
      rw [eq_of_beq htype, hold, Option.some_or]
    · rw [Option.or_none]
  · rw [List.lookup_append, List.lookup_cons, List.lookup_nil]
    cases type == key <;> rfl

theorem lookup_insertAll (table : List (String × α)) (keys : List String) (value : α)
    (type : String) : (insertAll table keys value).lookup type =
      (table.lookup type).or (if keys.contains type then some value else none) := by
  have hkeys : keys.findSome? (fun key => if type == key then some value else none) =
      if keys.contains type then some value else none := by
    induction keys with
    | nil => rfl
    | cons key keys ih =>
      rw [List.findSome?_cons, ih, List.contains_cons]
      cases type == key <;> rfl
  rw [insertAll, ← hkeys]
  exact shown_foldl (fun table => table.lookup type) _
    (fun table key => lookup_insertNew table key value type) keys table

/-- Rows that are added one after the other are found as a search through the rows finds them. -/
theorem lookup_addRows {ρ : Type} (rows : List ρ) (keys : ρ → List String) (value : ρ → α)
    (table : List (String × α)) (type : String) :
    (rows.foldl (fun table row => insertAll table (keys row) (value row)) table).lookup type =
      (table.lookup type).or ((rows.find? fun row => (keys row).contains type).map value) := by
  have hrows : (rows.find? fun row => (keys row).contains type).map value =
      rows.findSome? fun row => if (keys row).contains type then some (value row) else none := by
    induction rows with
    | nil => rfl
    | cons row rows ih =>
      rw [List.find?_cons, List.findSome?_cons]
      cases (keys row).contains type with
      | true => rfl
      | false => exact ih
  rw [hrows]
  exact shown_foldl (fun table => table.lookup type) _
    (fun table row => lookup_insertAll table (keys row) (value row) type) rows table

theorem lookup_addFields (rows table : List (String × α)) (type : String) :
    (rows.foldl (fun table row => insertNew table row.1 row.2) table).lookup type =
      (table.lookup type).or (rows.lookup type) := by
  rw [List.lookup_eq_findSome? (l := rows)]
  exact shown_foldl (fun table => table.lookup type) _
    (fun table row => lookup_insertNew table row.1 row.2 type) rows table

end Table

/-! ## Look-ups in a union -/

/-- A look-up in a union asks the languages in turn. -/
theorem lookup_ofLanguages {α : Type} (field : Union → List (String × α))
    (own : NodeTypes → Option α) (type : String) (hempty : field {} = [])
    (hadd : ∀ u n, (field (u.add n)).lookup type = ((field u).lookup type).or (own n))
    (ls : List Language) :
    (field (Union.ofLanguages ls)).lookup type = ls.findSome? fun l => own l.nodes := by
  have hfold := shown_foldl (fun u => (field u).lookup type) (fun l : Language => own l.nodes)
    (fun u l => hadd u l.nodes) ls {}
  rw [hempty, List.lookup_nil, Option.none_or] at hfold
  exact hfold

theorem topLevelKind_union (ls : List Language) (text : Language) (type : String) :
    (union ls text).topLevelKind type = ls.findSome? fun l => (ofLanguage l).topLevelKind type :=
  lookup_ofLanguages (·.topLevel) (fun n => NodeTypes.kindOf? n.topLevel type) type rfl
    (fun u n => lookup_addRows n.topLevel (·.2) (·.1) u.topLevel type) ls

theorem nestedKind_union (ls : List Language) (text : Language) (type : String) :
    (union ls text).nestedKind type = ls.findSome? fun l => (ofLanguage l).nestedKind type :=
  lookup_ofLanguages (·.nested) (fun n => NodeTypes.kindOf? n.nested type) type rfl
    (fun u n => lookup_addRows n.nested (·.2) (·.1) u.nested type) ls

theorem internalKind_union (ls : List Language) (text : Language) (type : String) :
    (union ls text).internalKind type = ls.findSome? fun l => (ofLanguage l).internalKind type :=
  lookup_ofLanguages (·.internal) (fun n => NodeTypes.internalOf? n.internal type) type rfl
    (fun u n => lookup_addRows n.internal (·.2.2) (fun row => (row.1, row.2.1)) u.internal type) ls

theorem nameFields_union (ls : List Language) (text : Language) (type : String) :
    (union ls text).nameFields type =
      (ls.findSome? fun l => l.nodes.nameFields.lookup type).getD defaultNameFields := by
  have hlookup := lookup_ofLanguages (·.nameFields) (·.nameFields.lookup type) type rfl
    (fun u n => lookup_addFields n.nameFields u.nameFields type) ls
  exact congrArg (·.getD defaultNameFields) hlookup

/-- A word is in a union if it is in one of the languages. -/
theorem contains_ofLanguages_iff (field : Union → List String) (words : NodeTypes → List String)
    (hempty : field {} = []) (hadd : ∀ u n, field (u.add n) = addWords (field u) (words n))
    (ls : List Language) (word : String) :
    (field (Union.ofLanguages ls)).contains word = true ↔
      ∃ l ∈ ls, (words l.nodes).contains word = true := by
  simp only [List.contains_iff_mem, mem_union_iff field words hempty hadd]

/-- A union answers for a node type as the first of its languages that knows it: with the kind in
each tier and the fields of the name that this language gives.  A node type counts as a branch, a
nesting or a call if it does for any of the languages. -/
theorem union_answersAsFirst (ls : List Language) (text : Language) (type : String) :
    (union ls text).topLevelKind type =
        ls.findSome? (fun l => (ofLanguage l).topLevelKind type) ∧
      (union ls text).nestedKind type = ls.findSome? (fun l => (ofLanguage l).nestedKind type) ∧
      (union ls text).internalKind type =
        ls.findSome? (fun l => (ofLanguage l).internalKind type) ∧
      (union ls text).nameFields type =
        (ls.findSome? fun l => l.nodes.nameFields.lookup type).getD defaultNameFields ∧
      ((union ls text).isControlFlow type = true ↔
        ∃ l ∈ ls, (ofLanguage l).isControlFlow type = true) ∧
      ((union ls text).isNesting type = true ↔ ∃ l ∈ ls, (ofLanguage l).isNesting type = true) ∧
      ((union ls text).isCall type = true ↔ ∃ l ∈ ls, (ofLanguage l).isCall type = true) := by
  refine ⟨topLevelKind_union ls text type, nestedKind_union ls text type,
    internalKind_union ls text type, nameFields_union ls text type, ?_, ?_, ?_⟩
  · exact contains_ofLanguages_iff (·.controlFlow) (·.controlFlow) rfl (fun _ _ => rfl) ls type
  · exact contains_ofLanguages_iff (·.nesting) (·.nesting) rfl (fun _ _ => rfl) ls type
  · exact contains_ofLanguages_iff (·.calls) (·.calls) rfl (fun _ _ => rfl) ls type

/-- The first language has this node type as a function and the second one as a method, and only the
second one says where its name is. -/
example : (ofLanguage .cpp).nestedKind "function_definition" = some .method ∧
    (union [.python, .cpp] .generic).nestedKind "function_definition" = some .function ∧
    (union [.python, .cpp] .generic).nameFields "function_definition" = ["declarator"] := by
  decide

end Outline.Rules

/-!
# The first entry for each key

* `distinctBy`: the entries of a list whose key has not come up before.
-/

namespace Outline

/-- The entries whose key is neither among `seen` nor that of an earlier entry. -/
def distinctFrom {α β : Type} [BEq β] (key : α → β) (seen : List β) : List α → List α
  | [] => []
  | a :: as =>
    if seen.contains (key a) then distinctFrom key seen as
    else a :: distinctFrom key (key a :: seen) as

/-- The first entry for each key, in order. -/
def distinctBy {α β : Type} [BEq β] (key : α → β) (entries : List α) : List α :=
  distinctFrom key [] entries

end Outline

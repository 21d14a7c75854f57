import MeesignServer.FiniteMap

/-!
# Rows grouped by a key

Pairs gathered into a map of lists, rows that take their list out of the map, and the rows
of a table that have a partner in another one. With distinct keys the map can be replaced by
a filter, and so can the join.
-/
namespace RowGroups

open FiniteMap

variable {K V R S α : Type} [DecidableEq K]

def gather (l : List (K × V)) : Map K (List V) :=
  l.foldl (fun m p => m.insert p.1 ((m.lookup p.1).getD [] ++ [p.2])) ∅

/-- Every row takes the values of its key out of the map. -/
def drain (key : R → K) (f : R → List V → α) : Map K (List V) → List R → List α
  | _, [] => []
  | m, r :: rs => f r ((m.lookup (key r)).getD []) :: drain key f (m.erase (key r)) rs

/-- The rows of `l`, once for each partner in `l'`. -/
def join (p : R → S → Bool) (l : List R) (l' : List S) : List R :=
  l.flatMap fun r => (l'.filter (p r)).map fun _ => r

end RowGroups

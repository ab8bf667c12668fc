/-
The final assignment of fields. The candidate pairs are taken from the
highest score down, each unless one of its fields is already taken.
-/
import SymbolMatch.FieldMatch.Candidates

namespace SymbolMatch.FieldResolution

/-- An old field with one of its candidates. -/
structure Pair where
  old : Member
  candidate : FieldCandidate
deriving DecidableEq

/-- The order in which pairs are taken: the highest score first, then by
old key, then by new key. -/
def Pair.precedence (a b : Pair) : Ordering :=
  ((Binary64.totalCompare b.candidate.score a.candidate.score).then
    (compare a.old b.old)).then (compare a.candidate.new b.candidate.new)

/-- The candidate pairs that score above a threshold, in order. -/
def pairsAbove (r : FieldResolution) (threshold : Binary64) : List Pair :=
  let pairs := r.candidates.entries.flatMap fun (old, list) =>
    list.map fun c => Pair.mk old c
  sortBy Pair.precedence (pairs.filter (threshold < ·.candidate.score))

/-- The pairs taken so far and the new fields in them. -/
structure Progress where
  assigned : OrdMap Member Member
  taken : OrdSet Member

/-- Take a pair unless one of its fields is already taken. -/
def Progress.take (a : Progress) (p : Pair) : Progress :=
  if a.assigned.contains p.old || a.taken.contains p.candidate.new then a
  else
    { assigned := a.assigned.insert p.old p.candidate.new
      taken := a.taken.insert p.candidate.new }

/-- The new field of each old field that is assigned one. -/
def assign (r : FieldResolution) (threshold : Binary64) :
    OrdMap Member Member :=
  ((r.pairsAbove threshold).foldl Progress.take ⟨{}, {}⟩).assigned

end SymbolMatch.FieldResolution

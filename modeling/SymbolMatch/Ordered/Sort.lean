/-
Stable sorting by a comparison. Elements that compare equal keep the
order in which they came, so a sort by a total order with no two equal
elements does not depend on the order of its input.
-/

namespace SymbolMatch

variable {α : Type}

/-- Put `a` before the first element that `a` is not greater than. -/
def insertBy (cmp : α → α → Ordering) (a : α) : List α → List α
  | [] => [a]
  | b :: rest =>
    if cmp a b = .gt then b :: insertBy cmp a rest else a :: b :: rest

/-- Sort by insertion from the right, which keeps equal elements in
order. -/
def sortBy (cmp : α → α → Ordering) : List α → List α
  | [] => []
  | a :: rest => insertBy cmp a (sortBy cmp rest)

/-- The first of the least elements of a list. -/
def leastBy? (cmp : α → α → Ordering) : List α → Option α
  | [] => none
  | a :: rest =>
    match leastBy? cmp rest with
    | none => some a
    | some b => if cmp a b = .gt then some b else some a

end SymbolMatch

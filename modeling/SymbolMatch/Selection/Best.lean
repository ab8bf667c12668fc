/-
The choice of one candidate. Scores within a margin of the highest count
as tied with it, so a difference that rounding could have made decides
nothing; the tie goes to the greatest structural similarity and then to
the least name. No two candidates share a name, so the choice does not
depend on the order in which they come.
-/
import SymbolMatch.Number.Arithmetic
import SymbolMatch.Ordered.Sort

namespace SymbolMatch

variable {ι : Type} [Ord ι]

/-- A candidate with its score and its structural similarity. -/
structure Scored (ι : Type) where
  id : ι
  score : Binary64
  similarity : Binary64
deriving DecidableEq

/-- The chosen candidate and how many candidates, itself included, were
tied. -/
structure Choice (ι : Type) where
  best : Scored ι
  tied : Nat
deriving DecidableEq

def Choice.isAmbiguous (c : Choice ι) : Bool := 1 < c.tied

namespace Scored

/-- The candidates whose score exceeds the floor. -/
def eligible (floor : Binary64) (candidates : List (Scored ι)) :
    List (Scored ι) :=
  candidates.filter (floor < ·.score)

/-- The highest score, or negative infinity if there is none. -/
def topScore (candidates : List (Scored ι)) : Binary64 :=
  (candidates.map (·.score)).foldl max Binary64.negInfinity

/-- The candidates within the margin of a score. -/
def within (margin top : Binary64) (candidates : List (Scored ι)) :
    List (Scored ι) :=
  candidates.filter fun c => top - c.score ≤ margin

/-- The order of tied candidates: the more similar first, then the one
with the lesser name. -/
def precedence (a b : Scored ι) : Ordering :=
  (Binary64.totalCompare b.similarity a.similarity).then (compare a.id b.id)

end Scored

/-- The best candidate above the floor. -/
def pickBest (candidates : List (Scored ι)) (floor margin : Binary64) :
    Option (Choice ι) :=
  let eligible := Scored.eligible floor candidates
  let top := Scored.topScore eligible
  if top.isFinite then
    let tied := Scored.within margin top eligible
    (leastBy? Scored.precedence tied).map (⟨·, tied.length⟩)
  else none

end SymbolMatch

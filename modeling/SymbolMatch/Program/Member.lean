/-
The identity of a field or a method inside one build: the class that
owns it, its name and its descriptor. Members are ordered by owner, then
name, then descriptor.
-/
import SymbolMatch.Ordered.Map
import SymbolMatch.Ordered.Set

namespace SymbolMatch

/-- A field or a method of a class. -/
structure Member where
  owner : String
  name : String
  descriptor : String
deriving DecidableEq, Inhabited

namespace Member

instance : Ord Member where
  compare := compareLex (compareOn owner)
    (compareLex (compareOn name) (compareOn descriptor))

instance : Std.TransOrd Member :=
  inferInstanceAs (Std.TransCmp (compareLex (compareOn owner)
    (compareLex (compareOn name) (compareOn descriptor))))

instance : Std.LawfulEqOrd Member where
  eq_of_compare {a b} h := by
    obtain ⟨o, n, d⟩ := a
    obtain ⟨o', n', d'⟩ := b
    have h : (compare o o').then ((compare n n').then (compare d d')) = .eq := h
    simp only [Ordering.then_eq_eq] at h
    simpa using h

/-- A field as it is shown in messages. -/
def fieldText (m : Member) : String :=
  m.owner ++ "." ++ m.name ++ ":" ++ m.descriptor

/-- A method as it is shown in messages. -/
def methodText (m : Member) : String :=
  m.owner ++ "." ++ m.name ++ m.descriptor

end Member

end SymbolMatch

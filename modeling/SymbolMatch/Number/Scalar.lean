/-
The arithmetic that a similarity formula is written in. The formulas run
on doubles; written over any scalar, the same text also denotes the exact
value that the computed one rounds.
-/
import SymbolMatch.Number.Decimal

namespace SymbolMatch

/-- Numbers that a similarity can be computed in. -/
class Scalar (α : Type) extends Add α, Sub α, Mul α, Div α, OfScientific α where
  /-- A count as a number. -/
  ofCount : Nat → α
  abs : α → α
  least : α → α → α

instance : Scalar Binary64 where
  ofCount := Binary64.ofNat
  abs := Binary64.abs
  least := Binary64.min

end SymbolMatch

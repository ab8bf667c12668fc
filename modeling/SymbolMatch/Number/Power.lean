/-
Powers of two and of ten: the scales of binary and of decimal numbers.
-/

namespace SymbolMatch

/-- Two to the power of `n`. -/
def twoPow (n : Nat) : Nat := Nat.pow 2 n

/-- Ten to the power of `n`. -/
def tenPow (n : Nat) : Nat := Nat.pow 10 n

end SymbolMatch

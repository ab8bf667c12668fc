/-
The shortest decimal of a double: of all decimals that round to it, one
with the fewest digits, and of those the one nearest to it.

# The search

The reals that round to a magnitude `k` reach half way to its
neighbours, the ends included when `k` is even. On the grid of multiples
of `10 ^ p` the double lies between two neighbouring points; if any
point of the grid rounds to the double then one of these two does. So
the search walks the grids from coarse to fine and stops at the first
one where a neighbour fits. When both fit the nearer one is taken, and
`Tie` settles the middle.
-/
import SymbolMatch.Number.Decimal

namespace SymbolMatch

/-- Which of two equally near decimals is taken. -/
inductive Tie
  /-- The one whose last digit is even. -/
  | toEven
  /-- The one farther from zero. -/
  | up

namespace Decimal

/-- The decimal on the grid of `10 ^ p` that stands for the magnitude
`k`, if one does. -/
def onGrid? (tie : Tie) (k : Nat) (p : Int) : Option Decimal :=
  let scale := tenPow (-p).toNat
  let step := tenPow p.toNat * twoPow 1074
  let value := Binary64.span k * scale
  let low := (Binary64.span k + Binary64.span (k - 1)) * scale
  let high := (Binary64.span k + Binary64.span (k + 1)) * scale
  let fits (c : Nat) : Bool :=
    if k % 2 = 0 then low ≤ 2 * c * step && 2 * c * step ≤ high
    else low < 2 * c * step && 2 * c * step < high
  let c := value / step
  let choose : Nat :=
    if 2 * value < (2 * c + 1) * step then c
    else if (2 * c + 1) * step < 2 * value then c + 1
    else match tie with
      | .toEven => c + c % 2
      | .up => c + 1
  if fits c then some ⟨if fits (c + 1) then choose else c, p⟩
  else if fits (c + 1) then some ⟨c + 1, p⟩
  else none

/-- Search `fuel` grids downwards from `10 ^ p`. -/
def search (tie : Tie) (k : Nat) : (fuel : Nat) → (p : Int) → Decimal
  | 0, p => ⟨0, p⟩
  | fuel + 1, p => (onGrid? tie k p).getD (search tie k fuel (p - 1))

/-- Drop the zeros at the end of the digits; `fuel` bounds how many. -/
def trim : (fuel : Nat) → Decimal → Decimal
  | 0, d => d
  | fuel + 1, d =>
    if d.digits ≠ 0 ∧ d.digits % 10 = 0 then
      trim fuel ⟨d.digits / 10, d.exponent + 1⟩
    else d

/-- The shortest decimal of a finite magnitude other than zero. The first
grid is no finer than the power of ten above the value, and 17 digits
always suffice, so twenty grids are enough. -/
def shortest (tie : Tie) (k : Nat) : Decimal :=
  let leading : Int := (Binary64.span k).log2 - 1074
  trim 20 (search tie k 20 ((leading + 1) * 30103 / 100000 + 1))

end Decimal

end SymbolMatch

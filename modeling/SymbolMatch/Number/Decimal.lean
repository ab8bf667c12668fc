/-
Decimal numbers and the double nearest to one. A decimal is a whole
number times a power of ten, so its value is a ratio of two whole
numbers and `Binary64.nearest` rounds it in one step.

The second half reads decimal texts: an optional sign, digits with at
most one point among or around them, an optional exponent, or one of
the names of infinity and NaN in any case.
-/
import SymbolMatch.Number.Arithmetic

namespace SymbolMatch

/-- The number `digits * 10 ^ exponent`. -/
structure Decimal where
  digits : Nat
  exponent : Int
deriving DecidableEq

namespace Decimal

/-- The magnitude nearest to a decimal. Far outside the range of doubles
the answer is known from the exponent alone, and the power of ten is not
computed: above 10⁴⁰⁰ everything is infinite, and a number below
10⁻³³⁰ rounds to zero. -/
def magnitude (d : Decimal) : Nat :=
  if d.digits = 0 then 0
  else match d.exponent with
    | .ofNat e =>
      if 400 < e then Binary64.infinityMagnitude
      else Binary64.nearest (d.digits * tenPow e * twoPow 1074) 1
    | .negSucc e =>
      if d.digits.log2 + 400 < e then 0
      else Binary64.nearest (d.digits * twoPow 1074) (tenPow (e + 1))

end Decimal

namespace Binary64

/-- The double nearest to a decimal with the given sign. -/
def ofDecimal (negative : Bool) (d : Decimal) : Binary64 :=
  ⟨negative, d.magnitude⟩

instance : OfScientific Binary64 where
  ofScientific m s e := ofDecimal false ⟨m, if s then -(e : Int) else e⟩

end Binary64

-- ======================================================= decimal texts

namespace Decimal

/-- The number a list of decimal digits stands for. -/
def ofDigits (cs : List Char) : Nat :=
  cs.foldl (fun n c => 10 * n + (c.toNat - 48)) 0

/-- The sign in front of a text, `true` for a minus, and what follows. -/
def sign : List Char → Bool × List Char
  | '-' :: cs => (true, cs)
  | '+' :: cs => (false, cs)
  | cs => (false, cs)

/-- The exponent part that ends a number: nothing, or a mark and a whole
number with an optional sign. -/
def exponentPart : List Char → Option Int
  | [] => some 0
  | c :: cs =>
    if c = 'e' ∨ c = 'E' then
      let (negative, ds) := sign cs
      if ds ≠ [] ∧ ds.all Char.isDigit then
        some (if negative then -(ofDigits ds : Int) else ofDigits ds)
      else none
    else none

/-- Digits, a point, digits, an exponent. The point and either run of
digits may be missing, but not both runs. -/
def read? (cs : List Char) : Option Decimal :=
  let whole := cs.takeWhile Char.isDigit
  let rest := cs.dropWhile Char.isDigit
  let (fraction, tail) := match rest with
    | '.' :: r => (r.takeWhile Char.isDigit, r.dropWhile Char.isDigit)
    | r => ([], r)
  if whole = [] ∧ fraction = [] then none
  else (exponentPart tail).map fun e =>
    ⟨ofDigits (whole ++ fraction), e - fraction.length⟩

end Decimal

namespace Binary64

/-- The double a text stands for, or `none` if it is no number. -/
def read? (text : String) : Option Binary64 :=
  let (negative, cs) := Decimal.sign text.toList
  let name := String.ofList (cs.map Char.toLower)
  if name = "inf" ∨ name = "infinity" then some ⟨negative, infinityMagnitude⟩
  else if name = "nan" then some ⟨negative, nanMagnitude⟩
  else (Decimal.read? cs).map (ofDecimal negative)

end Binary64

/-- The natural number below `2 ^ 64` that a text stands for: digits, with
an optional plus sign. -/
def readWord? (text : String) : Option Nat :=
  let ds := match text.toList with
    | '+' :: cs => cs
    | cs => cs
  if ds ≠ [] ∧ ds.all Char.isDigit ∧ Decimal.ofDigits ds < twoPow 64 then
    some (Decimal.ofDigits ds)
  else none

end SymbolMatch

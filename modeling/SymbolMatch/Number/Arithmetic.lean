/-
Arithmetic on doubles. Each operation is exact on whole multiples of
2⁻¹⁰⁷⁴ (`Binary64.units`) and rounds once, to the nearest magnitude.

# Rounding

`nearest n d` is the magnitude nearest to `n / d` multiples of 2⁻¹⁰⁷⁴.
The step between neighbouring doubles around a value is `2 ^ shift`,
where `shift` is how far the value's leading bit lies above bit 52; the
value divided by that step is rounded to a whole number, a half to the
even neighbour. Adding `shift * 2 ^ 52` turns that whole number into
the magnitude, and a carry into bit 53 lands on the next binade by
itself. Past the largest finite magnitude the result is infinity.
-/
import SymbolMatch.Number.Binary64

namespace SymbolMatch.Binary64

-- ============================================================= rounding

/-- `n / d` rounded to a whole number, a half to the even neighbour. -/
def halfEven (n d : Nat) : Nat :=
  let q := n / d
  let r := n % d
  if 2 * r < d then q
  else if d < 2 * r then q + 1
  else q + q % 2

/-- The magnitude nearest to `n / d` multiples of 2⁻¹⁰⁷⁴. -/
def nearest (n d : Nat) : Nat :=
  let shift := (n / d).log2 - 52
  min (shift * twoPow 52 + halfEven n (d * twoPow shift)) infinityMagnitude

/-- The double nearest to a whole multiple of 2⁻¹⁰⁷⁴. An exact zero takes
the sign it is given. -/
def ofUnits (zeroSign : Bool) (z : Int) : Binary64 :=
  if z = 0 then ⟨zeroSign, 0⟩ else ⟨z < 0, nearest z.natAbs 1⟩

/-- The double nearest to a natural number. -/
def ofNat (n : Nat) : Binary64 := ⟨false, nearest (n * twoPow 1074) 1⟩

-- =========================================================== operations

protected def neg (x : Binary64) : Binary64 := ⟨!x.negative, x.magnitude⟩

/-- A NaN operand passes through, the first one first. Unlike infinities
have no sum. A sum of opposite values is `0`, and only two negative
zeros add up to `-0`. -/
protected def add (x y : Binary64) : Binary64 :=
  if x.isNaN then x
  else if y.isNaN then y
  else if x.isInfinite then
    if y.isInfinite && x.negative != y.negative then indefinite else x
  else if y.isInfinite then y
  else ofUnits (x.negative && y.negative) (x.units + y.units)

/-- Adding the opposite, except that a NaN operand keeps its sign. -/
protected def sub (x y : Binary64) : Binary64 :=
  if x.isNaN then x
  else if y.isNaN then y
  else x.add y.neg

/-- Zero times infinity has no value. -/
protected def mul (x y : Binary64) : Binary64 :=
  if x.isNaN then x
  else if y.isNaN then y
  else
    let sign := x.negative != y.negative
    if x.isInfinite || y.isInfinite then
      if x.isZero || y.isZero then indefinite else ⟨sign, infinityMagnitude⟩
    else ⟨sign, nearest (span x.magnitude * span y.magnitude) (twoPow 1074)⟩

/-- Zero by zero and infinity by infinity have no value; any other
quotient by zero is infinite. -/
protected def div (x y : Binary64) : Binary64 :=
  if x.isNaN then x
  else if y.isNaN then y
  else
    let sign := x.negative != y.negative
    if x.isInfinite then
      if y.isInfinite then indefinite else ⟨sign, infinityMagnitude⟩
    else if y.isInfinite then ⟨sign, 0⟩
    else if y.isZero then
      if x.isZero then indefinite else ⟨sign, infinityMagnitude⟩
    else ⟨sign, nearest (span x.magnitude * twoPow 1074) (span y.magnitude)⟩

/-- The largest `r + t` with `t < 2 ^ bits` whose square is at most `n`,
found bit by bit from the top. -/
def rootBits (n : Nat) : (bits : Nat) → (r : Nat) → Nat
  | 0, r => r
  | b + 1, r =>
    let r' := r + twoPow b
    rootBits n b (if r' * r' ≤ n then r' else r)

/-- The square root, rounded to nearest. With `n` the value in multiples
of 2⁻²¹⁴⁸ the root is `√n` multiples of 2⁻¹⁰⁷⁴; `r` holds its leading 53
bits, and the next bit is decided by comparing `n` with the square of
`r + 1/2` steps. A negative value other than `-0` has no root. -/
def sqrt (x : Binary64) : Binary64 :=
  if x.isNaN || x.isZero then x
  else if x.negative then indefinite
  else if x.isInfinite then x
  else
    let n := span x.magnitude * twoPow 1074
    let shift := n.log2 / 2 - 52
    let r := rootBits (n / twoPow (2 * shift)) 54 0
    let half := (2 * r + 1) * (2 * r + 1) * twoPow (2 * shift)
    let rounded := if half < 4 * n then r + 1
      else if half = 4 * n then r + r % 2
      else r
    ⟨false, shift * twoPow 52 + rounded⟩

/-- The absolute value. -/
def abs (x : Binary64) : Binary64 := ⟨false, x.magnitude⟩

instance : Neg Binary64 := ⟨Binary64.neg⟩
instance : Add Binary64 := ⟨Binary64.add⟩
instance : Sub Binary64 := ⟨Binary64.sub⟩
instance : Mul Binary64 := ⟨Binary64.mul⟩
instance : Div Binary64 := ⟨Binary64.div⟩

instance (n : Nat) : OfNat Binary64 n := ⟨ofNat n⟩

-- ================================================== least, greatest, clamp

/-- The greater of two doubles; a NaN gives way to the other operand. -/
protected def max (x y : Binary64) : Binary64 :=
  if x.isNaN then y
  else if y.isNaN then x
  else if x < y then y else x

/-- The lesser of two doubles; a NaN gives way to the other operand. -/
protected def min (x y : Binary64) : Binary64 :=
  if x.isNaN then y
  else if y.isNaN then x
  else if y < x then y else x

instance : Max Binary64 := ⟨Binary64.max⟩
instance : Min Binary64 := ⟨Binary64.min⟩

/-- `x` moved into `[lo, hi]`. A NaN stays, and so does `-0` at `lo = 0`. -/
def clamp (x lo hi : Binary64) : Binary64 :=
  if x < lo then lo else if hi < x then hi else x

/-- `x` moved into the unit interval, a NaN to `0`. -/
def clampUnit (x : Binary64) : Binary64 :=
  if x.isNaN then zero else x.clamp 0 1

/-- The sum of a list, from the left. -/
def sum (xs : List Binary64) : Binary64 := xs.foldl (· + ·) negZero

-- ==================================================== a coarser precision

/-- The double that stands for the nearest single-precision value of
`n / d` multiples of 2⁻¹⁰⁷⁴: 24 significant bits, steps of at least
2⁻¹⁴⁹, and infinity from 2¹²⁸ on. -/
def nearestSingle (negative : Bool) (n d : Nat) : Binary64 :=
  let shift := max ((n / d).log2 - 23) 925
  let units := halfEven n (d * twoPow shift) * twoPow shift
  if units < twoPow 1202 then ⟨negative, nearest units 1⟩
  else ⟨negative, infinityMagnitude⟩

/-- A double rounded to single precision. -/
def toSingle (x : Binary64) : Binary64 :=
  if x.isFinite then nearestSingle x.negative (span x.magnitude) 1 else x

end SymbolMatch.Binary64

/-
The numbers that scores are computed in: IEEE 754 binary64 values,
held as a sign and a magnitude.

# The magnitude

Read without its sign bit, the 64-bit pattern of a double is a natural
number, and the numeric order of non-negative doubles is the order of
these naturals. That natural is the magnitude. Every finite double is a
whole multiple of the least positive one, 2⁻¹⁰⁷⁴; `span k` is how many
of them the magnitude `k` stands for, so sums and products of doubles
are sums and products of whole numbers, rounded once at the end.

# Two orders

`x < y` compares values: the two zeros are equal and a NaN compares
with nothing. `totalCompare` is the order that also ranks what `<`
leaves open, `-NaN < -∞ < … < -0 < 0 < … < ∞ < NaN`; it is a linear
order on the representation, and every sort in the library uses it.
-/
import SymbolMatch.Number.Power

namespace SymbolMatch

/-- A double, as a sign and the bit pattern of its absolute value. -/
structure Binary64 where
  negative : Bool
  magnitude : Nat
deriving DecidableEq, Inhabited

namespace Binary64

-- ======================================================== magnitudes

/-- The magnitude of infinity; every smaller one is finite and every
larger one is a NaN. -/
def infinityMagnitude : Nat := 2047 * twoPow 52

/-- The magnitude of the quiet NaN that arithmetic produces. -/
def nanMagnitude : Nat := 2047 * twoPow 52 + twoPow 51

/-- How many multiples of 2⁻¹⁰⁷⁴ a finite magnitude stands for. Below
2⁵² the pattern is the count itself; above, each further binade doubles
the step. -/
def span (k : Nat) : Nat :=
  if k < twoPow 52 then k
  else (twoPow 52 + k % twoPow 52) * twoPow (k / twoPow 52 - 1)

-- ===================================================== classification

def isNaN (x : Binary64) : Bool := infinityMagnitude < x.magnitude

def isInfinite (x : Binary64) : Bool := x.magnitude == infinityMagnitude

def isFinite (x : Binary64) : Bool := x.magnitude < infinityMagnitude

/-- Either of the two zeros. -/
def isZero (x : Binary64) : Bool := x.magnitude == 0

/-- The value of a finite double as a count of 2⁻¹⁰⁷⁴. -/
def units (x : Binary64) : Int :=
  if x.negative then -(span x.magnitude : Int) else span x.magnitude

-- ======================================================== special values

def infinity : Binary64 := ⟨false, infinityMagnitude⟩

def negInfinity : Binary64 := ⟨true, infinityMagnitude⟩

def nan : Binary64 := ⟨false, nanMagnitude⟩

/-- What an invalid operation yields, such as ∞ - ∞ or 0 · ∞: a quiet
NaN with the sign set. -/
def indefinite : Binary64 := ⟨true, nanMagnitude⟩

def zero : Binary64 := ⟨false, 0⟩

/-- The other zero. A sum of no terms is this one, so that adding a
first term leaves that term as it is. -/
def negZero : Binary64 := ⟨true, 0⟩

-- ==================================================== the numeric order

/-- The place of a double in the numeric order, NaN apart. The two zeros
share one place. -/
def rank (x : Binary64) : Int :=
  if x.negative then -(x.magnitude : Int) else x.magnitude

protected def lt (x y : Binary64) : Prop :=
  x.isNaN = false ∧ y.isNaN = false ∧ x.rank < y.rank

protected def le (x y : Binary64) : Prop :=
  x.isNaN = false ∧ y.isNaN = false ∧ x.rank ≤ y.rank

instance : LT Binary64 := ⟨Binary64.lt⟩

instance : LE Binary64 := ⟨Binary64.le⟩

instance (x y : Binary64) : Decidable (x < y) :=
  inferInstanceAs (Decidable (_ ∧ _ ∧ _))

instance (x y : Binary64) : Decidable (x ≤ y) :=
  inferInstanceAs (Decidable (_ ∧ _ ∧ _))

-- ====================================================== the total order

/-- The place of a double in the total order. Negative patterns come
first, in reverse, so that `-0` stands right below `0`. -/
def totalRank (x : Binary64) : Int :=
  if x.negative then -(x.magnitude : Int) - 1 else x.magnitude

/-- The IEEE total order. -/
def totalCompare (x y : Binary64) : Ordering :=
  compare x.totalRank y.totalRank

/-- The total rank forgets nothing. -/
theorem eq_of_totalRank_eq {x y : Binary64}
    (h : x.totalRank = y.totalRank) : x = y := by
  obtain ⟨sx, kx⟩ := x
  obtain ⟨sy, ky⟩ := y
  cases sx <;> cases sy <;> simp [totalRank] at h ⊢ <;> omega

/-- Only equal doubles share a place in the total order. -/
theorem totalCompare_eq_iff {x y : Binary64} :
    x.totalCompare y = .eq ↔ x = y := by
  constructor
  · intro h
    exact eq_of_totalRank_eq (Std.LawfulEqOrd.eq_of_compare h)
  · rintro rfl
    exact Std.ReflOrd.compare_self

end Binary64

end SymbolMatch

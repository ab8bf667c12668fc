/-
Sums of quarters. The counts and the weights that a comparison of two
fields adds up are whole numbers, halves and quarters of small numbers.
Doubles hold such numbers as they are, so nothing is rounded before a sum
is divided by another: in doubles as in exact arithmetic the sums are
those of whole numbers, a quarter each (`Scalar.Quarters`).

A sum of numbers that are not quarters themselves is still enclosed by the
sums of the quarters around them (`Between`).
-/
import Mathlib.Tactic.Ring
import SymbolMatch.Number.Scalar
import SymbolMatch.Proofs.Number.Operands

namespace SymbolMatch

/-- A scalar in which whole numbers of quarters, written by `val`, are
added and doubled as whole numbers are, as far as they are `held`. -/
structure Scalar.Quarters {α : Type} [Scalar α] (held : Nat → Prop)
    (val : Nat → α) : Prop where
  small : ∀ n ≤ 100, held n
  add : ∀ m n, held m → held n → val m + val n = val (m + n)
  double : ∀ n, held n → 2.0 * val n = val (2 * n)
  half : ∀ n, held (2 * n) → val (2 * n) / 2.0 = val n
  /-- A literal with one decimal that is a number of quarters. -/
  tenths : ∀ m n, 2 * m = 5 * n → OfScientific.ofScientific m true 1 = val n
  count : ∀ n, Scalar.ofCount n = val (4 * n)

namespace Binary64

variable {m n : Nat}

/-- A number of quarters. -/
def quarters (n : Nat) : Binary64 := ⟨false, nearest (n * twoPow 1072) 1⟩

theorem abs_quarters (n : Nat) : (quarters n).abs = quarters n := rfl

theorem span_quarters (h : n < twoPow 53) :
    span (quarters n).magnitude = n * twoPow 1072 :=
  span_nearest (by decide) (by decide) h

theorem twoPow_add_two (k : Nat) : twoPow (k + 2) = 4 * twoPow k := by
  rw [twoPow_add, Nat.mul_comm]
  rfl

/-- Four quarters to one. -/
theorem ofNat_eq_quarters (n : Nat) : ofNat n = quarters (4 * n) := by
  unfold ofNat quarters
  rw [twoPow_add_two 1072, ← Nat.mul_assoc, Nat.mul_comm n 4]

theorem quarters_atMost (h : m ≤ n) : (quarters m).AtMost (quarters n) :=
  fun _ => Int.ofNat_le.2 (nearest_mono (Nat.mul_le_mul_right _ h))

theorem isNaN_quarters (n : Nat) : (quarters n).isNaN = false :=
  isNaN_of_le (nearest_le _ _)

theorem isFinite_quarters (h : n < twoPow 64) :
    (quarters n).isFinite = true := by
  have hle : n * twoPow 1072 ≤ n * twoPow 1074 :=
    Nat.mul_le_mul_left n (twoPow_le (by decide))
  have hcount := isFinite_iff.1 (isFinite_ofNat h)
  rw [isFinite_iff]
  exact Nat.lt_of_le_of_lt (nearest_mono hle) hcount

theorem magnitude_quarters_ne_zero (h : 0 < n) :
    (quarters n).magnitude ≠ 0 :=
  nearest_ne_zero (Nat.mul_ne_zero (Nat.ne_of_gt h)
    (Nat.ne_of_gt (twoPow_pos 1072)))

/-- A natural number is rounded without a sign. -/
theorem ofUnits_natCast (k : Nat) : ofUnits false k = ⟨false, nearest k 1⟩ := by
  unfold ofUnits
  by_cases hk : (k : Int) = 0
  · rw [if_pos hk, Int.natCast_eq_zero.1 hk, nearest_zero Nat.one_pos]
  · rw [if_neg hk, Int.natAbs_natCast,
      decide_eq_false (Int.not_lt.2 (Int.natCast_nonneg k))]

theorem quarters_add (hm : m < twoPow 53) (hn : n < twoPow 53) :
    quarters m + quarters n = quarters (m + n) := by
  have hword : twoPow 53 < twoPow 64 := by decide
  have hunits {k : Nat} (hk : k < twoPow 53) :
      (quarters k).units = (k * twoPow 1072 : Nat) := by
    rw [← span_quarters hk]
    rfl
  have hsum : (quarters m).units + (quarters n).units
      = ((m + n) * twoPow 1072 : Nat) := by
    rw [hunits hm, hunits hn, Nat.add_mul]
    rfl
  rw [add_of_isFinite (isFinite_quarters (by omega))
    (isFinite_quarters (by omega)), hsum]
  exact ofUnits_natCast _

/-- Only the ratio of two numbers of quarters is rounded. -/
theorem quarters_div (hm : m < twoPow 53) (hn : n < twoPow 53) (hpos : 0 < n) :
    quarters m / quarters n = ⟨false, nearest (m * twoPow 1074) n⟩ := by
  have hword : twoPow 53 < twoPow 64 := by decide
  rw [div_of_isFinite (isFinite_quarters (by omega))
    (isFinite_quarters (by omega)) (magnitude_quarters_ne_zero hpos),
    span_quarters hm, span_quarters hn, Nat.mul_right_comm,
    Nat.mul_comm _ (twoPow 1072), Nat.mul_comm n, nearest_scale (twoPow_pos _)]
  rfl

theorem two_mul_quarters (h : n < twoPow 53) :
    ofNat 2 * quarters n = quarters (2 * n) := by
  have hword : twoPow 53 < twoPow 64 := by decide
  have hscale := nearest_scale (twoPow_pos 1074) (2 * n * twoPow 1072) 1
  rw [Nat.mul_one] at hscale
  rw [mul_of_isFinite (isFinite_ofNat (by decide))
    (isFinite_quarters (by omega)), span_ofNat (by decide), span_quarters h,
    Nat.mul_comm 2 (twoPow 1074), Nat.mul_assoc, ← Nat.mul_assoc 2, hscale]
  rfl

/-- Doubles hold quarters as they are. -/
theorem quarters_exact : Scalar.Quarters (· < twoPow 53) quarters where
  small := fun n hn => Nat.lt_of_le_of_lt hn (by decide)
  add := fun m n hm hn => quarters_add hm hn
  double := fun n hn => by
    have htwo : (2.0 : Binary64) = ofNat 2 := ten_tenths 2
    show (2.0 : Binary64) * quarters n = quarters (2 * n)
    rw [htwo, two_mul_quarters hn]
  half := fun n hn => by
    have htwo : (2.0 : Binary64) = quarters 8 :=
      (ten_tenths 2).trans (ofNat_eq_quarters 2)
    show quarters (2 * n) / (2.0 : Binary64) = quarters n
    rw [htwo, quarters_div hn (by decide) (by decide)]
    unfold quarters
    rw [twoPow_add_two 1072]
    generalize twoPow 1072 = u
    rw [nearest_congr (n := n * u) (e := 1) (by decide) Nat.one_pos (by ring)]
  tenths := fun m n h => by
    show (OfScientific.ofScientific m true 1 : Binary64) = quarters n
    rw [tenths_eq]
    unfold quarters
    rw [twoPow_add_two 1072]
    generalize twoPow 1072 = u
    have hratio : m * (4 * u) * 1 = n * u * (10 * 1) :=
      calc m * (4 * u) * 1
          = 2 * m * (2 * u) := by ring
        _ = 5 * n * (2 * u) := by rw [h]
        _ = n * u * (10 * 1) := by ring
    rw [nearest_congr (by decide) Nat.one_pos hratio]
  count := ofNat_eq_quarters

-- ======================================================== between quarters

/-- A number between two numbers of quarters. -/
structure Between (low high : Nat) (x : Binary64) : Prop where
  low_le : low ≤ high
  zero_le : 0 ≤ x
  low_atMost : (quarters low).AtMost x
  atMost_high : x.AtMost (quarters high)

theorem between_quarters (n : Nat) : Between n n (quarters n) where
  low_le := Nat.le_refl n
  zero_le := zero_le_of_nonneg (isNaN_quarters n) rfl
  low_atMost := AtMost.refl _
  atMost_high := AtMost.refl _

variable {x y : Binary64}

theorem IsShare.between (h : x.IsShare) : Between 0 4 x := by
  have hone : (1 : Binary64) = quarters 4 := ofNat_eq_quarters 1
  have hzero : (0 : Binary64) = quarters 0 := ofNat_eq_quarters 0
  refine ⟨Nat.zero_le 4, h.1, fun _ => ?_, ?_⟩
  · rw [← hzero]
    exact h.1.2.2
  · rw [← hone]
    exact h.atMost

namespace Between

variable {low high low' high' : Nat}

theorem isShare (h : Between low 4 x) : x.IsShare := by
  have hone : (1 : Binary64) = quarters 4 := ofNat_eq_quarters 1
  apply isShare_of_atMost h.zero_le
  rw [hone]
  exact h.atMost_high

theorem isFinite (h : Between low high x) (hhigh : high < twoPow 64) :
    x.isFinite = true :=
  isFinite_of_zero_le h.zero_le h.atMost_high (isFinite_quarters hhigh)

theorem nonneg (h : Between low high x) (hlow : 0 < low) :
    x.negative = false := by
  have hle := h.low_atMost (isNaN_quarters low)
  have hpos : 0 < (quarters low).rank := Int.natCast_pos.2
    (Nat.pos_of_ne_zero (magnitude_quarters_ne_zero hlow))
  apply nonneg_of_rank_pos
  omega

/-- Bounds are added up. -/
theorem add (hx : Between low high x) (hy : Between low' high' y)
    (h : high + high' < twoPow 53) :
    Between (low + low') (high + high') (x + y) := by
  have hword : twoPow 53 < twoPow 64 := by decide
  have hle := hx.low_le
  have hle' := hy.low_le
  have hfin := hx.isFinite (by omega)
  have hfin' := hy.isFinite (by omega)
  have hlow := hx.low_atMost.add hy.low_atMost hfin hfin'
  have hhigh := hx.atMost_high.add hy.atMost_high (isFinite_quarters (by omega))
    (isFinite_quarters (by omega))
  rw [quarters_add (by omega) (by omega)] at hlow hhigh
  exact ⟨by omega, zero_le_add hfin hfin' hx.zero_le hy.zero_le, hlow, hhigh⟩

/-- A part of a greater number of quarters. -/
theorem isShare_div {n : Nat} (h : Between low high x) (hpos : 0 < n)
    (hn : n < twoPow 64) (hhigh : high ≤ n) : (x / quarters n).IsShare :=
  isShare_div_of_atMost h.zero_le
    (h.atMost_high.trans (isNaN_quarters high) (quarters_atMost hhigh))
    (isFinite_quarters hn) rfl (magnitude_quarters_ne_zero hpos)

/-- The least quotient. -/
theorem atMost_div {n : Nat} (h : Between low high x) (hlow : 0 < low)
    (hhigh : high < twoPow 53) (hpos : 0 < n) (hn : n < twoPow 53) :
    AtMost ⟨false, nearest (low * twoPow 1074) n⟩ (x / quarters n) := by
  have hword : twoPow 53 < twoPow 64 := by decide
  have hle := h.low_le
  rw [← quarters_div (by omega) hn hpos]
  exact h.low_atMost.div (h.isFinite (by omega)) (h.nonneg hlow)
    (isFinite_quarters (by omega)) rfl (magnitude_quarters_ne_zero hpos)

end Between

end Binary64

end SymbolMatch

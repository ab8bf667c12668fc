/-
The range of square roots. A root is found bit by bit, from the top, and
all that is asked here is where it can lie: the root of a finite number
above zero is a finite number above zero again, and not so small that a
product of two of them is rounded to zero (`sqrt_bounds`,
`sqrt_mul_sqrt_ne_zero`).

Both are a matter of the leading bit. `shift` takes what the root is
taken of to 105 or 106 bits, its root then has 53, and the least number
above zero, one unit of 2⁻¹⁰⁷⁴, has a root of 2⁵³⁷ units.
-/
import SymbolMatch.Proofs.Number.Bounds

namespace SymbolMatch.Binary64

variable {x y : Binary64} {n : Nat}

-- ========================================================== bit by bit

theorem le_rootBits (n b r : Nat) : r ≤ rootBits n b r := by
  induction b generalizing r with
  | zero => exact Nat.le_refl r
  | succ b ih =>
    unfold rootBits
    dsimp only
    split
    · exact Nat.le_trans (Nat.le_add_right r _) (ih _)
    · exact ih r

theorem rootBits_lt (n b r : Nat) : rootBits n b r < r + twoPow b := by
  induction b generalizing r with
  | zero => exact Nat.lt_succ_self r
  | succ b ih =>
    have hdouble : twoPow (b + 1) = twoPow b + twoPow b := by
      rw [twoPow_add, show twoPow 1 = 2 from rfl, Nat.mul_two]
    unfold rootBits
    dsimp only
    split
    · have hlt := ih (r + twoPow b)
      omega
    · have hlt := ih r
      omega

/-- A bit whose square fits is reached: it is set, or a higher one is. -/
theorem twoPow_le_rootBits {b k : Nat} (hb : b < k)
    (h : twoPow b * twoPow b ≤ n) : twoPow b ≤ rootBits n k 0 := by
  induction k with
  | zero => exact absurd hb (Nat.not_lt_zero b)
  | succ k ih =>
    unfold rootBits
    dsimp only
    rw [Nat.zero_add]
    by_cases heq : b = k
    · subst heq
      rw [if_pos h]
      exact le_rootBits n b _
    · have hlt : b < k := by omega
      split
      · exact Nat.le_trans (twoPow_le (Nat.le_of_lt hlt)) (le_rootBits n k _)
      · exact ih hlt

-- =============================================================== range

/-- A power of two, as a magnitude, stands for a power of two. -/
theorem span_succ_binade (e : Nat) :
    span ((e + 1) * twoPow 52) = twoPow (52 + e) := by
  rw [Nat.succ_mul, span_binade (Nat.le_refl _) (by decide), ← twoPow_add]

/-- How far the bits of a root are shifted. -/
def rootShift (x : Binary64) : Nat :=
  (span x.magnitude * twoPow 1074).log2 / 2 - 52

/-- The leading bits of a root. -/
def rootLead (x : Binary64) : Nat :=
  rootBits (span x.magnitude * twoPow 1074 / twoPow (2 * x.rootShift)) 54 0

theorem rootShift_bounds (hfin : x.isFinite = true) (hzero : x.magnitude ≠ 0) :
    485 ≤ x.rootShift ∧ x.rootShift ≤ 1534 := by
  have hbit {k n : Nat} (hn : n ≠ 0) (h : twoPow k ≤ n) : k ≤ n.log2 :=
    (Nat.le_log2 hn).2 h
  have hbit' {k n : Nat} (hn : n ≠ 0) (h : n ≤ twoPow k) : n.log2 < k + 1 :=
    (Nat.log2_lt hn).2 (Nat.lt_of_le_of_lt h
      (Nat.pow_lt_pow_right (by decide) (Nat.lt_succ_self k)))
  have hlow : 1 * twoPow 1074 ≤ span x.magnitude * twoPow 1074 :=
    Nat.mul_le_mul_right _ (span_pos hzero)
  have hhigh : span x.magnitude * twoPow 1074 ≤ twoPow (52 + 2046 + 1074) := by
    have hmono := span_mono (Nat.le_of_lt (isFinite_iff.1 hfin))
    rw [show infinityMagnitude = (2046 + 1) * twoPow 52 from rfl,
      span_succ_binade] at hmono
    rw [twoPow_add (52 + 2046)]
    exact Nat.mul_le_mul_right _ hmono
  have hne : span x.magnitude * twoPow 1074 ≠ 0 :=
    Nat.mul_ne_zero (Nat.ne_of_gt (span_pos hzero))
      (Nat.ne_of_gt (twoPow_pos 1074))
  rw [Nat.one_mul] at hlow
  have hlog := hbit hne hlow
  have hlog' := hbit' hne hhigh
  unfold rootShift
  omega

/-- A root has its leading bit at bit 52 or above. -/
theorem rootLead_bounds (hfin : x.isFinite = true) (hzero : x.magnitude ≠ 0) :
    twoPow 52 ≤ x.rootLead ∧ x.rootLead < twoPow 54 := by
  have hne : span x.magnitude * twoPow 1074 ≠ 0 :=
    Nat.mul_ne_zero (Nat.ne_of_gt (span_pos hzero))
      (Nat.ne_of_gt (twoPow_pos 1074))
  have hshift := (rootShift_bounds hfin hzero).1
  have hle : twoPow (52 + 52 + 2 * x.rootShift)
      ≤ span x.magnitude * twoPow 1074 := by
    refine Nat.le_trans (twoPow_le ?_) (Nat.log2_self_le hne)
    unfold rootShift at hshift ⊢
    omega
  constructor
  · apply twoPow_le_rootBits (by decide)
    rw [← twoPow_add, Nat.le_div_iff_mul_le (twoPow_pos _), ← twoPow_add]
    exact hle
  · have hlt := rootBits_lt
      (span x.magnitude * twoPow 1074 / twoPow (2 * x.rootShift)) 54 0
    rw [Nat.zero_add] at hlt
    exact hlt

/-- Rounding leaves the leading bits or adds one to them. -/
theorem exists_rounded (half n r : Nat) :
    ∃ up ≤ 1, (if half < 4 * n then r + 1
      else if half = 4 * n then r + r % 2
      else r) = r + up := by
  split
  · exact ⟨1, Nat.le_refl 1, rfl⟩
  · split
    · exact ⟨r % 2, by omega, rfl⟩
    · exact ⟨0, Nat.zero_le 1, rfl⟩

/-- A root is its leading bits, or one more. -/
theorem sqrt_eq (hfin : x.isFinite = true) (hsign : x.negative = false)
    (hzero : x.magnitude ≠ 0) :
    ∃ up ≤ 1, x.sqrt = ⟨false, x.rootShift * twoPow 52 + (x.rootLead + up)⟩ := by
  obtain ⟨up, hup, heq⟩ := exists_rounded
    ((2 * x.rootLead + 1) * (2 * x.rootLead + 1) * twoPow (2 * x.rootShift))
    (span x.magnitude * twoPow 1074) x.rootLead
  refine ⟨up, hup, ?_⟩
  rw [← heq]
  unfold sqrt
  rw [isNaN_of_isFinite hfin, isZero_eq_false_iff.2 hzero, hsign,
    isInfinite_of_isFinite hfin]
  simp only [Bool.or_self, Bool.false_eq_true, if_false]
  unfold rootLead rootShift
  rfl

/-- The root of a finite number above zero lies between the root of the
least and that of the greatest. -/
theorem sqrt_bounds (hfin : x.isFinite = true) (hsign : x.negative = false)
    (hzero : x.magnitude ≠ 0) :
    x.sqrt.negative = false ∧ (485 + 1) * twoPow 52 ≤ x.sqrt.magnitude
      ∧ x.sqrt.magnitude < infinityMagnitude := by
  obtain ⟨hlow, hhigh⟩ := rootShift_bounds hfin hzero
  obtain ⟨hlead, hlead'⟩ := rootLead_bounds hfin hzero
  obtain ⟨up, hup, heq⟩ := sqrt_eq hfin hsign hzero
  have hinf : infinityMagnitude = 2047 * twoPow 52 := rfl
  have htop : twoPow 54 = 4 * twoPow 52 := by decide
  have hmin : 485 * twoPow 52 ≤ x.rootShift * twoPow 52 :=
    Nat.mul_le_mul_right _ hlow
  have hmax : x.rootShift * twoPow 52 ≤ 1534 * twoPow 52 :=
    Nat.mul_le_mul_right _ hhigh
  rw [heq]
  refine ⟨rfl, ?_, ?_⟩
  · dsimp only
    omega
  · dsimp only
    omega

/-- A product of two roots is not rounded to zero. -/
theorem sqrt_mul_sqrt_ne_zero (hx : x.isFinite = true)
    (hx' : x.negative = false) (hxz : x.magnitude ≠ 0)
    (hy : y.isFinite = true) (hy' : y.negative = false)
    (hyz : y.magnitude ≠ 0) : (x.sqrt * y.sqrt).magnitude ≠ 0 := by
  obtain ⟨-, hlow, hhigh⟩ := sqrt_bounds hx hx' hxz
  obtain ⟨-, hlow', hhigh'⟩ := sqrt_bounds hy hy' hyz
  have hproduct : twoPow (52 + 485 + (52 + 485))
      ≤ span x.sqrt.magnitude * span y.sqrt.magnitude := by
    have hle := Nat.mul_le_mul (span_mono hlow) (span_mono hlow')
    rw [span_succ_binade, ← twoPow_add] at hle
    exact hle
  -- the product of the least roots is one unit
  have hone : nearest (twoPow 1074) (twoPow 1074) = nearest 1 1 := by
    have hscale := nearest_scale (twoPow_pos 1074) 1 1
    rw [Nat.mul_one] at hscale
    exact hscale
  have hpos := nearest_ne_zero (n := 1) (by decide)
  have hle : nearest (twoPow 1074) (twoPow 1074)
      ≤ nearest (span x.sqrt.magnitude * span y.sqrt.magnitude)
        (twoPow 1074) := nearest_mono hproduct
  rw [mul_of_isFinite (isFinite_iff.2 hhigh) (isFinite_iff.2 hhigh')]
  show nearest _ _ ≠ 0
  omega

end SymbolMatch.Binary64

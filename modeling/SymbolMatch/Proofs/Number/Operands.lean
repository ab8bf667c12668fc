/-
Operations on operands of any size, infinite ones among them.

# Operands that change places

A product does not depend on the order of its factors, and the distance
of two numbers not on which is taken from which (`mul_comm_of`,
`abs_sub_comm_of`). The one exception are two different NaNs, of which the
first is passed on.

# No value

A measure never meets two different NaNs. Sums, squares and roots of what
is not below zero are numbers, also where they are infinite, and a
quotient of counts that has no value is always the same NaN.

# The lesser of two

A least gives way from what has no value to what has one, so the least of
anything and a number is a number, and no more than that one
(`min_atMost`).
-/
import SymbolMatch.Proofs.Number.Root
import SymbolMatch.Proofs.Number.Shares

namespace SymbolMatch.Binary64

variable {x y : Binary64} {m n : Nat}

-- ============================================================= products

/-- Factors change places, unless they are different NaNs. -/
theorem mul_comm_of (h : x.isNaN = true → y.isNaN = true → x = y) :
    x * y = y * x := by
  show Binary64.mul x y = Binary64.mul y x
  unfold Binary64.mul
  cases hx : x.isNaN with
  | true =>
    cases hy : y.isNaN with
    | true =>
      rw [if_pos rfl, if_pos rfl]
      exact h hx hy
    | false => rfl
  | false =>
    cases hy : y.isNaN with
    | true => rfl
    | false =>
      rw [if_neg Bool.false_ne_true, if_neg Bool.false_ne_true,
        if_neg Bool.false_ne_true, if_neg Bool.false_ne_true,
        bne_comm (a := x.negative), Bool.or_comm x.isInfinite,
        Bool.or_comm x.isZero, Nat.mul_comm (span x.magnitude)]

theorem ofNat_mul_comm (m n : Nat) : ofNat m * ofNat n = ofNat n * ofNat m := by
  refine mul_comm_of fun hm _ => ?_
  rw [isNaN_ofNat] at hm
  cases hm

-- ============================================================ distances

/-- What a whole number is rounded to does not depend on its sign. -/
theorem magnitude_ofUnits (zeroSign : Bool) (z : Int) :
    (ofUnits zeroSign z).magnitude = nearest z.natAbs 1 := by
  unfold ofUnits
  split
  · next hz =>
    subst hz
    exact (nearest_zero Nat.one_pos).symm
  · rfl

theorem units_neg (x : Binary64) : (-x).units = -x.units := by
  show (Binary64.neg x).units = -x.units
  unfold Binary64.neg units
  cases x.negative with
  | false => rfl
  | true => exact (Int.neg_neg _).symm

/-- How far two numbers lie apart, before the sign. -/
theorem magnitude_sub (hx : x.isNaN = false) (hy : y.isNaN = false) :
    (x - y).magnitude
      = if x.isInfinite || y.isInfinite then
          if x.isInfinite && y.isInfinite && x.negative == y.negative then
            nanMagnitude
          else infinityMagnitude
        else nearest (x.units - y.units).natAbs 1 := by
  have hyneg : (Binary64.neg y).isNaN = false := hy
  have hyinf : (Binary64.neg y).isInfinite = y.isInfinite := rfl
  have hsign : (x.negative != (Binary64.neg y).negative)
      = (x.negative == y.negative) := by
    show (x.negative != !y.negative) = _
    cases x.negative <;> cases y.negative <;> rfl
  rw [sub_eq_add_neg hx hy]
  show (Binary64.add x (Binary64.neg y)).magnitude = _
  unfold Binary64.add
  rw [hx, hyneg, hyinf, hsign, if_neg Bool.false_ne_true,
    if_neg Bool.false_ne_true]
  cases hx' : x.isInfinite with
  | true =>
    rw [if_pos rfl, Bool.true_or, if_pos rfl, Bool.true_and]
    by_cases hsame : (y.isInfinite && x.negative == y.negative) = true
    · rw [if_pos hsame, if_pos hsame]
      rfl
    · rw [if_neg hsame, if_neg hsame]
      exact isInfinite_iff.1 hx'
  | false =>
    rw [if_neg Bool.false_ne_true, Bool.false_or]
    cases hy' : y.isInfinite with
    | true =>
      rw [if_pos rfl, if_pos rfl, Bool.false_and, Bool.false_and,
        if_neg Bool.false_ne_true]
      exact isInfinite_iff.1 hy'
    | false =>
      rw [if_neg Bool.false_ne_true, if_neg Bool.false_ne_true,
        magnitude_ofUnits]
      show nearest (x.units + (-y).units).natAbs 1 = _
      rw [units_neg, ← Int.sub_eq_add_neg]

/-- The distance of two numbers, whichever is taken from which. -/
theorem abs_sub_comm_of (h : x.isNaN = true → y.isNaN = true → x = y) :
    (x - y).abs = (y - x).abs := by
  have hnan {u v : Binary64} (hu : u.isNaN = true) (hv : v.isNaN = false) :
      u - v = u ∧ v - u = u := by
    constructor
    · show Binary64.sub u v = u
      unfold Binary64.sub
      rw [if_pos hu]
    · show Binary64.sub v u = u
      unfold Binary64.sub
      rw [if_neg (by rw [hv]; decide), if_pos hu]
  cases hx : x.isNaN with
  | true =>
    cases hy : y.isNaN with
    | true => rw [h hx hy]
    | false => rw [(hnan hx hy).1, (hnan hx hy).2]
  | false =>
    cases hy : y.isNaN with
    | true => rw [(hnan hy hx).1, (hnan hy hx).2]
    | false =>
      have hgap : (x.units - y.units).natAbs = (y.units - x.units).natAbs := by
        rw [← Int.neg_sub, Int.natAbs_neg]
      unfold abs
      rw [magnitude_sub hx hy, magnitude_sub hy hx, hgap,
        Bool.or_comm x.isInfinite, Bool.and_comm x.isInfinite,
        BEq.comm (a := x.negative)]

-- ============================================================= no value

/-- Only zeros add up to zero, among numbers that are not below it. -/
theorem add_of_zero_le (hx : 0 ≤ x) (hy : 0 ≤ y) :
    0 ≤ x + y
      ∧ (x.magnitude ≠ 0 ∨ y.magnitude ≠ 0 → (x + y).magnitude ≠ 0) := by
  have hinfinite : infinityMagnitude ≠ 0 := by decide
  have hsign {z : Binary64} (hz : 0 ≤ z) (hinf : z.isInfinite = true) :
      z.negative = false := by
    apply nonneg_of_ne_zero hz
    rw [isInfinite_iff.1 hinf]
    exact hinfinite
  have hxnan := (zero_le_iff.1 hx).1
  have hynan := (zero_le_iff.1 hy).1
  cases hxinf : x.isInfinite with
  | true =>
    have heq : x + y = x := by
      show Binary64.add x y = x
      unfold Binary64.add
      rw [hxnan, hynan, hxinf]
      cases hyinf : y.isInfinite with
      | false => rfl
      | true =>
        rw [hsign hx hxinf, hsign hy hyinf]
        rfl
    rw [heq, isInfinite_iff.1 hxinf]
    exact ⟨hx, fun _ => hinfinite⟩
  | false =>
    have hxfin := isFinite_of hxnan hxinf
    cases hyinf : y.isInfinite with
    | true =>
      have heq : x + y = y := by
        show Binary64.add x y = y
        unfold Binary64.add
        rw [hxnan, hynan, hxinf, hyinf]
        rfl
      rw [heq, isInfinite_iff.1 hyinf]
      exact ⟨hy, fun _ => hinfinite⟩
    | false =>
      have hyfin := isFinite_of hynan hyinf
      refine ⟨zero_le_add hxfin hyfin hx hy, fun hsome => ?_⟩
      rw [add_of_isFinite hxfin hyfin, magnitude_ofUnits, units_of_zero_le hx,
        units_of_zero_le hy]
      apply nearest_ne_zero
      rcases hsome with h | h
      · have := span_pos h
        omega
      · have := span_pos h
        omega

/-- A sum of numbers that are not below zero, however large. -/
theorem zero_le_sum {xs : List Binary64} (h : ∀ x ∈ xs, 0 ≤ x) :
    0 ≤ sum xs := by
  have key (s : Binary64) (hs : 0 ≤ s) : 0 ≤ xs.foldl (· + ·) s := by
    induction xs generalizing s with
    | nil => exact hs
    | cons x rest ih =>
      exact ih (fun y hy => h y (List.mem_cons_of_mem _ hy)) _
        (add_of_zero_le hs (h x List.mem_cons_self)).1
  exact key negZero (zero_le_mk (Nat.zero_le _) fun _ => rfl)

/-- A multiple of what is above zero is above zero. -/
theorem ofNat_mul_ne_zero (hn : 0 < n) (hn' : n < twoPow 53) (hx : 0 ≤ x)
    (hzero : x.magnitude ≠ 0) :
    0 ≤ ofNat n * x ∧ (ofNat n * x).magnitude ≠ 0 := by
  have hword : twoPow 53 < twoPow 64 := by decide
  have hfin := isFinite_ofNat (n := n) (by omega)
  have hnan := (zero_le_iff.1 hx).1
  have hsign := nonneg_of_ne_zero hx hzero
  cases hinf : x.isInfinite with
  | true =>
    have heq : ofNat n * x = infinity := by
      show Binary64.mul (ofNat n) x = infinity
      unfold Binary64.mul
      rw [isNaN_ofNat, hnan, hinf, Bool.or_true, hsign, negative_ofNat,
        isZero_eq_false_iff.2 (magnitude_ofNat_ne_zero hn),
        isZero_eq_false_iff.2 hzero]
      rfl
    rw [heq]
    exact ⟨zero_le_mk (Nat.le_refl _) fun h => absurd h Bool.false_ne_true,
      by decide⟩
  | false =>
    have hxfin := isFinite_of hnan hinf
    refine ⟨zero_le_mul hfin hxfin (zero_le_ofNat n) hx, ?_⟩
    rw [mul_of_isFinite hfin hxfin, span_ofNat hn', Nat.mul_right_comm,
      Nat.mul_comm _ (twoPow 1074)]
    have hscale := nearest_scale (twoPow_pos 1074) (n * span x.magnitude) 1
    rw [Nat.mul_one] at hscale
    rw [hscale]
    exact nearest_ne_zero
      (Nat.ne_of_gt (Nat.mul_pos hn (span_pos hzero)))

/-- Nothing is no share of what is above zero. -/
theorem zero_div_of_ne_zero (hx : 0 ≤ x) (hzero : x.magnitude ≠ 0) :
    0 / x = 0 := by
  have hnan := (zero_le_iff.1 hx).1
  have hsign := nonneg_of_ne_zero hx hzero
  cases hinf : x.isInfinite with
  | true =>
    rw [div_of_isInfinite isFinite_zero hnan hinf, hsign, zero_eq]
    rfl
  | false =>
    have hspan : span 0 = 0 := rfl
    rw [div_of_isFinite isFinite_zero (isFinite_of hnan hinf) hzero, zero_eq,
      hsign]
    dsimp only
    rw [hspan, Nat.zero_mul, nearest_zero (span_pos hzero)]
    rfl

theorem zero_le_square (n : Nat) : 0 ≤ ofNat n * ofNat n := by
  rcases nan_or_infinite_or_finite (ofNat n) with hnan | ⟨hnan, hinf⟩ | hfin
  · rw [isNaN_ofNat] at hnan
    cases hnan
  · have hzero : (ofNat n).isZero = false := by
      rw [isZero_eq_false_iff, isInfinite_iff.1 hinf]
      decide
    have heq : ofNat n * ofNat n = infinity := by
      show Binary64.mul (ofNat n) (ofNat n) = infinity
      unfold Binary64.mul
      rw [hnan, hinf, hzero, bne_self_eq_false]
      rfl
    rw [heq]
    exact zero_le_mk (Nat.le_refl _) fun h => absurd h Bool.false_ne_true
  · exact zero_le_mul hfin hfin (zero_le_ofNat n) (zero_le_ofNat n)

/-- What is not below zero has a root. -/
theorem isNaN_sqrt (h : 0 ≤ x) : x.sqrt.isNaN = false := by
  have hnan := (zero_le_iff.1 h).1
  by_cases hzero : x.magnitude = 0
  · have hroot : x.sqrt = x := by
      unfold sqrt
      rw [isZero_iff.2 hzero, Bool.or_true, if_pos rfl]
    rw [hroot]
    exact hnan
  · have hsign := nonneg_of_ne_zero h hzero
    cases hinf : x.isInfinite with
    | false =>
      have hbounds := sqrt_bounds (isFinite_of hnan hinf) hsign hzero
      exact isNaN_of_isFinite (isFinite_iff.2 hbounds.2.2)
    | true =>
      have hroot : x.sqrt = x := by
        unfold sqrt
        rw [hnan, isZero_eq_false_iff.2 hzero, hsign, hinf]
        rfl
      rw [hroot]
      exact hnan

/-- A quotient of counts has no value in one way only. -/
theorem ratio_eq_indefinite (hn : 0 < n)
    (h : (ofNat m / ofNat n).isNaN = true) :
    ofNat m / ofNat n = indefinite := by
  have hzero := isZero_eq_false_iff.2 (magnitude_ofNat_ne_zero hn)
  have hnumber {z : Binary64} (hz : z.magnitude ≤ infinityMagnitude) :
      ¬z.isNaN = true := by
    rw [isNaN_of_le hz]
    exact Bool.false_ne_true
  revert h
  show (Binary64.div (ofNat m) (ofNat n)).isNaN = true →
    Binary64.div (ofNat m) (ofNat n) = indefinite
  unfold Binary64.div
  rw [isNaN_ofNat, isNaN_ofNat, if_neg Bool.false_ne_true,
    if_neg Bool.false_ne_true, hzero]
  dsimp only
  intro h
  by_cases hm : (ofNat m).isInfinite = true
  · rw [if_pos hm] at h ⊢
    by_cases hn : (ofNat n).isInfinite = true
    · rw [if_pos hn]
    · rw [if_neg hn] at h
      exact absurd h (hnumber (Nat.le_refl _))
  · rw [if_neg hm] at h
    by_cases hn : (ofNat n).isInfinite = true
    · rw [if_pos hn] at h
      exact absurd h (hnumber (Nat.zero_le _))
    · rw [if_neg hn, if_neg Bool.false_ne_true] at h
      exact absurd h (hnumber (nearest_le _ _))

/-- The ratio of a count that a machine word holds to any other. -/
theorem isFinite_ratio (hm : m < twoPow 64) (hn : 0 < n) :
    (ofNat m / ofNat n).isFinite = true := by
  have hfin := isFinite_ofNat hm
  have hzero := magnitude_ofNat_ne_zero hn
  cases hinf : (ofNat n).isInfinite with
  | true =>
    rw [div_of_isInfinite hfin (isNaN_ofNat n) hinf, isFinite_iff]
    show 0 < infinityMagnitude
    decide
  | false =>
    have hfin' := isFinite_of (isNaN_ofNat n) hinf
    -- the divisor is at least one
    have hspan : twoPow 1074 ≤ span (ofNat n).magnitude := by
      have hone := span_ofNat (n := 1) (by decide)
      rw [Nat.one_mul] at hone
      rw [← hone]
      exact span_mono (nearest_mono (Nat.mul_le_mul_right _ hn))
    have hle : nearest (span (ofNat m).magnitude * twoPow 1074)
        (span (ofNat n).magnitude) ≤ nearest (span (ofNat m).magnitude) 1 :=
      nearest_le_nearest (span_pos hzero) Nat.one_pos (by
        rw [Nat.mul_one]
        exact Nat.mul_le_mul_left _ hspan)
    rw [nearest_span (Nat.le_of_lt (isFinite_iff.1 hfin))] at hle
    rw [div_of_isFinite hfin hfin' hzero, isFinite_iff]
    exact Nat.lt_of_le_of_lt hle (isFinite_iff.1 hfin)

theorem isFinite_abs (x : Binary64) : x.abs.isFinite = x.isFinite := rfl

/-- The distance of finite numbers that are not below zero. -/
theorem isFinite_sub_of_zero_le (hx : x.isFinite = true)
    (hy : y.isFinite = true) (hx' : 0 ≤ x) (hy' : 0 ≤ y) :
    (x - y).isFinite = true := by
  have hround {z : Binary64} (hz : z.isFinite = true) :
      nearest (span z.magnitude) 1 < infinityMagnitude := by
    rw [isFinite_iff] at hz
    rw [nearest_span (Nat.le_of_lt hz)]
    exact hz
  rw [isFinite_iff, magnitude_sub (isNaN_of_isFinite hx) (isNaN_of_isFinite hy),
    isInfinite_of_isFinite hx, isInfinite_of_isFinite hy, Bool.or_false,
    if_neg Bool.false_ne_true, units_of_zero_le hx', units_of_zero_le hy']
  rcases Nat.le_total (span x.magnitude) (span y.magnitude) with hle | hle
  · exact Nat.lt_of_le_of_lt (nearest_mono (by omega)) (hround hy)
  · exact Nat.lt_of_le_of_lt (nearest_mono (by omega)) (hround hx)

/-- A number times a weight. -/
theorem isNaN_mul_of_isFinite (hx : x.isNaN = false) (hy : y.isFinite = true)
    (hzero : y.magnitude ≠ 0) : (x * y).isNaN = false := by
  show (Binary64.mul x y).isNaN = false
  unfold Binary64.mul
  rw [hx, isNaN_of_isFinite hy, if_neg Bool.false_ne_true,
    if_neg Bool.false_ne_true]
  dsimp only
  rw [isInfinite_of_isFinite hy, isZero_eq_false_iff.2 hzero, Bool.or_false,
    Bool.or_false]
  by_cases hinf : x.isInfinite = true
  · have hsome : x.isZero = false := by
      rw [isZero_eq_false_iff, isInfinite_iff.1 hinf]
      decide
    rw [if_pos hinf, hsome, if_neg Bool.false_ne_true]
    exact isNaN_of_le (Nat.le_refl _)
  · rw [if_neg hinf]
    exact isNaN_of_le (nearest_le _ _)

-- =========================================================== the lesser

theorem min_eq_or_eq (x y : Binary64) : min x y = x ∨ min x y = y := by
  show Binary64.min x y = x ∨ Binary64.min x y = y
  unfold Binary64.min
  split
  · exact .inr rfl
  · split
    · exact .inl rfl
    · split
      · exact .inr rfl
      · exact .inl rfl

/-- The lesser of anything and a number. -/
theorem min_atMost (hy : y.isNaN = false) :
    (min x y).isNaN = false ∧ (min x y).AtMost y := by
  show (Binary64.min x y).isNaN = false ∧ (Binary64.min x y).AtMost y
  unfold Binary64.min
  rw [hy, if_neg Bool.false_ne_true]
  split
  · exact ⟨hy, AtMost.refl y⟩
  · next hx =>
    rw [Bool.not_eq_true] at hx
    split
    · exact ⟨hy, AtMost.refl y⟩
    · next hle => exact ⟨hx, atMost_of_not_lt hy hle⟩

end SymbolMatch.Binary64

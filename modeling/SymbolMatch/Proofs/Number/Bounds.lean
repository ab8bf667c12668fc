/-
Upper bounds of sums, products and quotients. A score is put together
from shares and weights, and the question asked of it is how great it
can be. A bound says nothing of a NaN, which exceeds nothing and is never
chosen, so bounds pass through every operation without a case for it
(`AtMost`).

An operation on finite operands is one rounding of a whole number, and
rounding keeps the order (`nearest_mono`). What is left are the infinite
operands, which a finite bound allows on one side only.
-/
import SymbolMatch.Number.Decimal
import SymbolMatch.Proofs.Number.Order
import SymbolMatch.Proofs.Number.Rounding

namespace SymbolMatch.Binary64

variable {a b w x y : Binary64} {m n : Nat}

-- ====================================================== classification

theorem isFinite_iff : x.isFinite = true ↔ x.magnitude < infinityMagnitude := by
  unfold isFinite
  exact decide_eq_true_iff

theorem isNaN_of_le (h : x.magnitude ≤ infinityMagnitude) :
    x.isNaN = false := by
  unfold isNaN
  exact decide_eq_false (Nat.not_lt.2 h)

theorem isNaN_of_isFinite (h : x.isFinite = true) : x.isNaN = false :=
  isNaN_of_le (Nat.le_of_lt (isFinite_iff.1 h))

theorem isInfinite_of_isFinite (h : x.isFinite = true) :
    x.isInfinite = false := by
  rw [isFinite_iff] at h
  unfold isInfinite
  exact beq_false_of_ne (Nat.ne_of_lt h)

theorem isInfinite_iff :
    x.isInfinite = true ↔ x.magnitude = infinityMagnitude := by
  unfold isInfinite
  exact beq_iff_eq

theorem isFinite_of (hnan : x.isNaN = false) (hinf : x.isInfinite = false) :
    x.isFinite = true := by
  unfold isNaN at hnan
  unfold isInfinite at hinf
  rw [isFinite_iff]
  have hle := of_decide_eq_false hnan
  have hne := ne_of_beq_false hinf
  omega

/-- A double is a NaN, infinite or finite. -/
theorem nan_or_infinite_or_finite (x : Binary64) :
    x.isNaN = true ∨ (x.isNaN = false ∧ x.isInfinite = true)
      ∨ x.isFinite = true := by
  cases hnan : x.isNaN with
  | true => exact .inl rfl
  | false =>
    cases hinf : x.isInfinite with
    | true => exact .inr (.inl ⟨rfl, rfl⟩)
    | false => exact .inr (.inr (isFinite_of hnan hinf))

theorem isZero_iff : x.isZero = true ↔ x.magnitude = 0 := by
  unfold isZero
  exact beq_iff_eq

theorem isZero_eq_false_iff : x.isZero = false ↔ x.magnitude ≠ 0 := by
  rw [← Bool.not_eq_true, isZero_iff]

-- ======================================================= rank and units

theorem rank_of_nonneg (h : x.negative = false) : x.rank = x.magnitude := by
  unfold rank
  rw [h]
  rfl

theorem rank_of_negative (h : x.negative = true) : x.rank = -x.magnitude := by
  unfold rank
  rw [h]
  rfl

theorem units_of_nonneg (h : x.negative = false) :
    x.units = span x.magnitude := by
  unfold units
  rw [h]
  rfl

theorem units_of_negative (h : x.negative = true) :
    x.units = -span x.magnitude := by
  unfold units
  rw [h]
  rfl

/-- What stands higher in the order stands for more. -/
theorem units_mono (h : x.rank ≤ y.rank) : x.units ≤ y.units := by
  have hzero : span 0 = 0 := rfl
  cases hx : x.negative with
  | false =>
    rw [rank_of_nonneg hx] at h
    rw [units_of_nonneg hx]
    cases hy : y.negative with
    | false =>
      rw [rank_of_nonneg hy] at h
      rw [units_of_nonneg hy]
      exact Int.ofNat_le.2 (span_mono (Int.ofNat_le.1 h))
    | true =>
      -- both are zero
      rw [rank_of_negative hy] at h
      rw [units_of_negative hy, show x.magnitude = 0 by omega,
        show y.magnitude = 0 by omega, hzero]
      decide
  | true =>
    rw [rank_of_negative hx] at h
    rw [units_of_negative hx]
    cases hy : y.negative with
    | false =>
      rw [units_of_nonneg hy]
      omega
    | true =>
      rw [rank_of_negative hy] at h
      rw [units_of_negative hy]
      have hle : span y.magnitude ≤ span x.magnitude :=
        span_mono (by omega)
      omega

/-- A whole number is rounded on its own side of zero. -/
theorem rank_ofUnits (zeroSign : Bool) (z : Int) :
    (ofUnits zeroSign z).rank
      = if z < 0 then -(nearest z.natAbs 1 : Int) else nearest z.natAbs 1 := by
  unfold ofUnits
  by_cases hz : z = 0
  · subst hz
    rw [if_pos rfl, if_neg (by decide),
      show nearest (0 : Int).natAbs 1 = 0 from nearest_zero (by decide)]
    cases zeroSign with
    | false => rfl
    | true => rfl
  · rw [if_neg hz]
    by_cases hneg : z < 0
    · rw [if_pos hneg, rank_of_negative (decide_eq_true hneg)]
    · rw [if_neg hneg, rank_of_nonneg (decide_eq_false hneg)]

theorem isNaN_ofUnits (zeroSign : Bool) (z : Int) :
    (ofUnits zeroSign z).isNaN = false := by
  apply isNaN_of_le
  unfold ofUnits
  split
  · exact Nat.zero_le _
  · exact nearest_le _ _

/-- A greater whole number is not rounded to a lesser one. -/
theorem rank_ofUnits_mono (s s' : Bool) {z z' : Int} (h : z ≤ z') :
    (ofUnits s z).rank ≤ (ofUnits s' z').rank := by
  rw [rank_ofUnits, rank_ofUnits]
  by_cases hz : z < 0
  · rw [if_pos hz]
    by_cases hz' : z' < 0
    · rw [if_pos hz']
      have hle : nearest z'.natAbs 1 ≤ nearest z.natAbs 1 :=
        nearest_mono (by omega)
      omega
    · rw [if_neg hz']
      omega
  · rw [if_neg hz, if_neg (by omega)]
    exact Int.ofNat_le.2 (nearest_mono (by omega))

-- ====================================================== NaN operands

theorem isNaN_add (h : x.isNaN = true ∨ y.isNaN = true) :
    (x + y).isNaN = true := by
  show (Binary64.add x y).isNaN = true
  unfold Binary64.add
  split
  · next hx => exact hx
  · next hx =>
    have hy := h.resolve_left hx
    rw [if_pos hy]
    exact hy

theorem isNaN_sub (h : x.isNaN = true ∨ y.isNaN = true) :
    (x - y).isNaN = true := by
  show (Binary64.sub x y).isNaN = true
  unfold Binary64.sub
  split
  · next hx => exact hx
  · next hx =>
    have hy := h.resolve_left hx
    rw [if_pos hy]
    exact hy

theorem isNaN_mul (h : x.isNaN = true) : (x * y).isNaN = true := by
  show (Binary64.mul x y).isNaN = true
  unfold Binary64.mul
  rw [if_pos h]
  exact h

theorem isNaN_div (h : x.isNaN = true) : (x / y).isNaN = true := by
  show (Binary64.div x y).isNaN = true
  unfold Binary64.div
  rw [if_pos h]
  exact h

theorem isNaN_indefinite : indefinite.isNaN = true := by decide

-- ==================================================== finite operations

theorem zero_eq : (0 : Binary64) = ⟨false, 0⟩ := by decide +kernel

theorem one_eq : (1 : Binary64) = ⟨false, nearest (twoPow 1074) 1⟩ := by
  decide +kernel

theorem isFinite_zero : (0 : Binary64).isFinite = true := by
  rw [zero_eq]
  decide

theorem isNaN_zero : (0 : Binary64).isNaN = false :=
  isNaN_of_isFinite isFinite_zero

theorem magnitude_one : (1 : Binary64).magnitude = 1023 * twoPow 52 := by
  decide +kernel

theorem isFinite_one : (1 : Binary64).isFinite = true := by
  rw [isFinite_iff, magnitude_one]
  decide

theorem add_of_isFinite (hx : x.isFinite = true) (hy : y.isFinite = true) :
    x + y = ofUnits (x.negative && y.negative) (x.units + y.units) := by
  show Binary64.add x y = _
  unfold Binary64.add
  rw [isNaN_of_isFinite hx, isNaN_of_isFinite hy, isInfinite_of_isFinite hx,
    isInfinite_of_isFinite hy]
  rfl

theorem sub_eq_add_neg (hx : x.isNaN = false) (hy : y.isNaN = false) :
    x - y = x + -y := by
  show Binary64.sub x y = Binary64.add x y.neg
  unfold Binary64.sub
  rw [hx, hy]
  rfl

theorem mul_of_isFinite (hx : x.isFinite = true) (hy : y.isFinite = true) :
    x * y = ⟨x.negative != y.negative,
      nearest (span x.magnitude * span y.magnitude) (twoPow 1074)⟩ := by
  show Binary64.mul x y = _
  unfold Binary64.mul
  rw [isNaN_of_isFinite hx, isNaN_of_isFinite hy, isInfinite_of_isFinite hx,
    isInfinite_of_isFinite hy]
  rfl

theorem div_of_isFinite (hx : x.isFinite = true) (hy : y.isFinite = true)
    (hzero : y.magnitude ≠ 0) :
    x / y = ⟨x.negative != y.negative,
      nearest (span x.magnitude * twoPow 1074) (span y.magnitude)⟩ := by
  show Binary64.div x y = _
  unfold Binary64.div
  rw [isNaN_of_isFinite hx, isNaN_of_isFinite hy, isInfinite_of_isFinite hx,
    isInfinite_of_isFinite hy, isZero_eq_false_iff.2 hzero]
  rfl

theorem span_pos {k : Nat} (h : k ≠ 0) : 0 < span k := by
  have hone : span 1 ≤ span k := span_mono (Nat.one_le_iff_ne_zero.2 h)
  have : span 1 = 1 := span_of_lt (by decide)
  omega

/-- A finite double other than zero is once itself. -/
theorem div_self_of_isFinite (hx : x.isFinite = true)
    (hzero : x.magnitude ≠ 0) : x / x = 1 := by
  have hscale := nearest_scale (span_pos hzero) (twoPow 1074) 1
  rw [Nat.mul_one] at hscale
  rw [div_of_isFinite hx hx hzero, hscale, bne_self_eq_false, one_eq]

/-- No double is any other number of times itself. -/
theorem div_self_eq_one_or_isNaN (x : Binary64) :
    x / x = 1 ∨ (x / x).isNaN = true := by
  rcases nan_or_infinite_or_finite x with hnan | ⟨hnan, hinf⟩ | hfin
  · exact .inr (isNaN_div hnan)
  · right
    show (Binary64.div x x).isNaN = true
    unfold Binary64.div
    rw [hnan, hinf]
    exact isNaN_indefinite
  · by_cases hzero : x.magnitude = 0
    · right
      show (Binary64.div x x).isNaN = true
      unfold Binary64.div
      rw [isNaN_of_isFinite hfin, isInfinite_of_isFinite hfin,
        isZero_iff.2 hzero]
      exact isNaN_indefinite
    · exact .inl (div_self_of_isFinite hfin hzero)

/-- Once a weight is the weight. -/
theorem one_mul_of_isFinite (hw : w.isFinite = true) : 1 * w = w := by
  have hone : span (nearest (twoPow 1074) 1) = twoPow 1074 := by decide +kernel
  have hscale := nearest_scale (twoPow_pos 1074) (span w.magnitude) 1
  rw [Nat.mul_one,
    nearest_span (Nat.le_of_lt (isFinite_iff.1 hw))] at hscale
  rw [mul_of_isFinite isFinite_one hw, one_eq]
  dsimp only
  rw [hone, hscale, Bool.false_bne]

/-- A sum of numbers without a sign has no sign. -/
theorem nonneg_add (hx : x.isFinite = true) (hy : y.isFinite = true)
    (hx' : x.negative = false) (hy' : y.negative = false) :
    (x + y).isNaN = false ∧ (x + y).negative = false := by
  rw [add_of_isFinite hx hy]
  refine ⟨isNaN_ofUnits _ _, ?_⟩
  rw [units_of_nonneg hx', units_of_nonneg hy', hx']
  unfold ofUnits
  split
  · rfl
  · dsimp only
    apply decide_eq_false
    omega

/-- A finite summand leaves infinity as it is. -/
theorem add_of_isInfinite (hx : x.isNaN = false) (hinf : x.isInfinite = true)
    (hy : y.isFinite = true) : x + y = x := by
  show Binary64.add x y = x
  unfold Binary64.add
  rw [hx, isNaN_of_isFinite hy, hinf, isInfinite_of_isFinite hy]
  rfl

/-- If a sum can be held, so can the sum up to any of its terms. -/
theorem isFinite_of_foldl_add {ws : List Binary64}
    (hws : ∀ w ∈ ws, w.isFinite = true) (hx : x.isNaN = false)
    (h : (ws.foldl (· + ·) x).isFinite = true) : x.isFinite = true := by
  cases hinf : x.isInfinite with
  | false => exact isFinite_of hx hinf
  | true =>
    have hstay : ws.foldl (· + ·) x = x := by
      clear h
      induction ws with
      | nil => rfl
      | cons w rest ih =>
        rw [List.foldl_cons,
          add_of_isInfinite hx hinf (hws w List.mem_cons_self)]
        exact ih fun v hv => hws v (List.mem_cons_of_mem _ hv)
    rw [hstay] at h
    exact h

/-- A finite double less itself is zero. -/
theorem sub_self_of_isFinite (hx : x.isFinite = true) : x - x = 0 := by
  have hneg : (-x).isFinite = true := hx
  have hnan := isNaN_of_isFinite hx
  have hunits : x.units + (-x).units = 0 := by
    cases hsign : x.negative with
    | false =>
      have hflip : (-x).negative = true := congrArg not hsign
      rw [units_of_nonneg hsign, units_of_negative hflip]
      exact Int.add_right_neg _
    | true =>
      have hflip : (-x).negative = false := congrArg not hsign
      rw [units_of_negative hsign, units_of_nonneg hflip]
      exact Int.add_left_neg _
  have hsign : (x.negative && (-x).negative) = false := by
    show (x.negative && !x.negative) = false
    exact Bool.and_not_self _
  rw [sub_eq_add_neg hnan hnan, add_of_isFinite hx hneg, hunits, hsign,
    zero_eq]
  rfl

/-- A product of what has no sign has none, unless it has no value. -/
theorem mul_sign (hx : x.isNaN = true ∨ x.negative = false)
    (hy : y.isNaN = true ∨ y.negative = false) :
    (x * y).isNaN = true ∨ (x * y).negative = false := by
  show (Binary64.mul x y).isNaN = true ∨ (Binary64.mul x y).negative = false
  unfold Binary64.mul
  by_cases hnan : x.isNaN = true
  · rw [if_pos hnan]
    exact .inl hnan
  · by_cases hnan' : y.isNaN = true
    · rw [if_neg hnan, if_pos hnan']
      exact .inl hnan'
    · rw [if_neg hnan, if_neg hnan', hx.resolve_left hnan,
        hy.resolve_left hnan']
      dsimp only
      split
      · split
        · exact .inl isNaN_indefinite
        · exact .inr rfl
      · exact .inr rfl

/-- A sum with a term that has no sign is not the negative zero. -/
theorem add_ne_negZero (hx : x.isNaN = true ∨ x.negative = false) :
    x + y ≠ negZero := by
  have hnumber {z : Binary64} (h : z.isNaN = true) : z ≠ negZero := by
    intro heq
    rw [heq] at h
    exact absurd h (by decide)
  have hbounded {z : Binary64} (h : z.isInfinite = true) : z ≠ negZero := by
    intro heq
    rw [heq] at h
    exact absurd h (by decide)
  show Binary64.add x y ≠ negZero
  unfold Binary64.add
  split
  · next h => exact hnumber h
  · next hnan =>
    split
    · next h => exact hnumber h
    · split
      · next h =>
        split
        · exact hnumber isNaN_indefinite
        · exact hbounded h
      · split
        · next h => exact hbounded h
        · rw [hx.resolve_left hnan, Bool.false_and]
          unfold ofUnits negZero
          split
          · simp
          · next hz =>
            have hne := nearest_ne_zero (Int.natAbs_ne_zero.2 hz)
            simp [hne]

-- ============================================================== bounds

/-- Not above a bound. A NaN is above nothing. -/
def AtMost (x b : Binary64) : Prop := x.isNaN = false → x.rank ≤ b.rank

instance (x b : Binary64) : Decidable (x.AtMost b) :=
  inferInstanceAs (Decidable (_ → _))

theorem AtMost.refl (x : Binary64) : x.AtMost x := fun _ => Int.le_refl _

theorem atMost_of_isNaN (h : x.isNaN = true) : x.AtMost b := by
  intro hnan
  rw [h] at hnan
  cases hnan

theorem AtMost.trans (h : x.AtMost a) (ha : a.isNaN = false)
    (h' : a.AtMost b) : x.AtMost b :=
  fun hx => Int.le_trans (h hx) (h' ha)

theorem AtMost.not_lt (h : x.AtMost b) : ¬b < x := by
  intro hlt
  have hle := h hlt.2.1
  have := hlt.2.2
  omega

theorem atMost_of_not_lt (hb : b.isNaN = false) (h : ¬b < x) : x.AtMost b := by
  intro hx
  apply Int.le_of_not_gt
  intro hlt
  exact h ⟨hb, hx, hlt⟩

theorem AtMost.le (h : x.AtMost b) (hx : x.isNaN = false)
    (hb : b.isNaN = false) : x ≤ b := ⟨hx, hb, h hx⟩

/-- A double is not less of itself than 1. -/
theorem not_div_self_lt (hb : b.AtMost 1) : ¬x / x < b := by
  intro hlt
  rcases div_self_eq_one_or_isNaN x with heq | hnan
  · rw [heq] at hlt
    exact hb.not_lt hlt
  · rw [hlt.1] at hnan
    cases hnan

/-- Only a negative infinity is at most a finite bound. -/
theorem AtMost.negative_of_isInfinite (h : x.AtMost b)
    (hb : b.isFinite = true) (hnan : x.isNaN = false)
    (hinf : x.isInfinite = true) : x.negative = true := by
  cases hneg : x.negative with
  | true => rfl
  | false =>
    have hle := h hnan
    rw [rank_of_nonneg hneg, isInfinite_iff.1 hinf] at hle
    rw [isFinite_iff] at hb
    unfold rank at hle
    split at hle
    · omega
    · omega

/-- Negative infinity is at most any number. -/
theorem atMost_of_negInfinity (hneg : x.negative = true)
    (hinf : x.isInfinite = true) (hb : b.isNaN = false) : x.AtMost b := by
  intro _
  rw [rank_of_negative hneg, isInfinite_iff.1 hinf]
  unfold isNaN at hb
  have hle := of_decide_eq_false hb
  unfold rank
  split
  · omega
  · omega

/-- What lies between a number and a finite bound is finite. -/
theorem AtMost.isFinite_of_lt (h : x.AtMost b)
    (hb : b.isFinite = true) (hlt : a < x) : x.isFinite = true := by
  apply isFinite_of hlt.2.1
  by_contra hinf
  rw [Bool.not_eq_false] at hinf
  have hneg := h.negative_of_isInfinite hb hlt.2.1 hinf
  exact (atMost_of_negInfinity hneg hinf hlt.1).not_lt hlt

/-- What exceeds something exceeds negative infinity. -/
theorem negInfinity_lt (h : x < y) : negInfinity < y := by
  have hle : negInfinity.rank ≤ x.rank :=
    atMost_of_negInfinity rfl (by decide) h.1 (by decide)
  exact ⟨by decide, h.2.1, Int.lt_of_le_of_lt hle h.2.2⟩

theorem AtMost.add (hx : x.AtMost a) (hy : y.AtMost b)
    (ha : a.isFinite = true) (hb : b.isFinite = true) :
    (x + y).AtMost (a + b) := by
  have hsum : (a + b).isNaN = false := by
    rw [add_of_isFinite ha hb]
    exact isNaN_ofUnits _ _
  rcases nan_or_infinite_or_finite x with hnan | ⟨hnan, hinf⟩ | hfin
  · exact atMost_of_isNaN (isNaN_add (.inl hnan))
  · have hneg := hx.negative_of_isInfinite ha hnan hinf
    rcases nan_or_infinite_or_finite y with hnan' | ⟨hnan', hinf'⟩ | hfin'
    · exact atMost_of_isNaN (isNaN_add (.inr hnan'))
    · have hneg' := hy.negative_of_isInfinite hb hnan' hinf'
      have heq : x + y = x := by
        show Binary64.add x y = x
        unfold Binary64.add
        rw [hnan, hnan', hinf, hinf', hneg, hneg']
        rfl
      rw [heq]
      exact atMost_of_negInfinity hneg hinf hsum
    · rw [add_of_isInfinite hnan hinf hfin']
      exact atMost_of_negInfinity hneg hinf hsum
  · rcases nan_or_infinite_or_finite y with hnan' | ⟨hnan', hinf'⟩ | hfin'
    · exact atMost_of_isNaN (isNaN_add (.inr hnan'))
    · have hneg' := hy.negative_of_isInfinite hb hnan' hinf'
      have heq : x + y = y := by
        show Binary64.add x y = y
        unfold Binary64.add
        rw [isNaN_of_isFinite hfin, hnan', isInfinite_of_isFinite hfin, hinf']
        rfl
      rw [heq]
      exact atMost_of_negInfinity hneg' hinf' hsum
    · intro _
      rw [add_of_isFinite hfin hfin', add_of_isFinite ha hb]
      apply rank_ofUnits_mono
      exact Int.add_le_add (units_mono (hx (isNaN_of_isFinite hfin)))
        (units_mono (hy (isNaN_of_isFinite hfin')))

/-- What is taken from a lesser number leaves no more. -/
theorem AtMost.sub (hx : x.AtMost a) (ha : a.isFinite = true)
    (hb : b.isFinite = true) : (x - b).AtMost (a - b) := by
  cases hnan : x.isNaN with
  | true => exact atMost_of_isNaN (isNaN_sub (.inl hnan))
  | false =>
    have hneg : (-b).isFinite = true := hb
    rw [sub_eq_add_neg hnan (isNaN_of_isFinite hb),
      sub_eq_add_neg (isNaN_of_isFinite ha) (isNaN_of_isFinite hb)]
    exact hx.add (AtMost.refl (-b)) ha hneg

/-- Taking away what is not negative adds nothing. -/
theorem sub_atMost (ha : a.isFinite = true)
    (hy : y.isNaN = true ∨ y.negative = false) :
    (a - y).AtMost (a + 0) := by
  cases hnan : y.isNaN with
  | true => exact atMost_of_isNaN (isNaN_sub (.inr hnan))
  | false =>
    have hsign : (-y).negative = true := by
      rw [hnan] at hy
      exact congrArg not (hy.resolve_left Bool.false_ne_true)
    rw [sub_eq_add_neg (isNaN_of_isFinite ha) hnan]
    refine (AtMost.refl a).add ?_ ha isFinite_zero
    intro _
    rw [rank_of_negative hsign, zero_eq]
    exact Int.neg_nonpos_of_nonneg (Int.natCast_nonneg _)

/-- A product of what is at most `a` with a weight. -/
theorem AtMost.mul (hx : x.AtMost a) (ha : a.isFinite = true)
    (ha' : a.negative = false) (hw : w.isFinite = true)
    (hw' : w.negative = false) : (x * w).AtMost (a * w) := by
  have hrank : (a * w).rank
      = nearest (span a.magnitude * span w.magnitude) (twoPow 1074) := by
    rw [mul_of_isFinite ha hw, ha', hw']
    rfl
  intro hnan
  rw [hrank]
  cases hneg : x.negative with
  | true =>
    -- a negative factor gives a negative product, or none
    have hsign : (x * w).negative = true ∨ (x * w).isNaN = true := by
      show (Binary64.mul x w).negative = true ∨ (Binary64.mul x w).isNaN = true
      unfold Binary64.mul
      split
      · next h => exact .inr h
      · split
        · next h => exact .inr h
        · dsimp only
          rw [hneg, hw']
          split
          · split
            · exact .inr isNaN_indefinite
            · exact .inl rfl
          · exact .inl rfl
    rcases hsign with hsign | hsign
    · rw [rank_of_negative hsign]
      omega
    · rw [hsign] at hnan
      cases hnan
  | false =>
    rcases nan_or_infinite_or_finite x with hx' | ⟨hx', hinf⟩ | hfin
    · rw [isNaN_mul hx'] at hnan
      cases hnan
    · rw [hx.negative_of_isInfinite ha hx' hinf] at hneg
      cases hneg
    · have hle := hx (isNaN_of_isFinite hfin)
      rw [rank_of_nonneg hneg, rank_of_nonneg ha'] at hle
      rw [mul_of_isFinite hfin hw, hneg, hw']
      apply Int.ofNat_le.2
      apply nearest_mono
      exact Nat.mul_le_mul_right _ (span_mono (Int.ofNat_le.1 hle))

/-- What is at most 1 does not add to a weight. -/
theorem AtMost.mul_weight (hx : x.AtMost 1) (hw : w.isFinite = true)
    (hw' : w.negative = false) : (x * w).AtMost w := by
  have h := hx.mul isFinite_one rfl hw hw'
  rw [one_mul_of_isFinite hw] at h
  exact h

/-- A quotient of what is at most `a` by a weight. -/
theorem AtMost.div (hx : x.AtMost a) (ha : a.isFinite = true)
    (ha' : a.negative = false) (hw : w.isFinite = true)
    (hw' : w.negative = false) (hzero : w.magnitude ≠ 0) :
    (x / w).AtMost (a / w) := by
  have hrank : (a / w).rank
      = nearest (span a.magnitude * twoPow 1074) (span w.magnitude) := by
    rw [div_of_isFinite ha hw hzero, ha', hw']
    rfl
  intro hnan
  rw [hrank]
  cases hneg : x.negative with
  | true =>
    have hsign : (x / w).negative = true ∨ (x / w).isNaN = true := by
      show (Binary64.div x w).negative = true ∨ (Binary64.div x w).isNaN = true
      unfold Binary64.div
      rw [isNaN_of_isFinite hw, isInfinite_of_isFinite hw,
        isZero_eq_false_iff.2 hzero, hneg, hw']
      split
      · next h => exact .inr h
      · split
        · next h => cases h
        · dsimp only
          split
          · exact .inl rfl
          · exact .inl rfl
    rcases hsign with hsign | hsign
    · rw [rank_of_negative hsign]
      omega
    · rw [hsign] at hnan
      cases hnan
  | false =>
    rcases nan_or_infinite_or_finite x with hx' | ⟨hx', hinf⟩ | hfin
    · rw [isNaN_div hx'] at hnan
      cases hnan
    · rw [hx.negative_of_isInfinite ha hx' hinf] at hneg
      cases hneg
    · have hle := hx (isNaN_of_isFinite hfin)
      rw [rank_of_nonneg hneg, rank_of_nonneg ha'] at hle
      rw [div_of_isFinite hfin hw hzero, hneg, hw']
      apply Int.ofNat_le.2
      apply nearest_mono
      exact Nat.mul_le_mul_right _ (span_mono (Int.ofNat_le.1 hle))

theorem AtMost.max (hx : x.AtMost b) (hy : y.AtMost b) :
    (max x y).AtMost b := by
  show (Binary64.max x y).AtMost b
  unfold Binary64.max
  split
  · exact hy
  · split
    · exact hx
    · split
      · exact hy
      · exact hx

theorem max_eq_of_atMost (h : y.AtMost x) (hx : x.isNaN = false) :
    max x y = x := by
  show Binary64.max x y = x
  unfold Binary64.max
  rw [hx, if_neg Bool.false_ne_true, if_neg h.not_lt, ite_self]

/-- What is at most a finite number and has no sign is finite. -/
theorem AtMost.isFinite (h : x.AtMost b) (hb : b.isFinite = true)
    (hx : x.isNaN = false) (hsign : x.negative = false) :
    x.isFinite = true := by
  cases hinf : x.isInfinite with
  | true =>
    rw [h.negative_of_isInfinite hb hx hinf] at hsign
    cases hsign
  | false => exact isFinite_of hx hinf

theorem zero_atMost (h : x.negative = false) : (0 : Binary64).AtMost x := by
  intro _
  rw [zero_eq, rank_of_nonneg h]
  exact Int.natCast_nonneg _

-- ============================================================== counts

theorem isNaN_ofNat (n : Nat) : (ofNat n).isNaN = false :=
  isNaN_of_le (nearest_le _ _)

theorem negative_ofNat (n : Nat) : (ofNat n).negative = false := rfl

theorem ofNat_atMost (h : m ≤ n) : (ofNat m).AtMost (ofNat n) := by
  intro _
  rw [rank_of_nonneg (negative_ofNat m), rank_of_nonneg (negative_ofNat n)]
  exact Int.ofNat_le.2 (nearest_mono (Nat.mul_le_mul_right _ h))

theorem magnitude_ofNat_ne_zero (h : 0 < n) : (ofNat n).magnitude ≠ 0 := by
  have hle := ofNat_atMost (m := 1) h (isNaN_ofNat 1)
  rw [rank_of_nonneg (negative_ofNat 1), rank_of_nonneg (negative_ofNat n)]
    at hle
  have hone : (ofNat 1).magnitude = 1023 * twoPow 52 := magnitude_one
  have hpos := twoPow_pos 52
  omega

/-- The counts that a machine word holds are finite doubles. -/
theorem isFinite_ofNat (h : n < twoPow 64) : (ofNat n).isFinite = true := by
  have hle := ofNat_atMost (Nat.le_of_lt h) (isNaN_ofNat n)
  rw [rank_of_nonneg (negative_ofNat n), rank_of_nonneg (negative_ofNat _)]
    at hle
  have hfin : (ofNat (twoPow 64)).magnitude < infinityMagnitude := by
    decide +kernel
  rw [isFinite_iff]
  omega

/-- A share of nothing is nothing. -/
theorem zero_div_ofNat (h : 0 < n) : ofNat 0 / ofNat n = 0 := by
  rw [show ofNat 0 = ⟨false, 0⟩ from zero_eq, zero_eq]
  rcases nan_or_infinite_or_finite (ofNat n) with hnan | ⟨hnan, hinf⟩ | hfin
  · rw [isNaN_ofNat] at hnan
    cases hnan
  · show Binary64.div ⟨false, 0⟩ (ofNat n) = ⟨false, 0⟩
    unfold Binary64.div
    rw [hnan, hinf]
    rfl
  · have hzero := magnitude_ofNat_ne_zero h
    have hspan : span 0 = 0 := rfl
    rw [div_of_isFinite (by decide) hfin hzero]
    dsimp only
    rw [hspan, Nat.zero_mul, nearest_zero (span_pos hzero)]
    rfl

/-- A quotient of counts has no sign, unless it has no value. -/
theorem div_ofNat_sign (m n : Nat) :
    (ofNat m / ofNat n).isNaN = true
      ∨ (ofNat m / ofNat n).negative = false := by
  show (Binary64.div (ofNat m) (ofNat n)).isNaN = true
    ∨ (Binary64.div (ofNat m) (ofNat n)).negative = false
  unfold Binary64.div
  rw [isNaN_ofNat, isNaN_ofNat]
  rw [if_neg Bool.false_ne_true, if_neg Bool.false_ne_true]
  dsimp only
  split
  · split
    · exact .inl isNaN_indefinite
    · exact .inr rfl
  · split
    · exact .inr rfl
    · split
      · split
        · exact .inl isNaN_indefinite
        · exact .inr rfl
      · exact .inr rfl

/-- A part is at most the whole. -/
theorem div_ofNat_atMost (h : m ≤ n) : (ofNat m / ofNat n).AtMost 1 := by
  rcases nan_or_infinite_or_finite (ofNat n) with hnan | ⟨hnan, hinf⟩ | hfin
  · rw [isNaN_ofNat] at hnan
    cases hnan
  · intro hnot
    -- an infinite whole has parts of no size, or of none that is known
    have hcases : (ofNat m / ofNat n).isNaN = true
        ∨ ofNat m / ofNat n = ⟨false, 0⟩ := by
      show (Binary64.div (ofNat m) (ofNat n)).isNaN = true
        ∨ Binary64.div (ofNat m) (ofNat n) = _
      unfold Binary64.div
      rw [isNaN_ofNat, hnan, hinf]
      rw [if_neg Bool.false_ne_true, if_neg Bool.false_ne_true]
      dsimp only
      split
      · exact .inl isNaN_indefinite
      · exact .inr rfl
    rcases hcases with hcase | hcase
    · rw [hcase] at hnot
      cases hnot
    · rw [hcase, ← zero_eq]
      exact ofNat_atMost (Nat.zero_le 1) (isNaN_ofNat 0)
  · by_cases hzero : n = 0
    · have hm : m = 0 := by omega
      subst hzero
      subst hm
      exact atMost_of_isNaN (by decide +kernel)
    · have hmag := magnitude_ofNat_ne_zero (Nat.pos_of_ne_zero hzero)
      have hle := (ofNat_atMost h).div hfin (negative_ofNat n) hfin
        (negative_ofNat n) hmag
      rw [div_self_of_isFinite hfin hmag] at hle
      exact hle

-- ============================================================== tenths

/-- A literal with one decimal is rounded once. -/
theorem tenths_eq (m : Nat) :
    (OfScientific.ofScientific m true 1 : Binary64)
      = ⟨false, nearest (m * twoPow 1074) (10 * 1)⟩ := by
  show (⟨false, Decimal.magnitude ⟨m, Int.negSucc 0⟩⟩ : Binary64) = _
  unfold Decimal.magnitude
  dsimp only
  split
  · next hzero => rw [hzero, Nat.zero_mul, nearest_zero (by decide)]
  · rw [if_neg (Nat.not_lt_zero _)]
    rfl

/-- A decimal is at most infinite. -/
theorem magnitude_decimal_le (d : Decimal) :
    d.magnitude ≤ infinityMagnitude := by
  unfold Decimal.magnitude
  split
  · exact Nat.zero_le _
  · split
    · split
      · exact Nat.le_refl _
      · exact nearest_le _ _
    · split
      · exact Nat.zero_le _
      · exact nearest_le _ _

/-- Every decimal literal is a number. -/
theorem isNaN_ofScientific (m : Nat) (s : Bool) (e : Nat) :
    (OfScientific.ofScientific m s e : Binary64).isNaN = false :=
  isNaN_of_le (magnitude_decimal_le _)

theorem isNaN_tenths (m : Nat) :
    (OfScientific.ofScientific m true 1 : Binary64).isNaN = false :=
  isNaN_ofScientific m true 1

theorem tenths_atMost (h : m ≤ n) :
    (OfScientific.ofScientific m true 1 : Binary64).AtMost
      (OfScientific.ofScientific n true 1) := by
  intro _
  rw [tenths_eq, tenths_eq]
  exact Int.ofNat_le.2 (nearest_mono (Nat.mul_le_mul_right _ h))

theorem ten_tenths (n : Nat) :
    (OfScientific.ofScientific (10 * n) true 1 : Binary64) = ofNat n := by
  rw [tenths_eq, Nat.mul_assoc, nearest_scale (by decide)]
  rfl

theorem tenths_atMost_ofNat (h : m ≤ 10 * n) :
    (OfScientific.ofScientific m true 1 : Binary64).AtMost (ofNat n) := by
  rw [← ten_tenths]
  exact tenths_atMost h

theorem isFinite_tenths (h : m < twoPow 64) :
    (OfScientific.ofScientific m true 1 : Binary64).isFinite = true := by
  have hbound := tenths_atMost_ofNat (Nat.le_mul_of_pos_left m (by decide))
  exact hbound.isFinite (isFinite_ofNat h) (isNaN_tenths m) rfl

end SymbolMatch.Binary64

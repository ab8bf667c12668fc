/-
Numbers that are not below zero, and among them the shares: the numbers
from 0 to 1 that scores are put together from.

A bound in the sense of `AtMost` says nothing of a NaN. Here NaN is ruled
out: sums, products and quotients of finite numbers that are not below
zero are numbers again, and not below zero. The negative zero is one of
them, since the sum of no terms is a negative zero, so the sign does not
tell and the place in the order does.

# Long sums

A sum has as many terms as there are counts, and no limit is set on how
many that is. None is needed: far above its terms a sum no longer grows,
because the next term is rounded away (`sum_of_words`).

# Exact counts

A count of at most 53 bits is a double as it stands (`units_ofNat`), and
a part of such a count is too large a share to be rounded to nothing
(`zero_lt_ratio`).
-/
import SymbolMatch.Proofs.Number.Bounds

namespace SymbolMatch.Binary64

variable {b x y : Binary64} {m n : Nat}

-- ======================================================== not below zero

theorem zero_le_iff : 0 ≤ x ↔ x.isNaN = false ∧ 0 ≤ x.rank := by
  have hrank : (0 : Binary64).rank = 0 := by
    rw [zero_eq]
    rfl
  rw [le_def, hrank]
  exact and_iff_right isNaN_zero

theorem nonneg_of_rank_pos (h : 0 < x.rank) : x.negative = false := by
  rw [← Bool.not_eq_true]
  intro hneg
  rw [rank_of_negative hneg] at h
  omega

theorem zero_le_of_nonneg (hnan : x.isNaN = false) (h : x.negative = false) :
    0 ≤ x := by
  rw [zero_le_iff, rank_of_nonneg h]
  exact ⟨hnan, Int.natCast_nonneg _⟩

theorem zero_le_ofNat (n : Nat) : 0 ≤ ofNat n :=
  zero_le_of_nonneg (isNaN_ofNat n) (negative_ofNat n)

/-- What has a sign and is not below zero is the negative zero. -/
theorem magnitude_of_negative (h : 0 ≤ x) (hneg : x.negative = true) :
    x.magnitude = 0 := by
  have hrank := (zero_le_iff.1 h).2
  rw [rank_of_negative hneg] at hrank
  omega

/-- What is above zero has no sign. -/
theorem nonneg_of_ne_zero (hx : 0 ≤ x) (hzero : x.magnitude ≠ 0) :
    x.negative = false := by
  rw [← Bool.not_eq_true]
  exact fun hneg => hzero (magnitude_of_negative hx hneg)

/-- What is not below zero is read off without its sign. -/
theorem units_of_zero_le (hx : 0 ≤ x) : x.units = span x.magnitude := by
  cases hneg : x.negative with
  | false => exact units_of_nonneg hneg
  | true =>
    rw [units_of_negative hneg, magnitude_of_negative hx hneg]
    rfl

/-- A number whose sign, if it has one, is that of a zero. -/
theorem zero_le_mk {s : Bool} {k : Nat} (hk : k ≤ infinityMagnitude)
    (h : s = true → k = 0) : (0 : Binary64) ≤ ⟨s, k⟩ := by
  rw [zero_le_iff]
  refine ⟨isNaN_of_le hk, ?_⟩
  cases s with
  | false => exact Int.natCast_nonneg k
  | true =>
    rw [h rfl]
    decide

theorem isFinite_of_zero_le (h : 0 ≤ x) (hx : x.AtMost b)
    (hb : b.isFinite = true) : x.isFinite = true := by
  apply isFinite_of (zero_le_iff.1 h).1
  by_contra hinf
  rw [Bool.not_eq_false] at hinf
  have hneg := hx.negative_of_isInfinite hb (zero_le_iff.1 h).1 hinf
  have hzero := magnitude_of_negative h hneg
  rw [isInfinite_iff.1 hinf] at hzero
  exact absurd hzero (by decide)

/-- A difference of finite numbers is a number. -/
theorem isNaN_sub_of_isFinite (hx : x.isFinite = true)
    (hy : y.isFinite = true) : (x - y).isNaN = false := by
  have hneg : (-y).isFinite = true := hy
  rw [sub_eq_add_neg (isNaN_of_isFinite hx) (isNaN_of_isFinite hy),
    add_of_isFinite hx hneg]
  exact isNaN_ofUnits _ _

theorem rank_neg (x : Binary64) : (-x).rank = -x.rank := by
  show (Binary64.neg x).rank = -x.rank
  unfold Binary64.neg rank
  cases x.negative with
  | false => rfl
  | true => exact (Int.neg_neg _).symm

/-- Taking away more leaves less. -/
theorem sub_atMost_sub {z : Binary64} (hx : x.isFinite = true)
    (hy : y.isFinite = true) (hz : z.isFinite = true)
    (h : y.rank ≤ z.rank) : (x - z).AtMost (x - y) := by
  have hneg : (-y).isFinite = true := hy
  have hflip : (-z).rank ≤ (-y).rank := by
    rw [rank_neg, rank_neg]
    omega
  rw [sub_eq_add_neg (isNaN_of_isFinite hx) (isNaN_of_isFinite hz),
    sub_eq_add_neg (isNaN_of_isFinite hx) (isNaN_of_isFinite hy)]
  exact (AtMost.refl x).add (fun _ => hflip) hx hneg

theorem zero_le_add (hx : x.isFinite = true) (hy : y.isFinite = true)
    (hx' : 0 ≤ x) (hy' : 0 ≤ y) : 0 ≤ x + y := by
  have hunits {z : Binary64} (h : 0 ≤ z) : 0 ≤ z.units := by
    have hmono := units_mono h.2.2
    rw [zero_eq] at hmono
    exact hmono
  have hsum : ¬x.units + y.units < 0 := by
    have := hunits hx'
    have := hunits hy'
    omega
  rw [add_of_isFinite hx hy, zero_le_iff, rank_ofUnits, if_neg hsum]
  exact ⟨isNaN_ofUnits _ _, Int.natCast_nonneg _⟩

theorem zero_le_mul (hx : x.isFinite = true) (hy : y.isFinite = true)
    (hx' : 0 ≤ x) (hy' : 0 ≤ y) : 0 ≤ x * y := by
  have hspan : span 0 = 0 := rfl
  rw [mul_of_isFinite hx hy]
  apply zero_le_mk (nearest_le _ _)
  intro hsign
  have hproduct : span x.magnitude * span y.magnitude = 0 := by
    cases hneg : x.negative with
    | true => rw [magnitude_of_negative hx' hneg, hspan, Nat.zero_mul]
    | false =>
      rw [hneg, Bool.false_bne] at hsign
      rw [magnitude_of_negative hy' hsign, hspan, Nat.mul_zero]
  rw [hproduct, nearest_zero (twoPow_pos 1074)]

/-- A finite part of something infinite is nothing. -/
theorem div_of_isInfinite (hx : x.isFinite = true) (hy : y.isNaN = false)
    (hinf : y.isInfinite = true) :
    x / y = ⟨x.negative != y.negative, 0⟩ := by
  show Binary64.div x y = _
  unfold Binary64.div
  rw [isNaN_of_isFinite hx, isInfinite_of_isFinite hx, hy, hinf]
  rfl

/-- A quotient by a number above zero, which need not be finite. -/
theorem zero_le_div (hx : x.isFinite = true) (hx' : 0 ≤ x) (hy : 0 ≤ y)
    (hzero : y.magnitude ≠ 0) : 0 ≤ x / y := by
  have hsign := nonneg_of_ne_zero hy hzero
  cases hinf : y.isInfinite with
  | true =>
    rw [div_of_isInfinite hx (zero_le_iff.1 hy).1 hinf]
    exact zero_le_mk (Nat.zero_le _) fun _ => rfl
  | false =>
    have hfin := isFinite_of (zero_le_iff.1 hy).1 hinf
    rw [div_of_isFinite hx hfin hzero, hsign, Bool.bne_false]
    apply zero_le_mk (nearest_le _ _)
    intro hneg
    have hspan : span 0 = 0 := rfl
    rw [magnitude_of_negative hx' hneg, hspan, Nat.zero_mul,
      nearest_zero (span_pos hzero)]

-- ============================================================= products

/-- Greater factors make a greater product. -/
theorem ofNat_mul_ofNat_atMost {k l : Nat} (hm : m ≤ k) (hn : n ≤ l)
    (hk : (ofNat k).isFinite = true) (hl : (ofNat l).isFinite = true) :
    (ofNat m * ofNat n).AtMost (ofNat k * ofNat l) := by
  have hmag {i j : Nat} (h : i ≤ j) :
      (ofNat i).magnitude ≤ (ofNat j).magnitude :=
    nearest_mono (Nat.mul_le_mul_right _ h)
  have hfinite {i j : Nat} (h : i ≤ j) (hj : (ofNat j).isFinite = true) :
      (ofNat i).isFinite = true :=
    isFinite_iff.2 (Nat.lt_of_le_of_lt (hmag h) (isFinite_iff.1 hj))
  intro _
  rw [mul_of_isFinite (hfinite hm hk) (hfinite hn hl), mul_of_isFinite hk hl]
  apply Int.ofNat_le.2
  apply nearest_mono
  exact Nat.mul_le_mul (span_mono (hmag hm)) (span_mono (hmag hn))

/-- Where a sum of products of words stands still. -/
theorem standstill :
    (ofNat (twoPow 64)).isFinite = true
      ∧ (ofNat (twoPow 64) * ofNat (twoPow 64)).isFinite = true
      ∧ (ofNat (twoPow 300)).isFinite = true
      ∧ ofNat (twoPow 300) + ofNat (twoPow 64) * ofNat (twoPow 64)
        = ofNat (twoPow 300) := by decide +kernel

/-- A sum of products of words is finite, whatever the number of its
terms. -/
theorem sum_of_words {xs : List Binary64}
    (hxs : ∀ x ∈ xs, ∃ m n, m < twoPow 64 ∧ n < twoPow 64
      ∧ x = ofNat m * ofNat n) :
    0 ≤ sum xs ∧ (sum xs).isFinite = true := by
  obtain ⟨hword, hproduct, htop, hstill⟩ := standstill
  have key (s : Binary64) (hs : 0 ≤ s) (hbound : s.AtMost (ofNat (twoPow 300))) :
      0 ≤ xs.foldl (· + ·) s
        ∧ (xs.foldl (· + ·) s).AtMost (ofNat (twoPow 300)) := by
    induction xs generalizing s with
    | nil => exact ⟨hs, hbound⟩
    | cons x rest ih =>
      obtain ⟨m, n, hm, hn, rfl⟩ := hxs x List.mem_cons_self
      have hterm : (ofNat m * ofNat n).AtMost
          (ofNat (twoPow 64) * ofNat (twoPow 64)) :=
        ofNat_mul_ofNat_atMost (Nat.le_of_lt hm) (Nat.le_of_lt hn) hword hword
      have hterm' : 0 ≤ ofNat m * ofNat n :=
        zero_le_mul (isFinite_ofNat hm) (isFinite_ofNat hn) (zero_le_ofNat m)
          (zero_le_ofNat n)
      have hnext := hbound.add hterm htop hproduct
      rw [hstill] at hnext
      exact ih (fun y hy => hxs y (List.mem_cons_of_mem _ hy)) _
        (zero_le_add (isFinite_of_zero_le hs hbound htop)
          (isFinite_of_zero_le hterm' hterm hproduct) hs hterm') hnext
  have hstart : 0 ≤ negZero := zero_le_mk (Nat.zero_le _) fun _ => rfl
  have hstart' : negZero.AtMost (ofNat (twoPow 300)) := by
    intro _
    rw [rank_of_nonneg (negative_ofNat _)]
    exact Int.natCast_nonneg _
  obtain ⟨hsum, hbound⟩ := key negZero hstart hstart'
  exact ⟨hsum, isFinite_of_zero_le hsum hbound htop⟩

-- =============================================================== shares

/-- A number from 0 to 1. -/
def IsShare (x : Binary64) : Prop := 0 ≤ x ∧ x ≤ 1

theorem isShare_of_atMost (h : 0 ≤ x) (hx : x.AtMost 1) : x.IsShare :=
  ⟨h, hx.le (zero_le_iff.1 h).1 (isNaN_ofNat 1)⟩

theorem isShare_zero : (0 : Binary64).IsShare :=
  isShare_of_atMost (zero_le_ofNat 0) (ofNat_atMost (Nat.zero_le 1))

theorem isShare_one : (1 : Binary64).IsShare :=
  isShare_of_atMost (zero_le_ofNat 1) (AtMost.refl 1)

theorem isShare_tenths (h : m ≤ 10) :
    (OfScientific.ofScientific m true 1 : Binary64).IsShare :=
  isShare_of_atMost (zero_le_of_nonneg (isNaN_tenths m) rfl)
    (tenths_atMost_ofNat h)

/-- What is moved between 0 and 1 is a share, if it is a number. -/
theorem isShare_clamp (h : x.isNaN = false) : (x.clamp 0 1).IsShare := by
  unfold clamp
  split
  · exact isShare_zero
  · next hlow =>
    split
    · exact isShare_one
    · next hhigh =>
      exact ⟨(atMost_of_not_lt h hlow).le isNaN_zero h,
        (atMost_of_not_lt (isNaN_ofNat 1) hhigh).le h (isNaN_ofNat 1)⟩

/-- A part of a whole. The whole may be more than a double holds. -/
theorem isShare_ratio (hm : m < twoPow 64) (hn : 0 < n) (h : m ≤ n) :
    (ofNat m / ofNat n).IsShare :=
  isShare_of_atMost
    (zero_le_div (isFinite_ofNat hm) (zero_le_ofNat m) (zero_le_ofNat n)
      (magnitude_ofNat_ne_zero hn))
    (div_ofNat_atMost h)

/-- A part of a weight, as a share of it. -/
theorem isShare_div_of_atMost {w : Binary64} (h : 0 ≤ x) (hx : x.AtMost w)
    (hw : w.isFinite = true) (hw' : w.negative = false)
    (hzero : w.magnitude ≠ 0) : (x / w).IsShare := by
  have hle := hx.div hw hw' hw hw' hzero
  rw [div_self_of_isFinite hw hzero] at hle
  exact isShare_of_atMost
    (zero_le_div (isFinite_of_zero_le h hx hw) h
      (zero_le_of_nonneg (isNaN_of_isFinite hw) hw') hzero) hle

/-- One part of what is no less than one. -/
theorem isShare_one_div (hx : x.isNaN = false) (h : (1 : Binary64).AtMost x) :
    (1 / x).IsShare := by
  have hrank : 0 < x.rank := by
    have hle := h (isNaN_ofNat 1)
    have hone : 0 < (1 : Binary64).rank := by
      rw [rank_of_nonneg rfl]
      exact Int.natCast_pos.2 (Nat.pos_of_ne_zero
        (magnitude_ofNat_ne_zero Nat.one_pos))
    omega
  have hsign := nonneg_of_rank_pos hrank
  rw [rank_of_nonneg hsign] at hrank
  cases hinf : x.isInfinite with
  | true =>
    have hnone : 1 / x = 0 := by
      rw [div_of_isInfinite isFinite_one hx hinf, hsign, zero_eq]
      rfl
    rw [hnone]
    exact isShare_zero
  | false =>
    exact isShare_div_of_atMost (zero_le_ofNat 1) h (isFinite_of hx hinf) hsign
      (by omega)

/-- One less nothing, and one more. -/
theorem unit_arithmetic :
    (1 - 0 : Binary64) = 1 ∧ (1 + 1 : Binary64) = 2 := by decide +kernel

namespace IsShare

theorem atMost (h : x.IsShare) : x.AtMost 1 := fun _ => h.2.2.2

theorem isFinite (h : x.IsShare) : x.isFinite = true :=
  isFinite_of_zero_le h.1 h.atMost isFinite_one

theorem max (hx : x.IsShare) (hy : y.IsShare) : (max x y).IsShare := by
  rcases max_eq_or_eq x y with h | h
  · rw [h]
    exact hx
  · rw [h]
    exact hy

/-- What is left of a whole. The whole taken away leaves nothing, and
nothing taken away leaves the whole. -/
theorem one_sub (h : x.IsShare) : (1 - x).IsShare := by
  have hlow := sub_atMost_sub isFinite_one h.isFinite isFinite_one h.2.2.2
  have hhigh := sub_atMost_sub isFinite_one isFinite_zero h.isFinite h.1.2.2
  rw [sub_self_of_isFinite isFinite_one] at hlow
  rw [unit_arithmetic.1] at hhigh
  exact isShare_of_atMost
    (hlow.le isNaN_zero (isNaN_sub_of_isFinite isFinite_one h.isFinite)) hhigh

/-- The mean of two shares. -/
theorem half (hx : x.IsShare) (hy : y.IsShare) : ((x + y) / 2).IsShare := by
  have hbound := hx.atMost.add hy.atMost isFinite_one isFinite_one
  rw [unit_arithmetic.2] at hbound
  exact isShare_div_of_atMost
    (zero_le_add hx.isFinite hy.isFinite hx.1 hy.1) hbound
    (isFinite_ofNat (by decide)) rfl (magnitude_ofNat_ne_zero (by decide))

/-- A share of a weight. -/
theorem zero_le_mul_weight {w : Binary64} (h : x.IsShare)
    (hw : w.isFinite = true) (hw' : w.negative = false) : 0 ≤ x * w :=
  zero_le_mul h.isFinite hw h.1
    (zero_le_of_nonneg (isNaN_of_isFinite hw) hw')

end IsShare

-- ========================================================= exact counts

/-- A whole number of at most 53 bits, shifted up to 53 of them. -/
theorem exists_binade {top : Nat} (htop : 52 ≤ top) (hzero : n ≠ 0)
    (h : n < twoPow 53) :
    ∃ e s, e ≤ top ∧ twoPow 52 ≤ s ∧ s < twoPow 53
      ∧ n * twoPow top = s * twoPow e := by
  have hlow : twoPow n.log2 ≤ n := Nat.log2_self_le hzero
  have hhigh : n < twoPow (n.log2 + 1) := Nat.lt_log2_self
  have hlog : n.log2 ≤ 52 := by
    by_contra hnot
    have hle : twoPow 53 ≤ twoPow n.log2 := twoPow_le (by omega)
    omega
  -- the bits that the number lacks
  obtain ⟨k, hk⟩ := Nat.exists_eq_add_of_le hlog
  refine ⟨top - k, n * twoPow k, by omega, ?_, ?_, ?_⟩
  · rw [hk, twoPow_add]
    exact Nat.mul_le_mul_right _ hlow
  · rw [show 53 = n.log2 + 1 + k by omega, twoPow_add]
    exact Nat.mul_lt_mul_of_pos_right hhigh (twoPow_pos k)
  · rw [Nat.mul_assoc, ← twoPow_add, Nat.add_sub_cancel' (by omega)]

/-- A multiple of a power of two that has at most 53 bits is held
exactly. -/
theorem span_nearest {top : Nat} (htop : 52 ≤ top) (htop' : top ≤ 1074)
    (h : n < twoPow 53) :
    span (nearest (n * twoPow top) 1) = n * twoPow top := by
  by_cases hzero : n = 0
  · rw [hzero, Nat.zero_mul, nearest_zero Nat.one_pos]
    rfl
  · obtain ⟨e, s, he, hlow, hhigh, heq⟩ := exists_binade htop hzero h
    have hle : e * twoPow 52 + s ≤ infinityMagnitude := by
      have hstep : e * twoPow 52 ≤ 1074 * twoPow 52 :=
        Nat.mul_le_mul_right _ (Nat.le_trans he htop')
      have hmax : 1074 * twoPow 52 + twoPow 53 ≤ infinityMagnitude := by
        decide
      omega
    rw [heq, ← span_binade hlow hhigh, nearest_span hle]

/-- Counts below 2⁵³ are held exactly. -/
theorem span_ofNat (h : n < twoPow 53) :
    span (ofNat n).magnitude = n * twoPow 1074 :=
  span_nearest (by decide) (Nat.le_refl _) h

theorem units_ofNat (h : n < twoPow 53) :
    (ofNat n).units = (n * twoPow 1074 : Nat) := by
  rw [← span_ofNat h]
  rfl

/-- A part of a whole that is held exactly is not lost by rounding. -/
theorem zero_lt_ratio (hm : 0 < m) (h : m ≤ n) (hn : n < twoPow 53) :
    0 < ofNat m / ofNat n := by
  have hword : twoPow 53 < twoPow 64 := by decide
  have hratio : (ofNat m / ofNat n)
      = ⟨false, nearest (m * twoPow 1074) n⟩ := by
    rw [div_of_isFinite (isFinite_ofNat (by omega))
      (isFinite_ofNat (by omega)) (magnitude_ofNat_ne_zero (by omega)),
      span_ofNat hn, span_ofNat (by omega), Nat.mul_comm (m * _),
      Nat.mul_comm n, nearest_scale (twoPow_pos 1074)]
    rfl
  have hone : nearest n n = nearest 1 1 := by
    have hscale := nearest_scale (c := n) (by omega) 1 1
    rw [Nat.mul_one] at hscale
    exact hscale
  have hle : nearest n n ≤ nearest (m * twoPow 1074) n := by
    apply nearest_mono
    calc n ≤ twoPow 53 := Nat.le_of_lt hn
      _ ≤ twoPow 1074 := twoPow_le (by decide)
      _ ≤ m * twoPow 1074 := Nat.le_mul_of_pos_left _ hm
  have hpos := nearest_ne_zero (n := 1) (by decide)
  have hnumber := (zero_le_iff.1
    (isShare_ratio (by omega) (by omega) h).1).1
  refine ⟨isNaN_zero, hnumber, ?_⟩
  rw [hratio, zero_eq, rank_of_nonneg rfl, rank_of_nonneg rfl]
  dsimp only
  omega

end SymbolMatch.Binary64

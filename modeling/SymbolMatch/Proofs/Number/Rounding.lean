/-
How rounding treats order and scale. Every operation on doubles works on
whole numbers and rounds once, by `nearest`, so what an operation keeps
is what `nearest` keeps:

- `nearest_mono`: a greater number does not get a lesser magnitude;
- `nearest_scale`: only the ratio of the two arguments counts, and a
  greater ratio does not get a lesser magnitude (`nearest_le_nearest`);
- `nearest_span`: what a magnitude stands for is rounded to it.

The first is a matter of binades. Within one, the step is the same and
whole numbers are rounded in order; from one to the next the leading bit
decides (`halfEven_le_binade`, `binade_le_halfEven`).
-/
import Mathlib.Data.Nat.Log
import SymbolMatch.Number.Arithmetic

namespace SymbolMatch

theorem twoPow_pos (n : Nat) : 0 < twoPow n := Nat.two_pow_pos n

theorem twoPow_add (m n : Nat) : twoPow (m + n) = twoPow m * twoPow n :=
  Nat.pow_add 2 m n

theorem twoPow_le {m n : Nat} (h : m ≤ n) : twoPow m ≤ twoPow n :=
  Nat.pow_le_pow_right (by decide) h

namespace Binary64

variable {m n d : Nat}

-- ====================================================== whole numbers

theorem div_le_halfEven (n d : Nat) : n / d ≤ halfEven n d := by
  unfold halfEven
  dsimp only
  split
  · omega
  · split
    · omega
    · omega

theorem halfEven_le_div (n d : Nat) : halfEven n d ≤ n / d + 1 := by
  unfold halfEven
  dsimp only
  split
  · omega
  · split
    · omega
    · omega

/-- A whole number is rounded to itself. -/
theorem halfEven_mul (hd : 0 < d) (n : Nat) : halfEven (n * d) d = n := by
  unfold halfEven
  dsimp only
  rw [Nat.mul_mod_left, Nat.mul_div_cancel n hd, if_pos hd]

/-- Only the ratio counts. -/
theorem halfEven_scale {c : Nat} (hc : 0 < c) (n d : Nat) :
    halfEven (c * n) (c * d) = halfEven n d := by
  have hlow : 2 * (c * (n % d)) < c * d ↔ 2 * (n % d) < d := by
    rw [Nat.mul_left_comm]
    exact Nat.mul_lt_mul_left hc
  have hhigh : c * d < 2 * (c * (n % d)) ↔ d < 2 * (n % d) := by
    rw [Nat.mul_left_comm]
    exact Nat.mul_lt_mul_left hc
  unfold halfEven
  dsimp only
  rw [Nat.mul_div_mul_left n d hc, Nat.mul_mod_mul_left]
  simp only [hlow, hhigh]

theorem halfEven_mono (h : m ≤ n) :
    halfEven m d ≤ halfEven n d := by
  have hq : m / d ≤ n / d := Nat.div_le_div_right h
  by_cases heq : m / d = n / d
  · -- between the same whole numbers the remainders decide
    have hm := Nat.div_add_mod m d
    have hn := Nat.div_add_mod n d
    rw [heq] at hm
    have hr : m % d ≤ n % d := by omega
    unfold halfEven
    dsimp only
    rw [heq]
    by_cases hlow : 2 * (n % d) < d
    · rw [if_pos hlow, if_pos (by omega)]
    · by_cases hhigh : d < 2 * (n % d)
      · rw [if_neg hlow, if_pos hhigh]
        split
        · omega
        · split
          · omega
          · omega
      · -- a half on the right is at least a half on the left
        rw [if_neg hlow, if_neg hhigh]
        split
        · omega
        · rw [if_neg (by omega)]
  · have hlow := halfEven_le_div m d
    have hhigh := div_le_halfEven n d
    omega

-- ============================================================= binades

/-- How far the leading bit of `n / d` lies above bit 52. -/
def binade (n d : Nat) : Nat := (n / d).log2 - 52

theorem nearest_eq (n d : Nat) :
    nearest n d = min (binade n d * twoPow 52
      + halfEven n (d * twoPow (binade n d))) infinityMagnitude := rfl

theorem binade_mono (h : m ≤ n) : binade m d ≤ binade n d := by
  have hlog : (m / d).log2 ≤ (n / d).log2 := by
    rw [Nat.log2_eq_log_two, Nat.log2_eq_log_two]
    exact Nat.log_mono_right (Nat.div_le_div_right h)
  unfold binade
  omega

/-- Above its binade's step a number has at most 53 bits. -/
theorem halfEven_le_binade (n d : Nat) :
    halfEven n (d * twoPow (binade n d)) ≤ twoPow 53 := by
  have hlt : n / d < twoPow (53 + binade n d) := by
    refine Nat.lt_of_lt_of_le Nat.lt_log2_self (twoPow_le ?_)
    unfold binade
    omega
  rw [twoPow_add, Nat.mul_comm (twoPow 53)] at hlt
  have hdiv : n / (d * twoPow (binade n d)) < twoPow 53 := by
    rw [← Nat.div_div_eq_div_mul]
    exact Nat.div_lt_of_lt_mul hlt
  have hround := halfEven_le_div n (d * twoPow (binade n d))
  omega

/-- Above the lowest binade a number has at least 53 bits. -/
theorem binade_le_halfEven (h : 0 < binade n d) :
    twoPow 52 ≤ halfEven n (d * twoPow (binade n d)) := by
  have hne : n / d ≠ 0 := by
    intro hzero
    unfold binade at h
    rw [hzero] at h
    cases h
  have hle : twoPow (52 + binade n d) ≤ n / d := by
    have hlog : 52 + binade n d = (n / d).log2 := by
      unfold binade at h ⊢
      omega
    rw [hlog]
    exact Nat.log2_self_le hne
  rw [twoPow_add] at hle
  have hdiv : twoPow 52 ≤ n / (d * twoPow (binade n d)) := by
    rw [← Nat.div_div_eq_div_mul]
    exact (Nat.le_div_iff_mul_le (twoPow_pos _)).2 hle
  exact Nat.le_trans hdiv (div_le_halfEven _ _)

-- ============================================================ nearest

theorem nearest_le (n d : Nat) : nearest n d ≤ infinityMagnitude := by
  rw [nearest_eq]
  exact Nat.min_le_right _ _

/-- A greater number does not get a lesser magnitude. -/
theorem nearest_mono (h : m ≤ n) : nearest m d ≤ nearest n d := by
  have hb : binade m d ≤ binade n d := binade_mono h
  have hsum : binade m d * twoPow 52 + halfEven m (d * twoPow (binade m d))
      ≤ binade n d * twoPow 52 + halfEven n (d * twoPow (binade n d)) := by
    by_cases heq : binade m d = binade n d
    · rw [heq]
      exact Nat.add_le_add_left (halfEven_mono h) _
    · have hlow := halfEven_le_binade m d
      have hhigh := binade_le_halfEven (n := n) (d := d) (by omega)
      have hcarry : twoPow 53 = 2 * twoPow 52 := by decide
      have hstep : (binade m d + 1) * twoPow 52 ≤ binade n d * twoPow 52 :=
        Nat.mul_le_mul_right _ (by omega)
      rw [Nat.add_mul] at hstep
      omega
  rw [nearest_eq, nearest_eq]
  omega

/-- Only the ratio counts. -/
theorem nearest_scale {c : Nat} (hc : 0 < c) (n d : Nat) :
    nearest (c * n) (c * d) = nearest n d := by
  have hb : binade (c * n) (c * d) = binade n d := by
    unfold binade
    rw [Nat.mul_div_mul_left n d hc]
  rw [nearest_eq, nearest_eq, hb, Nat.mul_assoc, halfEven_scale hc]

/-- A greater ratio does not get a lesser magnitude. -/
theorem nearest_le_nearest {e : Nat} (hd : 0 < d) (he : 0 < e)
    (h : m * e ≤ n * d) : nearest m d ≤ nearest n e := by
  have hle : nearest (e * m) (e * d) ≤ nearest (d * n) (e * d) :=
    nearest_mono (by rw [Nat.mul_comm e, Nat.mul_comm d]; exact h)
  rw [nearest_scale he, Nat.mul_comm e, nearest_scale hd] at hle
  exact hle

/-- Equal ratios get the same magnitude. -/
theorem nearest_congr {e : Nat} (hd : 0 < d) (he : 0 < e)
    (h : m * e = n * d) : nearest m d = nearest n e :=
  Nat.le_antisymm (nearest_le_nearest hd he (Nat.le_of_eq h))
    (nearest_le_nearest he hd (Nat.le_of_eq h.symm))

theorem nearest_zero (hd : 0 < d) : nearest 0 d = 0 := by
  have hb : binade 0 d = 0 := by
    unfold binade
    rw [Nat.zero_div]
    rfl
  have hround : halfEven 0 (d * twoPow 0) = 0 := by
    have h := halfEven_mul (Nat.mul_pos hd (twoPow_pos 0)) 0
    rw [Nat.zero_mul] at h
    exact h
  rw [nearest_eq, hb, hround, Nat.zero_mul, Nat.zero_add, Nat.zero_min]

-- =============================================================== spans

/-- A magnitude of the lowest binade stands for itself. -/
theorem span_of_lt {k : Nat} (h : k < twoPow 52) : span k = k := if_pos h

/-- The magnitude `e * 2 ^ 52 + s`, with `s` of 53 bits, stands for
`s * 2 ^ e`. -/
theorem span_binade {e s : Nat} (hlow : twoPow 52 ≤ s) (hhigh : s < twoPow 53) :
    span (e * twoPow 52 + s) = s * twoPow e := by
  have hp : twoPow 53 = 2 * twoPow 52 := by decide
  have hpos := twoPow_pos 52
  obtain ⟨r, rfl⟩ := Nat.exists_eq_add_of_le hlow
  have hr : r < twoPow 52 := by omega
  have hsplit : e * twoPow 52 + (twoPow 52 + r) = twoPow 52 * (e + 1) + r := by
    rw [Nat.mul_add, Nat.mul_one, Nat.mul_comm, Nat.add_assoc]
  have hmod : (e * twoPow 52 + (twoPow 52 + r)) % twoPow 52 = r := by
    rw [hsplit, Nat.mul_add_mod, Nat.mod_eq_of_lt hr]
  have hdiv : (e * twoPow 52 + (twoPow 52 + r)) / twoPow 52 = e + 1 := by
    rw [hsplit, Nat.mul_add_div hpos, Nat.div_eq_of_lt hr]
  unfold span
  rw [if_neg (by omega), hmod, hdiv]
  rfl

/-- Every magnitude lies in the lowest binade or is of that form. -/
theorem eq_binade {k : Nat} (h : twoPow 52 ≤ k) :
    ∃ e s, twoPow 52 ≤ s ∧ s < twoPow 53 ∧ k = e * twoPow 52 + s := by
  have hp : twoPow 53 = 2 * twoPow 52 := by decide
  have hpos := twoPow_pos 52
  have hr : k % twoPow 52 < twoPow 52 := Nat.mod_lt k hpos
  have hq : 1 ≤ k / twoPow 52 := (Nat.le_div_iff_mul_le hpos).2 (by omega)
  refine ⟨k / twoPow 52 - 1, twoPow 52 + k % twoPow 52, by omega, by omega, ?_⟩
  have hk := Nat.div_add_mod k (twoPow 52)
  obtain ⟨e, he⟩ := Nat.exists_eq_add_of_le hq
  rw [he] at hk ⊢
  rw [Nat.add_sub_cancel_left]
  rw [Nat.mul_add, Nat.mul_one, Nat.mul_comm] at hk
  omega

/-- What a magnitude stands for is rounded to it. -/
theorem nearest_span {k : Nat} (hk : k ≤ infinityMagnitude) :
    nearest (span k) 1 = k := by
  have hexact {b s : Nat} (hb : binade (s * twoPow b) 1 = b) :
      nearest (s * twoPow b) 1 = min (b * twoPow 52 + s) infinityMagnitude := by
    rw [nearest_eq, hb, Nat.one_mul, halfEven_mul (twoPow_pos b)]
  by_cases hlt : k < twoPow 52
  · have hb : binade (k * twoPow 0) 1 = 0 := by
      have hlog : (k * 1 / 1).log2 ≤ 52 := by
        rw [Nat.mul_one, Nat.div_one]
        by_cases hzero : k = 0
        · rw [hzero]
          decide
        · exact Nat.le_of_lt ((Nat.log2_lt hzero).2 hlt)
      unfold binade
      exact Nat.sub_eq_zero_of_le hlog
    have h := hexact hb
    rw [show k * twoPow 0 = k from Nat.mul_one k] at h
    rw [span_of_lt hlt, h]
    omega
  · obtain ⟨e, s, hlow, hhigh, rfl⟩ := eq_binade (Nat.le_of_not_lt hlt)
    have hpos := twoPow_pos 52
    have hb : binade (s * twoPow e) 1 = e := by
      have hne : s * twoPow e ≠ 0 :=
        Nat.mul_ne_zero (by omega) (Nat.ne_of_gt (twoPow_pos e))
      have hlog : (s * twoPow e).log2 = 52 + e := by
        refine (Nat.log2_eq_iff hne).2 ⟨?_, ?_⟩
        · exact Nat.pow_add 2 52 e ▸ Nat.mul_le_mul_right _ hlow
        · have hup : s * twoPow e < twoPow 53 * twoPow e :=
            Nat.mul_lt_mul_of_pos_right hhigh (twoPow_pos e)
          rw [← twoPow_add] at hup
          exact Nat.lt_of_lt_of_le hup (twoPow_le (by omega))
      unfold binade
      rw [Nat.div_one, hlog]
      omega
    rw [span_binade hlow hhigh, hexact hb]
    omega

/-- What is not zero is not rounded to zero. -/
theorem nearest_ne_zero (h : n ≠ 0) : nearest n 1 ≠ 0 := by
  have hone : nearest (span 1) 1 = 1 := nearest_span (by decide)
  rw [show span 1 = 1 from span_of_lt (by decide)] at hone
  have hle : nearest 1 1 ≤ nearest n 1 :=
    nearest_mono (Nat.one_le_iff_ne_zero.2 h)
  omega

/-- A greater magnitude stands for more. -/
theorem span_mono {k l : Nat} (h : k ≤ l) : span k ≤ span l := by
  have hp : twoPow 53 = 2 * twoPow 52 := by decide
  by_cases hk : k < twoPow 52
  · rw [span_of_lt hk]
    by_cases hl : l < twoPow 52
    · rw [span_of_lt hl]
      exact h
    · obtain ⟨e, s, hlow, hhigh, rfl⟩ := eq_binade (Nat.le_of_not_lt hl)
      rw [span_binade hlow hhigh]
      have hone : s * 1 ≤ s * twoPow e := Nat.mul_le_mul_left s (twoPow_pos e)
      omega
  · obtain ⟨e, s, hlow, hhigh, rfl⟩ := eq_binade (Nat.le_of_not_lt hk)
    obtain ⟨e', s', hlow', hhigh', rfl⟩ :=
      eq_binade (k := l) (by omega)
    rw [span_binade hlow hhigh, span_binade hlow' hhigh']
    by_cases hlt : e < e'
    · calc s * twoPow e
          ≤ twoPow 53 * twoPow e := Nat.mul_le_mul_right _ (by omega)
        _ = twoPow 52 * twoPow (e + 1) := by
          rw [← twoPow_add, ← twoPow_add, Nat.add_comm e 1, ← Nat.add_assoc]
        _ ≤ s' * twoPow e' := Nat.mul_le_mul hlow' (twoPow_le hlt)
    · have hle : e' ≤ e := Nat.le_of_not_lt hlt
      have heq : e' = e := by
        -- a lower binade ends below this one
        apply Nat.le_antisymm hle
        apply Nat.le_of_not_lt
        intro hgt
        have hstep : (e' + 1) * twoPow 52 ≤ e * twoPow 52 :=
          Nat.mul_le_mul_right _ hgt
        rw [Nat.add_mul] at hstep
        omega
      subst heq
      exact Nat.mul_le_mul_right _ (by omega)

end Binary64

end SymbolMatch

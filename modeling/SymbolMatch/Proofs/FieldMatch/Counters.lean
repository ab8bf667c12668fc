/-
A counter prefers a counter. Whatever else is known of three fields, a
counter scores higher with another counter than with a field that is none,
and by a margin that no rounding closes.

The similarity of two fields does not order them so: two counters may
agree in nothing else. What decides are the last two steps of a score. A
shared role adds three tenths to a similarity that is at least 7/19, and
the field that is no counter keeps half of at most 1.

# Where 7/19 comes from

In quarters, two counters agree on 8, and the other roles cost at most 14
of the weight (`within_agreement_of_counter`). The counts are similar by
one half at least, which is 6 more quarters, the ratio of readers to
writers never takes away, and 16 quarters of weight are not the roles'. So
the similarity is at least (8 + 6) / (8 + 14 + 16).

The argument is made twice, for exact numbers and for doubles. In doubles
it needs the counts to be held as they are.
-/
import Mathlib.Tactic.Linarith
import SymbolMatch.FieldMatch.Compatibility
import SymbolMatch.Proofs.Access.Agreement

namespace SymbolMatch

variable {p q r : AccessProfile}

-- ======================================================== exact numbers

/-- The exact values that doubles round. -/
instance : Scalar ℚ where
  ofCount := Nat.cast
  abs := fun x => |x|
  least := min

namespace Scalar

/-- A literal with one decimal. -/
theorem tenths_rat (m : Nat) :
    (OfScientific.ofScientific m true 1 : ℚ) = m / 10 := by
  show Rat.ofScientific m true 1 = _
  rw [Rat.ofScientific_true_def, Rat.mkRat_eq_div]
  norm_num

theorem one_rat : (1.0 : ℚ) = 1 := by
  rw [tenths_rat]
  norm_num

theorem quarters_rat : Quarters (fun _ => True) fun n => (n : ℚ) / 4 where
  small := fun _ _ => trivial
  add := fun m n _ _ => by
    push_cast
    ring
  double := fun n _ => by
    rw [tenths_rat]
    push_cast
    ring
  half := fun n _ => by
    rw [tenths_rat]
    push_cast
    ring
  tenths := fun m n h => by
    have hcast : (2 : ℚ) * m = 5 * n := by exact_mod_cast h
    rw [tenths_rat]
    linarith
  count := fun n => by
    show (n : ℚ) = _
    push_cast
    ring

end Scalar

open Scalar (tenths_rat one_rat quarters_rat)

/-- Counts lie at most half of the greater ones apart. -/
theorem AccessCounts.half_le_similarity (a b : AccessCounts) :
    1 / 2 ≤ (a.similarity b : ℚ) := by
  have hdistance : (a.distance b : ℚ) ≤ a.greater b := by
    exact_mod_cast a.distance_le_greater b
  rw [similarity_eq a b quarters_rat fun _ _ => trivial, one_rat]
  split
  · norm_num
  · next hsome =>
    have hpos : (0 : ℚ) < a.greater b := by
      exact_mod_cast Nat.pos_of_ne_zero hsome
    have hpart : ((4 * a.distance b : ℕ) : ℚ) / 4
        / (((8 * a.greater b : ℕ) : ℚ) / 4) ≤ 1 / 2 := by
      push_cast
      rw [div_le_iff₀ (by linarith)]
      linarith
    push_cast at hpart ⊢
    linarith

/-- Two counters are similar, whatever else they do. -/
theorem AccessProfile.lt_similarity_of_counter
    (hp : p.patterns.counter = true) (hq : q.patterns.counter = true) :
    7 / 19 < (p.similarity q : ℚ) := by
  have hroles :=
    AccessPatterns.within_agreement_of_counter p.patterns q.patterns hp hq
  have hcounts := p.counts.half_le_similarity q.counts
  have hratio : 0 < 1 / (1 + |(p.readWriteRatio : ℚ) - q.readWriteRatio|) :=
    div_pos one_pos (add_pos_of_pos_of_nonneg one_pos (abs_nonneg _))
  have hthree : (3.0 : ℚ) = 3 := by
    rw [tenths_rat]
    norm_num
  rw [similarity_eq quarters_rat, one_rat, hthree]
  obtain ⟨hlow, -, hcost, -⟩ := hroles
  generalize AccessPatterns.agreement p.patterns q.patterns = acc at *
  have hlow : (8 : ℚ) ≤ acc.1 := by exact_mod_cast hlow
  have hcost : (acc.2 : ℚ) ≤ acc.1 + 14 := by exact_mod_cast hcost
  have hweight : (0 : ℚ) ≤ acc.2 := by positivity
  show 7 / 19 < ((acc.1 : ℚ) / 4 + p.counts.similarity q.counts * 3
    + 1 / (1 + |(p.readWriteRatio : ℚ) - q.readWriteRatio|))
    / (((acc.2 + 16 : ℕ) : ℚ) / 4)
  push_cast
  rw [lt_div_iff₀ (by linarith)]
  linarith

-- ============================================================== doubles

open Binary64

/-- Counts of at most 32 bits, and no more readers than a machine word
counts. -/
structure AccessProfile.InRange (p : AccessProfile) : Prop where
  counts : ∀ k, p.counts.get k < twoPow 32
  readers : p.readMethods.size < twoPow 64

/-- What the bounds below come to on fixed numbers. -/
theorem counter_constants :
    quarters 4 - quarters 2 = quarters 2
      ∧ quarters 2 * quarters 12 = quarters 6
      ∧ (0.5 : Binary64) < ⟨false, nearest (7 * twoPow 1074) 19⟩ + 0.3
      ∧ (0.5 : Binary64) < 1.0 := by
  decide +kernel

namespace AccessCounts

variable {a b : AccessCounts}

theorem greater_le {n : Nat} (ha : ∀ k, a.get k ≤ n) (hb : ∀ k, b.get k ≤ n) :
    a.greater b ≤ 9 * n := by
  have hsum : Overlap.total (AccessKind.all.map fun _ => n) = 9 * n := by
    show n + (n + (n + (n + (n + (n + (n + (n + (n + 0)))))))) = 9 * n
    omega
  rw [← hsum]
  exact Overlap.total_map_le fun k _ => Nat.max_le.2 ⟨ha k, hb k⟩

/-- In doubles too, counts lie at most half of the greater ones apart. -/
theorem between_similarity (ha : ∀ k, a.get k < twoPow 32)
    (hb : ∀ k, b.get k < twoPow 32) :
    Between 2 4 (a.similarity b : Binary64) := by
  have hgreater : 8 * a.greater b < twoPow 53 := by
    have hle := greater_le (fun k => Nat.le_of_lt (ha k))
      fun k => Nat.le_of_lt (hb k)
    have hroom : 8 * (9 * twoPow 32) < twoPow 53 := by decide
    omega
  have hdistance := a.distance_le_greater b
  have hwhole : (1 : Binary64) = quarters 4 := ofNat_eq_quarters 1
  have hone : (1.0 : Binary64) = 1 := ten_tenths 1
  rw [similarity_eq a b quarters_exact fun n hn => Nat.lt_of_le_of_lt hn hgreater,
    hone]
  split
  · refine ⟨by decide, isShare_one.1, ?_, isShare_one.between.atMost_high⟩
    rw [hwhole]
    exact quarters_atMost (by decide)
  · next hsome =>
    have hpart : quarters (4 * a.distance b) / quarters (8 * a.greater b)
        = ⟨false, nearest (4 * a.distance b * twoPow 1074) (8 * a.greater b)⟩ :=
      quarters_div (by omega) hgreater (by omega)
    have hhalf : (quarters (4 * a.distance b) / quarters (8 * a.greater b)).AtMost
        (quarters 2) := by
      rw [hpart, twoPow_add_two 1072]
      unfold quarters
      generalize twoPow 1072 = u
      intro _
      apply Int.ofNat_le.2
      apply nearest_le_nearest (by omega) Nat.one_pos
      have hscaled := Nat.mul_le_mul_right u hdistance
      linarith
    have hshare := (between_quarters (4 * a.distance b)).isShare_div
      (n := 8 * a.greater b) (by omega)
      (Nat.lt_trans hgreater (by decide)) (by omega)
    have hleft := sub_atMost_sub isFinite_one hshare.isFinite
      (isFinite_quarters (by decide)) (hhalf (isNaN_of_isFinite hshare.isFinite))
    rw [hwhole, counter_constants.1, ← hwhole] at hleft
    have hrest := hshare.one_sub.between
    exact ⟨by decide, hrest.zero_le, hleft, hrest.atMost_high⟩

end AccessCounts

namespace AccessProfile

open AccessPatterns (agreement within_agreement_of_counter)

theorem zero_le_readWriteRatio (hp : p.InRange) :
    (0 : Binary64) ≤ p.readWriteRatio :=
  zero_le_div (isFinite_ofNat hp.readers) (zero_le_ofNat _) (zero_le_ofNat _)
    (magnitude_ofNat_ne_zero (by omega))

/-- What the ratios of readers to writers contribute. -/
theorem isShare_closeness (hp : p.InRange) (hq : q.InRange) :
    ((1.0 : Binary64) / (1.0
      + Scalar.abs ((p.readWriteRatio : Binary64) - q.readWriteRatio))).IsShare := by
  have hone : (1.0 : Binary64) = 1 := ten_tenths 1
  have hsame : (1 : Binary64) + 0 = 1 := by
    show ofNat 1 + ofNat 0 = ofNat 1
    rw [ofNat_eq_quarters, ofNat_eq_quarters,
      quarters_add (by decide) (by decide)]
  have hfinite {r : AccessProfile} (hr : r.InRange) :
      (r.readWriteRatio : Binary64).isFinite = true :=
    isFinite_ratio hr.readers (by omega)
  have hgap : ((p.readWriteRatio : Binary64) - q.readWriteRatio).abs.isFinite
      = true := by
    rw [isFinite_abs]
    exact isFinite_sub_of_zero_le (hfinite hp) (hfinite hq)
      (zero_le_readWriteRatio hp) (zero_le_readWriteRatio hq)
  rw [hone]
  apply isShare_one_div
  · show (1 + ((p.readWriteRatio : Binary64) - q.readWriteRatio).abs).isNaN = false
    rw [add_of_isFinite isFinite_one hgap]
    exact isNaN_ofUnits _ _
  · have hmore := (AtMost.refl 1).add
      (zero_atMost (x := ((p.readWriteRatio : Binary64)
        - q.readWriteRatio).abs) rfl) isFinite_one hgap
    rw [hsame] at hmore
    exact hmore

/-- What the counts contribute, at three times their similarity. -/
theorem between_mul_three {c : Binary64} (hc : Between 2 4 c) :
    Between 6 12 (c * 3.0) := by
  have hthree : (3.0 : Binary64) = quarters 12 := quarters_exact.tenths 30 12 rfl
  have hfin : (quarters 12).isFinite = true := isFinite_quarters (by decide)
  have hlow := hc.low_atMost.mul hc.isShare.isFinite (hc.nonneg (by decide)) hfin
    rfl
  rw [counter_constants.2.1] at hlow
  rw [hthree]
  exact ⟨by decide, hc.isShare.zero_le_mul_weight hfin rfl, hlow,
    hc.isShare.atMost.mul_weight hfin rfl⟩

/-- The similarity of two counters in doubles: a number, and no less than
the exact bound is rounded to. -/
theorem atMost_similarity_of_counter (hp : p.InRange) (hq : q.InRange)
    (hcounter : p.patterns.counter = true)
    (hcounter' : q.patterns.counter = true) :
    (p.similarity q : Binary64).IsShare
      ∧ AtMost ⟨false, nearest (7 * twoPow 1074) 19⟩ (p.similarity q) := by
  have hsmall : 100 < twoPow 53 := by decide
  have hword : twoPow 53 < twoPow 64 := by decide
  obtain ⟨hlow, hshort, hcost, htop⟩ :=
    within_agreement_of_counter p.patterns q.patterns hcounter hcounter'
  have hcounts := between_mul_three
    (AccessCounts.between_similarity hp.counts hq.counts)
  have hratio := (isShare_closeness hp hq).between
  rw [similarity_eq quarters_exact]
  generalize agreement p.patterns q.patterns = acc at *
  have hscore := ((between_quarters acc.1).add hcounts (by omega)).add hratio
    (by omega)
  have hpart := hscore.atMost_div (n := acc.2 + 16) (by omega) (by omega)
    (by omega) (by omega)
  refine ⟨hscore.isShare_div (by omega) (by omega) (by omega),
    AtMost.trans ?_ (isNaN_of_le (nearest_le _ _)) hpart⟩
  intro _
  apply Int.ofNat_le.2
  apply nearest_le_nearest (by decide) (by omega)
  generalize twoPow 1074 = u
  calc 7 * u * (acc.2 + 16) = 7 * (acc.2 + 16) * u := by ring
    _ ≤ (acc.1 + 6 + 0) * 19 * u := Nat.mul_le_mul_right u (by omega)
    _ = (acc.1 + 6 + 0) * u * 19 := by ring

end AccessProfile

namespace FieldMatch

variable {α : Type} [Scalar α]

/-- Two counters share a role. -/
theorem profileScore_of_counter (hp : p.patterns.counter = true)
    (hq : q.patterns.counter = true) :
    (profileScore p q true : α) = Scalar.least (p.similarity q + 0.3) 1.0 := by
  unfold profileScore sharedRoleBonus
  dsimp only
  rw [hp, hq]
  rfl

/-- A counter and another field keep half of their score. -/
theorem profileScore_of_other (hp : p.patterns.counter = true)
    (hr : r.patterns.counter = false) :
    (profileScore p r true : α)
      = Scalar.least (sharedRoleBonus p.patterns r.patterns (p.similarity r)) 1.0
        * 0.5 := by
  unfold profileScore
  dsimp only
  rw [hp, hr]
  rfl

theorem profileScore_of_other_le (hp : p.patterns.counter = true)
    (hr : r.patterns.counter = false) : (profileScore p r true : ℚ) ≤ 1 / 2 := by
  have hhalf : (0.5 : ℚ) = 1 / 2 := by
    rw [tenths_rat]
    norm_num
  rw [profileScore_of_other hp hr, one_rat, hhalf]
  show min (sharedRoleBonus p.patterns r.patterns (p.similarity r : ℚ)) 1
    * (1 / 2) ≤ 1 / 2
  have hle := min_le_right
    (sharedRoleBonus p.patterns r.patterns (p.similarity r : ℚ)) 1
  linarith

theorem lt_profileScore_of_counter (hp : p.patterns.counter = true)
    (hq : q.patterns.counter = true) :
    13 / 20 < (profileScore p q true : ℚ) := by
  have hbonus : (0.3 : ℚ) = 3 / 10 := tenths_rat 3
  have hlow := AccessProfile.lt_similarity_of_counter hp hq
  rw [profileScore_of_counter hp hq, one_rat, hbonus]
  show 13 / 20 < min ((p.similarity q : ℚ) + 3 / 10) 1
  apply lt_min
  · linarith
  · norm_num

/-- In doubles, a counter and another field score one half at most. What
their similarity is does not matter, and not even whether it is a
number. -/
theorem profileScore_of_other_atMost (hp : p.patterns.counter = true)
    (hr : r.patterns.counter = false) :
    (profileScore p r true : Binary64).isNaN = false
      ∧ (profileScore p r true : Binary64).AtMost 0.5 := by
  have hone : (1.0 : Binary64) = 1 := ten_tenths 1
  have hhalf : (0.5 : Binary64) = quarters 2 := quarters_exact.tenths 5 2 rfl
  obtain ⟨hnan, hle⟩ := min_atMost
    (x := sharedRoleBonus p.patterns r.patterns (p.similarity r : Binary64))
    (isNaN_ofNat 1)
  rw [profileScore_of_other hp hr, hone, hhalf]
  exact ⟨isNaN_mul_of_isFinite hnan (isFinite_quarters (by decide))
      (magnitude_quarters_ne_zero (by decide)),
    AtMost.mul_weight hle (isFinite_quarters (by decide)) rfl⟩

theorem half_lt_profileScore_of_counter (hp : p.InRange) (hq : q.InRange)
    (hcounter : p.patterns.counter = true)
    (hcounter' : q.patterns.counter = true) :
    0.5 < (profileScore p q true : Binary64) := by
  obtain ⟨-, -, hbonus, hcap⟩ := counter_constants
  obtain ⟨hshare, hlow⟩ :=
    AccessProfile.atMost_similarity_of_counter hp hq hcounter hcounter'
  have hsum := hlow.add (AtMost.refl 0.3) hshare.isFinite
    (isFinite_tenths (m := 3) (by decide))
  rw [profileScore_of_counter hcounter hcounter']
  show 0.5 < min ((p.similarity q : Binary64) + 0.3) 1.0
  rcases min_eq_or_eq ((p.similarity q : Binary64) + 0.3) 1.0 with heq | heq
  · rw [heq]
    refine ⟨hbonus.1, ?_, Int.lt_of_lt_of_le hbonus.2.2 (hsum hbonus.2.1)⟩
    rw [add_of_isFinite hshare.isFinite (isFinite_tenths (m := 3) (by decide))]
    exact isNaN_ofUnits _ _
  · rw [heq]
    exact hcap

-- ========================================================== the theorem

/-- A counter scores higher with a counter than with a field that is none,
by more than three twentieths before anything is rounded, and in the
doubles that are compared. -/
theorem counter_prefers_counter (p q r : AccessProfile)
    (hp : p.patterns.counter = true) (hq : q.patterns.counter = true)
    (hr : r.patterns.counter = false) :
    (profileScore p r true : ℚ) + 3 / 20 < profileScore p q true
      ∧ (p.InRange → q.InRange →
        (profileScore p r true : Binary64) < profileScore p q true) := by
  constructor
  · have hother := profileScore_of_other_le hp hr
    have hcounter := lt_profileScore_of_counter hp hq
    linarith
  · intro hp' hq'
    obtain ⟨hnan, hother⟩ := profileScore_of_other_atMost hp hr
    have hcounter := half_lt_profileScore_of_counter hp' hq' hp hq
    exact ⟨hnan, hcounter.2.1, Int.lt_of_le_of_lt (hother hnan) hcounter.2.2⟩

end FieldMatch

namespace Sample

/-- A field with the roles that its counts suggest. -/
def counted (name : String) (counts : AccessCounts) : AccessProfile :=
  ({ AccessProfile.untouched ⟨"ab", name, "I"⟩ with counts }).classify

/-- A counter that steps up. -/
def upward : AccessProfile :=
  counted "a" { read := 2, write := 2, increment := 2 }

/-- A counter that steps down and is an index as well. -/
def downward : AccessProfile :=
  counted "b" { read := 6, write := 3, decrement := 3, arrayIndex := 6 }

/-- A field with the counts of a counter but for its steps. -/
def stored : AccessProfile := counted "c" { read := 2, write := 2 }

theorem inRange_upward : upward.InRange :=
  ⟨fun k => by cases k <;> decide, by decide⟩

theorem inRange_downward : downward.InRange :=
  ⟨fun k => by cases k <;> decide, by decide⟩

end Sample

namespace FieldMatch

/-- Two counters that agree in little else, and a field that agrees with
the first in all but its steps. -/
theorem counter_prefers_counter_upward :
    Sample.upward.patterns.counter = true
      ∧ Sample.downward.patterns.counter = true
      ∧ Sample.stored.patterns.counter = false
      ∧ (profileScore Sample.upward Sample.stored true : ℚ) + 3 / 20
        < profileScore Sample.upward Sample.downward true
      ∧ (profileScore Sample.upward Sample.stored true : Binary64)
        < profileScore Sample.upward Sample.downward true := by
  have hupward : Sample.upward.patterns.counter = true := by decide
  have hdownward : Sample.downward.patterns.counter = true := by decide
  have hstored : Sample.stored.patterns.counter = false := by decide
  obtain ⟨hexact, hrounded⟩ := counter_prefers_counter Sample.upward
    Sample.downward Sample.stored hupward hdownward hstored
  exact ⟨hupward, hdownward, hstored, hexact,
    hrounded Sample.inRange_upward Sample.inRange_downward⟩

end FieldMatch

end SymbolMatch

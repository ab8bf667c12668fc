/-
The numeric order of doubles. `rank` places every double but a NaN, and
`<`, `≤` and `max` only look at ranks, so a maximum over a list has the
same rank for every order of the list. Two doubles of one rank are equal
or are the two zeros, and which zero a maximum comes out as makes no
difference to what is later asked of it.
-/
import SymbolMatch.Number.Arithmetic

namespace SymbolMatch.Binary64

variable {x y z : Binary64}

theorem le_def :
    x ≤ y ↔ x.isNaN = false ∧ y.isNaN = false ∧ x.rank ≤ y.rank :=
  Iff.rfl

theorem lt_irrefl (x : Binary64) : ¬x < x :=
  fun h => Int.lt_irrefl _ h.2.2

theorem lt_trans (hxy : x < y) (hyz : y < z) : x < z :=
  ⟨hxy.1, hyz.2.1, Int.lt_trans hxy.2.2 hyz.2.2⟩

/-- What exceeds something is a number. -/
theorem isNaN_of_lt (h : x < y) : y.isNaN = false := h.2.1

/-- A number that is not at most another exceeds it. -/
theorem lt_of_not_le (hx : x.isNaN = false) (hy : y.isNaN = false)
    (h : ¬y ≤ x) : x < y :=
  ⟨hx, hy, Int.lt_of_not_ge fun hle => h ⟨hy, hx, hle⟩⟩

-- ============================================================ maximum

theorem isNaN_max (hx : x.isNaN = false) (hy : y.isNaN = false) :
    (max x y).isNaN = false := by
  change (Binary64.max x y).isNaN = false
  unfold Binary64.max
  rw [hx, hy]
  simp only [Bool.false_eq_true, if_false]
  split
  · exact hy
  · exact hx

theorem rank_max (hx : x.isNaN = false) (hy : y.isNaN = false) :
    (max x y).rank = max x.rank y.rank := by
  change (Binary64.max x y).rank = max x.rank y.rank
  unfold Binary64.max
  rw [hx, hy]
  simp only [Bool.false_eq_true, if_false]
  split
  · next h =>
    have := h.2.2
    omega
  · next h =>
    have : ¬x.rank < y.rank := fun hlt => h ⟨hx, hy, hlt⟩
    omega

/-- A maximum ignores what is not a number. -/
theorem max_of_isNaN (hx : x.isNaN = false) (hy : y.isNaN = true) :
    max x y = x := by
  change Binary64.max x y = x
  unfold Binary64.max
  simp [hx, hy]

/-- What is below a maximum is below one of its operands. -/
theorem lt_max_iff (hx : x.isNaN = false) :
    z < max x y ↔ z < x ∨ z < y := by
  cases hy : y.isNaN with
  | true =>
    have hnot : ¬z < y := by
      intro h
      rw [isNaN_of_lt h] at hy
      cases hy
    rw [max_of_isNaN hx hy]
    simp [hnot]
  | false =>
    have hmax := isNaN_max hx hy
    have hrank := rank_max hx hy
    constructor
    · intro h
      have hlt := h.2.2
      by_cases hzx : z.rank < x.rank
      · exact .inl ⟨h.1, hx, hzx⟩
      · exact .inr ⟨h.1, hy, by omega⟩
    · intro h
      rcases h with h | h
      · have hlt := h.2.2
        exact ⟨h.1, hmax, by omega⟩
      · have hlt := h.2.2
        exact ⟨h.1, hmax, by omega⟩

/-- What is below the maximum of a list is below one of its members. -/
theorem lt_foldl_max_iff {xs : List Binary64} (hx : x.isNaN = false) :
    z < xs.foldl max x ↔ z < x ∨ ∃ y ∈ xs, z < y := by
  induction xs generalizing x with
  | nil => simp
  | cons y rest ih =>
    have hnext : (max x y).isNaN = false := by
      cases hy : y.isNaN with
      | true =>
        rw [max_of_isNaN hx hy]
        exact hx
      | false => exact isNaN_max hx hy
    rw [List.foldl_cons, ih hnext, lt_max_iff hx, or_assoc]
    simp only [List.mem_cons, exists_eq_or_imp]

theorem max_eq_or_eq (x y : Binary64) : max x y = x ∨ max x y = y := by
  change Binary64.max x y = x ∨ Binary64.max x y = y
  unfold Binary64.max
  split
  · exact .inr rfl
  · split
    · exact .inl rfl
    · split
      · exact .inr rfl
      · exact .inl rfl

/-- A maximum is one of the numbers it is taken over. -/
theorem foldl_max_mem (xs : List Binary64) (x : Binary64) :
    xs.foldl max x ∈ x :: xs := by
  induction xs generalizing x with
  | nil => exact List.mem_cons_self
  | cons y rest ih =>
    rcases List.mem_cons.1 (ih (max x y)) with h | h
    · rcases max_eq_or_eq x y with hmax | hmax
      · rw [List.foldl_cons, h, hmax]
        exact List.mem_cons_self
      · rw [List.foldl_cons, h, hmax]
        exact List.mem_cons_of_mem _ List.mem_cons_self
    · exact List.mem_cons_of_mem _ (List.mem_cons_of_mem _ h)

/-- Nothing exceeds the maximum that it is taken into. -/
theorem not_foldl_max_lt {xs : List Binary64} (hx : x.isNaN = false)
    (hy : y ∈ xs) : ¬xs.foldl max x < y := by
  intro h
  exact lt_irrefl _ ((lt_foldl_max_iff hx).2 (.inr ⟨y, hy, h⟩))

/-- The rank of a maximum over numbers is the maximum of their ranks. -/
theorem rank_foldl_max {xs : List Binary64} (hxs : ∀ y ∈ xs, y.isNaN = false)
    (hx : x.isNaN = false) :
    (xs.foldl max x).rank = (xs.map rank).foldl max x.rank := by
  induction xs generalizing x with
  | nil => rfl
  | cons y rest ih =>
    have hy := hxs y List.mem_cons_self
    rw [List.foldl_cons, List.map_cons, List.foldl_cons,
      ih (fun z hz => hxs z (List.mem_cons_of_mem _ hz)) (isNaN_max hx hy),
      rank_max hx hy]

/-- A greatest rank of the list is the rank of the maximum. -/
theorem rank_foldl_max_eq {xs : List Binary64}
    (hxs : ∀ y ∈ xs, y.isNaN = false) (hx : x.isNaN = false)
    (hle : x.rank ≤ y.rank) (hy : y ∈ xs) (hgreatest : ∀ z ∈ xs,
      z.rank ≤ y.rank) : (xs.foldl max x).rank = y.rank := by
  -- what is already reached is not exceeded
  have hstay (zs : List Int) (hzs : ∀ z ∈ zs, z ≤ y.rank) :
      zs.foldl max y.rank = y.rank := by
    induction zs with
    | nil => rfl
    | cons z rest ih =>
      have hz := hzs z List.mem_cons_self
      rw [List.foldl_cons, show max y.rank z = y.rank by omega]
      exact ih fun w hw => hzs w (List.mem_cons_of_mem _ hw)
  rw [rank_foldl_max hxs hx]
  generalize x.rank = a at hle
  clear hx
  induction xs generalizing a with
  | nil => cases hy
  | cons z rest ih =>
    have hz := hgreatest z List.mem_cons_self
    have hrest (w : Binary64) (hw : w ∈ rest) : w.rank ≤ y.rank :=
      hgreatest w (List.mem_cons_of_mem _ hw)
    rw [List.map_cons, List.foldl_cons]
    rcases List.mem_cons.1 hy with heq | hmem
    · rw [← heq, show max a y.rank = y.rank by omega]
      apply hstay
      intro r hr
      obtain ⟨w, hw, rfl⟩ := List.mem_map.1 hr
      exact hrest w hw
    · exact ih (fun w hw => hxs w (List.mem_cons_of_mem _ hw)) hmem hrest _
        (by omega)

/-- The rank of a maximum does not depend on the order of the list. -/
theorem rank_foldl_max_eq_of_perm {xs ys : List Binary64}
    (hxs : ∀ y ∈ xs, y.isNaN = false) (hx : x.isNaN = false)
    (hp : xs.Perm ys) : (xs.foldl max x).rank = (ys.foldl max x).rank := by
  have hys : ∀ y ∈ ys, y.isNaN = false := fun y hy => hxs y (hp.mem_iff.2 hy)
  rw [rank_foldl_max hxs hx, rank_foldl_max hys hx]
  refine (hp.map rank).foldl_eq' ?_ _
  intro a _ b _ c
  omega

-- ======================================================== equal ranks

/-- Doubles of one rank are equal or are both zero. -/
theorem eq_or_zero_of_rank_eq (h : x.rank = y.rank) :
    x = y ∨ x.magnitude = 0 ∧ y.magnitude = 0 := by
  obtain ⟨sx, kx⟩ := x
  obtain ⟨sy, ky⟩ := y
  cases sx <;> cases sy <;> simp [rank] at h ⊢ <;> omega

theorem isFinite_eq_of_rank_eq (h : x.rank = y.rank) :
    x.isFinite = y.isFinite := by
  rcases eq_or_zero_of_rank_eq h with rfl | ⟨hx, hy⟩
  · rfl
  · unfold isFinite
    rw [hx, hy]

private theorem units_of_zero (h : x.magnitude = 0) : x.units = 0 := by
  unfold units span
  rw [h]
  split <;> decide

/-- Taking something from a zero gives the same rank for either zero. -/
private theorem sub_of_zero (hx : x.magnitude = 0) (hy : y.magnitude = 0)
    (c : Binary64) :
    (x - c).rank = (y - c).rank ∧ (x - c).isNaN = (y - c).isNaN := by
  have hxn : x.isNaN = false := by unfold isNaN; rw [hx]; decide
  have hyn : y.isNaN = false := by unfold isNaN; rw [hy]; decide
  have hxi : x.isInfinite = false := by unfold isInfinite; rw [hx]; decide
  have hyi : y.isInfinite = false := by unfold isInfinite; rw [hy]; decide
  change (Binary64.sub x c).rank = (Binary64.sub y c).rank
    ∧ (Binary64.sub x c).isNaN = (Binary64.sub y c).isNaN
  unfold Binary64.sub
  rw [hxn, hyn]
  simp only [Bool.false_eq_true, if_false]
  split
  · exact ⟨rfl, rfl⟩
  · unfold Binary64.add
    rw [hxn, hyn, hxi, hyi]
    simp only [Bool.false_eq_true, if_false]
    split
    · exact ⟨rfl, rfl⟩
    · split
      · exact ⟨rfl, rfl⟩
      · -- both differences are the opposite of `c`, or a zero
        rw [units_of_zero hx, units_of_zero hy]
        unfold ofUnits
        split
        · constructor
          · unfold rank
            split <;> split <;> simp
          · rfl
        · exact ⟨rfl, rfl⟩

/-- How far below a double another one lies depends on its rank only. -/
theorem sub_le_iff_of_rank_eq (h : x.rank = y.rank) (c m : Binary64) :
    x - c ≤ m ↔ y - c ≤ m := by
  rcases eq_or_zero_of_rank_eq h with rfl | ⟨hx, hy⟩
  · rfl
  · obtain ⟨hrank, hnan⟩ := sub_of_zero hx hy c
    rw [le_def, le_def, hrank, hnan]

-- ======================================================= the total order

/-- Where two doubles stand in the total order, by their signs and
patterns: the negative ones come first, NaN among them, and of two
negative ones the one of the greater pattern comes first. -/
def Under (x y : Binary64) : Prop :=
  x.negative = true ∧ y.negative = false
    ∨ x.negative = true ∧ y.negative = true ∧ y.magnitude < x.magnitude
    ∨ x.negative = false ∧ y.negative = false ∧ x.magnitude < y.magnitude

instance (x y : Binary64) : Decidable (x.Under y) :=
  inferInstanceAs (Decidable (_ ∨ _ ∨ _))

theorem totalCompare_eq_lt_iff : totalCompare x y = .lt ↔ x.Under y := by
  obtain ⟨sx, kx⟩ := x
  obtain ⟨sy, ky⟩ := y
  unfold totalCompare Under totalRank
  rw [Int.compare_eq_lt]
  cases sx <;> cases sy <;> grind

/-- The total order refines the numeric one. -/
theorem totalCompare_of_lt (h : x < y) : totalCompare x y = .lt := by
  obtain ⟨sx, kx⟩ := x
  obtain ⟨sy, ky⟩ := y
  have hrank := h.2.2
  unfold totalCompare
  rw [Int.compare_eq_lt]
  cases sx <;> cases sy <;> simp [rank, totalRank] at hrank ⊢ <;> omega

/-- Numbers stand in the total order as they do in the numeric one, the
two zeros apart. -/
theorem lt_of_totalCompare (h : totalCompare x y = .lt)
    (hx : x.isNaN = false) (hy : y.isNaN = false) (hzero : x ≠ negZero) :
    x < y := by
  refine ⟨hx, hy, ?_⟩
  obtain ⟨sx, kx⟩ := x
  obtain ⟨sy, ky⟩ := y
  unfold totalCompare at h
  rw [Int.compare_eq_lt] at h
  cases sx <;> cases sy <;> simp [rank, totalRank, negZero] at h hzero ⊢ <;> omega

/-- A number further up in the total order is not less. -/
theorem lt_of_lt_of_totalRank_le (h : z < x)
    (hle : x.totalRank ≤ y.totalRank) (hy : y.isNaN = false) : z < y := by
  have hrank : x.rank ≤ y.rank := by
    obtain ⟨sx, kx⟩ := x
    obtain ⟨sy, ky⟩ := y
    cases sx <;> cases sy <;> simp [rank, totalRank] at hle ⊢ <;> omega
  exact ⟨h.1, hy, Int.lt_of_lt_of_le h.2.2 hrank⟩

/-- The order by a number, the greatest first. -/
instance transCmp_descending {α : Type} (f : α → Binary64) :
    Std.TransCmp fun a b : α => totalCompare (f b) (f a) :=
  inferInstanceAs (Std.TransCmp fun a b : α =>
    compareOn (fun x => (f x).totalRank) b a)

end SymbolMatch.Binary64

/-
How far two fields agree, before anything is divided.

A comparison of fields adds up a score and the weight it is out of, role
by role, and the counts of accesses, kind by kind. All of these are
numbers of quarters, and as such they are the same in every scalar that
holds quarters (`AccessPatterns.agreement`, `AccessCounts.similarity_eq`).
What is left of a similarity is one division by whole numbers for the
counts, one for the ratios and one at the end
(`AccessProfile.similarity_eq`).
-/
import SymbolMatch.Access.Profile
import SymbolMatch.Proofs.Measures
import SymbolMatch.Proofs.Number.Quarters

namespace SymbolMatch

namespace AccessPatterns

variable {acc : Nat × Nat} {mine theirs : Bool} {full low cost top : Nat}

/-- Count one role: a score and the weight it is out of, in quarters. -/
def countRole (acc : Nat × Nat) (mine theirs : Bool) (full : Nat) : Nat × Nat :=
  if mine && theirs then (acc.1 + full, acc.2 + full)
  else if mine || theirs then (acc.1, acc.2 + full / 2)
  else acc

/-- Count every role. -/
def agreement (a b : AccessPatterns) : Nat × Nat :=
  let acc := countRole (0, 0) a.counter b.counter 8
  let acc := countRole acc a.flag b.flag 8
  let acc := countRole acc a.index b.index 8
  let acc := countRole acc a.constant b.constant 6
  countRole acc a.multiplier b.multiplier 6

-- =============================================================== bounds

/-- A score of at least `low` that falls short of its weight by at most
`cost`, with a weight of at most `top`. -/
structure Within (acc : Nat × Nat) (low cost top : Nat) : Prop where
  low_le : low ≤ acc.1
  score_le : acc.1 ≤ acc.2
  weight_le : acc.2 ≤ acc.1 + cost
  le_top : acc.2 ≤ top

/-- One more role takes nothing from the score, and costs half of itself at
most. -/
theorem Within.countRole (h : Within acc low cost top) (mine theirs : Bool)
    (full : Nat) :
    Within (countRole acc mine theirs full) low (cost + full / 2)
      (top + full) := by
  obtain ⟨hlow, hscore, hweight, htop⟩ := h
  unfold AccessPatterns.countRole
  split
  · constructor <;> dsimp only <;> omega
  · split
    · constructor <;> dsimp only <;> omega
    · constructor <;> omega

variable (a b : AccessPatterns)

theorem within_agreement : Within (a.agreement b) 0 18 36 :=
  have hstart : Within (0, 0) 0 0 0 := by constructor <;> decide
  ((((hstart.countRole a.counter b.counter 8).countRole a.flag b.flag
    8).countRole a.index b.index 8).countRole a.constant b.constant
    6).countRole a.multiplier b.multiplier 6

/-- Two counters agree on two, and what the other roles cost is at most
three and a half. -/
theorem within_agreement_of_counter (ha : a.counter = true)
    (hb : b.counter = true) : Within (a.agreement b) 8 14 36 := by
  have hstart : Within (AccessPatterns.countRole (0, 0) a.counter b.counter 8)
      8 0 8 := by
    rw [ha, hb]
    constructor <;> decide
  exact (((hstart.countRole a.flag b.flag 8).countRole a.index b.index
    8).countRole a.constant b.constant 6).countRole a.multiplier b.multiplier 6

-- ============================================================= exchange

theorem countRole_comm (acc : Nat × Nat) (mine theirs : Bool) (full : Nat) :
    countRole acc mine theirs full = countRole acc theirs mine full := by
  unfold countRole
  rw [Bool.and_comm mine, Bool.or_comm mine]

theorem agreement_comm : a.agreement b = b.agreement a := by
  unfold agreement
  dsimp only
  rw [countRole_comm _ a.counter, countRole_comm _ a.flag,
    countRole_comm _ a.index, countRole_comm _ a.constant,
    countRole_comm _ a.multiplier]

/-- A role that both play or neither does costs nothing. -/
theorem countRole_same (h : acc.1 = acc.2) :
    (countRole acc mine mine full).1 = (countRole acc mine mine full).2 := by
  unfold countRole
  cases mine with
  | true => exact congrArg (· + full) h
  | false => exact h

theorem agreement_self : (a.agreement a).1 = (a.agreement a).2 :=
  countRole_same (countRole_same (countRole_same (countRole_same
    (countRole_same rfl))))

end AccessPatterns

-- =============================================================== counts

namespace AccessCounts

open Overlap (total total_map_le)

variable (a b : AccessCounts)

/-- The greater of the two counts of each kind, added up. -/
def greater : Nat :=
  total (AccessKind.all.map fun k => max (a.get k) (b.get k))

/-- The distance of the two counts of each kind, added up. -/
def distance : Nat :=
  total (AccessKind.all.map fun k =>
    max (a.get k) (b.get k) - min (a.get k) (b.get k))

theorem distance_le_greater : a.distance b ≤ a.greater b :=
  total_map_le fun _ _ => Nat.sub_le _ _

theorem greater_eq_zero_iff :
    a.greater b = 0
      ↔ (AccessKind.all.all fun k => max (a.get k) (b.get k) == 0) = true := by
  rw [List.all_eq_true]
  constructor
  · intro h k hk
    have hmem : max (a.get k) (b.get k)
        ∈ AccessKind.all.map fun k => max (a.get k) (b.get k) :=
      List.mem_map.2 ⟨k, hk, rfl⟩
    exact beq_iff_eq.2 (Nat.le_zero.1 (h ▸ Overlap.le_total hmem))
  · intro h
    apply Nat.le_zero.1
    exact Nat.le_trans (total_map_le (g := fun _ => 0) fun k hk =>
      Nat.le_of_eq (beq_iff_eq.1 (h k hk))) (by decide)

variable {α : Type} [Scalar α] {held : Nat → Prop} {val : Nat → α}

/-- A sum of counts. -/
theorem foldl_ofCount (hval : Scalar.Quarters held val) {f : AccessKind → Nat}
    {ks : List AccessKind} {s : Nat}
    (h : ∀ n ≤ s + 4 * total (ks.map f), held n) :
    ks.foldl (fun t k => t + Scalar.ofCount (f k)) (val s)
      = val (s + 4 * total (ks.map f)) := by
  induction ks generalizing s with
  | nil => rfl
  | cons k rest ih =>
    have hsum : total ((k :: rest).map f) = f k + total (rest.map f) := rfl
    rw [hsum] at h ⊢
    rw [List.foldl_cons, hval.count, hval.add _ _ (h _ (by omega))
      (h _ (by omega)), ih fun n hn => h n (by omega)]
    congr 1
    omega

/-- The similarity of counts divides once. -/
theorem similarity_eq (hval : Scalar.Quarters held val)
    (h : ∀ n ≤ 8 * a.greater b, held n) :
    (a.similarity b : α)
      = if a.greater b = 0 then 1.0
        else 1.0 - val (4 * a.distance b) / val (8 * a.greater b) := by
  have hzero : (0.0 : α) = val 0 := hval.tenths 0 0 rfl
  have hsum (f : AccessKind → Nat)
      (hf : total (AccessKind.all.map f) ≤ a.greater b) :
      AccessKind.all.foldl (fun (t : α) k => t + Scalar.ofCount (f k)) (val 0)
        = val (4 * total (AccessKind.all.map f)) := by
    rw [foldl_ofCount hval fun n hn => h n (by omega), Nat.zero_add]
  unfold similarity
  by_cases hnone : a.greater b = 0
  · rw [if_pos hnone, if_pos ((a.greater_eq_zero_iff b).1 hnone)]
  · have hdouble := hval.double (4 * a.greater b) (h _ (by omega))
    rw [← Nat.mul_assoc] at hdouble
    rw [if_neg hnone, if_neg fun hall => hnone ((a.greater_eq_zero_iff b).2 hall)]
    dsimp only
    rw [hzero, hsum _ (Nat.le_refl _), hsum _ (a.distance_le_greater b)]
    exact congrArg (1.0 - val (4 * a.distance b) / ·) hdouble

end AccessCounts

-- =========================================================== similarity

namespace AccessProfile

open AccessPatterns (agreement countRole Within)

variable {α : Type} [Scalar α] {held : Nat → Prop} {val : Nat → α}

/-- One role, in any scalar that holds quarters. -/
theorem addRole_val (hval : Scalar.Quarters held val) {acc : Nat × Nat}
    {low cost top : Nat} (h : Within acc low cost top) (htop : top ≤ 100)
    (mine theirs : Bool) {g : Nat} (hg : 2 * g ≤ 100) :
    addRole (acc.map val val) mine theirs (val (2 * g))
      = (countRole acc mine theirs (2 * g)).map val val := by
  obtain ⟨-, hscore, -, hweight⟩ := h
  have hhalf : 2 * g / 2 = g := by omega
  have hfirst := hval.small acc.1 (by omega)
  have hsecond := hval.small acc.2 (by omega)
  have hfull := hval.small (2 * g) hg
  unfold addRole AccessPatterns.countRole
  split
  · dsimp only [Prod.map]
    rw [hval.add _ _ hfirst hfull, hval.add _ _ hsecond hfull]
  · split
    · dsimp only [Prod.map]
      rw [hval.half g hfull, hval.add _ _ hsecond (hval.small g (by omega)),
        hhalf]
    · rfl

/-- All roles. -/
theorem addRole_agreement (hval : Scalar.Quarters held val) (a b : AccessPatterns) :
    addRole (addRole (addRole (addRole (addRole ((0.0, 0.0) : α × α)
        a.counter b.counter 2.0) a.flag b.flag 2.0) a.index b.index 2.0)
        a.constant b.constant 1.5) a.multiplier b.multiplier 1.5
      = (agreement a b).map val val := by
  have hzero : (0.0 : α) = val 0 := hval.tenths 0 0 rfl
  have htwo : (2.0 : α) = val (2 * 4) := hval.tenths 20 8 rfl
  have hmore : (1.5 : α) = val (2 * 3) := hval.tenths 15 6 rfl
  have hstart : Within (0, 0) 0 0 0 := by constructor <;> decide
  have h₁ := hstart.countRole a.counter b.counter (2 * 4)
  have h₂ := h₁.countRole a.flag b.flag (2 * 4)
  have h₃ := h₂.countRole a.index b.index (2 * 4)
  have h₄ := h₃.countRole a.constant b.constant (2 * 3)
  rw [hzero, htwo, hmore,
    show (val 0, val 0) = ((0, 0) : Nat × Nat).map val val from rfl,
    addRole_val hval hstart (by decide) _ _ (by decide),
    addRole_val hval h₁ (by decide) _ _ (by decide),
    addRole_val hval h₂ (by decide) _ _ (by decide),
    addRole_val hval h₃ (by decide) _ _ (by decide),
    addRole_val hval h₄ (by decide) _ _ (by decide)]
  rfl

/-- A similarity is one quotient. -/
theorem similarity_eq (hval : Scalar.Quarters held val) (p q : AccessProfile) :
    (p.similarity q : α)
      = (val (agreement p.patterns q.patterns).1
          + p.counts.similarity q.counts * 3.0
          + 1.0 / (1.0 + Scalar.abs (p.readWriteRatio - q.readWriteRatio)))
        / val ((agreement p.patterns q.patterns).2 + 16) := by
  have htop := (AccessPatterns.within_agreement p.patterns q.patterns).le_top
  have hthree : (3.0 : α) = val 12 := hval.tenths 30 12 rfl
  have hone : (1.0 : α) = val 4 := hval.tenths 10 4 rfl
  have hweight : val (agreement p.patterns q.patterns).2 + 3.0 + 1.0
      = val ((agreement p.patterns q.patterns).2 + 16) := by
    rw [hthree, hone,
      hval.add _ _ (hval.small _ (by omega)) (hval.small 12 (by decide)),
      hval.add _ _ (hval.small _ (by omega)) (hval.small 4 (by decide))]
  rw [← hweight]
  unfold similarity
  dsimp only
  rw [addRole_agreement hval]
  rfl

end AccessProfile

end SymbolMatch

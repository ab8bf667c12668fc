/-
What a class scores with itself. As an anchor it scores 1, and no anchor
scores above that; as a class of constants it scores at least what it
scores with any other.

The terms of an anchor's score depend on the pair, since a comparison
that says nothing is left out, but there are only so many
(`of_mem_anchorTerms`), and all combinations of their weights can be
added up without rounding past what a double holds (`weights_anchorTerms`).
-/
import SymbolMatch.Proofs.Matching.Moves
import SymbolMatch.Proofs.Similarity

namespace SymbolMatch

/-- By default, a score of 1 is enough for an anchor. -/
theorem Settings.one_above_default :
    0 ≤ default.tieMargin ∧ default.minSimilarity < 1
      ∧ ¬ 1 ≤ default.anchorThreshold := by decide +kernel

namespace Context

open Overlap

variable {ctx : Context} {old new n : String}

theorem similarity_atMost (ctx : Context) (old new : String) :
    (ctx.similarity old new).AtMost 1 := by
  unfold similarity
  split
  · exact classSimilarity_atMost _ _
  · exact Binary64.zero_atMost rfl

/-- Full similarity is reported with full confidence. -/
theorem confidence_one (ctx : Context) (old new : String) (origin : Origin) :
    ctx.confidence old new origin 1 = 1 := by
  have hboost : ∀ boost ∈ [(1.8 : Binary64), 1.5],
      min (1 * boost) 1 = 1 := by decide +kernel
  unfold confidence
  split
  · rfl
  · apply hboost
    split
    · simp
    · simp

-- ================================================================ anchors

/-- The terms of an anchor's score. -/
def anchorTerms (ctx : Context) (old new : String) (a b : ClassFingerprint) :
    List (Binary64 × Binary64) :=
  (ctx.similarity old new, 2) :: ctx.fieldTypeTerm old new
    ++ fieldCountTerm a b ++ ctx.userCountTerm old new
    ++ ctx.selfRefTerm old new ++ [methodCountTerm a b]

theorem anchorScore_eq {a b : ClassFingerprint}
    (ha : ctx.old.fingerprint? old = some a)
    (hb : ctx.new.fingerprint? new = some b) :
    ctx.anchorScore old new = weightedMean (ctx.anchorTerms old new a b) := by
  unfold anchorScore anchorTerms
  rw [ha, hb]

/-- Whichever terms there are, their weights can be added up. -/
theorem weights_anchorTerms (a b : ClassFingerprint) :
    Weights ((ctx.anchorTerms old new a b).map (·.2)) := by
  have hall : ∀ f ∈ [[], [(10 : Binary64)], [5]], ∀ c ∈ [[], [(4 : Binary64)]],
      ∀ u ∈ [[], [(2 : Binary64)], [6], [3]], ∀ r ∈ [[], [(0.3 : Binary64)]],
      Weights (2 :: f ++ c ++ u ++ r ++ [1]) := by decide +kernel
  have hfields : (ctx.fieldTypeTerm old new).map (·.2)
      ∈ [[], [(10 : Binary64)], [5]] := by
    unfold fieldTypeTerm
    dsimp only
    split
    · simp
    · split
      · simp
      · simp
  have hcounts : (fieldCountTerm a b).map (·.2) ∈ [[], [(4 : Binary64)]] := by
    unfold fieldCountTerm
    split
    · simp
    · simp
  have husers : (ctx.userCountTerm old new).map (·.2)
      ∈ [[], [(2 : Binary64)], [6], [3]] := by
    unfold userCountTerm
    dsimp only
    split
    · split
      · simp
      · split
        · simp
        · simp
    · simp
  have hrefs : (ctx.selfRefTerm old new).map (·.2)
      ∈ [[], [(0.3 : Binary64)]] := by
    unfold selfRefTerm
    dsimp only
    split
    · simp
    · simp
  have hmethods : (methodCountTerm a b).2 = 1 := by
    unfold methodCountTerm
    dsimp only
    split
    · rfl
    · rfl
  have h := hall _ hfields _ hcounts _ husers _ hrefs
  unfold anchorTerms
  simp only [List.map_append, List.map_cons, List.map_nil, hmethods]
  exact h

/-- What the terms compare. -/
theorem of_mem_anchorTerms {a b : ClassFingerprint} {t : Binary64 × Binary64}
    (ht : t ∈ ctx.anchorTerms old new a b) :
    t.1 = ctx.similarity old new
      ∨ (t.1 = 0 ∧ (ctx.old.evidence.fieldTypesOf old).size
        ≠ (ctx.new.evidence.fieldTypesOf new).size)
      ∨ t.1 = countCloseness (ctx.old.evidence.fieldTypesOf old).size
        (ctx.new.evidence.fieldTypesOf new).size
      ∨ t.1 = countCloseness a.fieldCount b.fieldCount
      ∨ t.1 = countCloseness (ctx.old.evidence.externalFieldUserCount old)
        (ctx.new.evidence.externalFieldUserCount new)
      ∨ (0 < ctx.old.evidence.selfFieldRefs old
        ∧ t.1 = Binary64.ofNat (min (ctx.old.evidence.selfFieldRefs old)
            (ctx.new.evidence.selfFieldRefs new))
          / Binary64.ofNat (max (ctx.old.evidence.selfFieldRefs old)
            (ctx.new.evidence.selfFieldRefs new)))
      ∨ t.1 = max (countCloseness a.methodCount b.methodCount) 0.7
      ∨ t.1 = countCloseness a.methodCount b.methodCount := by
  unfold anchorTerms at ht
  simp only [List.mem_append, List.mem_cons, List.not_mem_nil, or_false] at ht
  rcases ht with ((((rfl | ht) | ht) | ht) | ht) | rfl
  · exact .inl rfl
  · right
    unfold fieldTypeTerm at ht
    dsimp only at ht
    split at ht
    · next hnone =>
      rw [List.mem_singleton.1 ht]
      exact .inl ⟨rfl, by omega⟩
    · split at ht
      · rw [List.mem_singleton.1 ht]
        exact .inr (.inl rfl)
      · cases ht
  · right; right; right
    unfold fieldCountTerm at ht
    split at ht
    · rw [List.mem_singleton.1 ht]
      exact .inl rfl
    · cases ht
  · right; right; right; right
    unfold userCountTerm at ht
    dsimp only at ht
    split at ht
    · rw [List.mem_singleton.1 ht]
      exact .inl rfl
    · cases ht
  · right; right; right; right; right
    unfold selfRefTerm at ht
    dsimp only at ht
    split at ht
    · next hmany =>
      rw [List.mem_singleton.1 ht]
      exact .inl ⟨Nat.zero_lt_of_lt hmany.1, rfl⟩
    · cases ht
  · right; right; right; right; right; right
    unfold methodCountTerm
    dsimp only
    split
    · exact .inl rfl
    · exact .inr rfl

/-- Every term is a share. -/
theorem anchorTerms_atMost (a b : ClassFingerprint) :
    ∀ t ∈ ctx.anchorTerms old new a b, t.1.AtMost 1 := by
  intro t ht
  rcases of_mem_anchorTerms ht with h | ⟨h, -⟩ | h | h | h | ⟨-, h⟩ | h | h
  · rw [h]
    exact similarity_atMost ctx old new
  · rw [h]
    exact Binary64.zero_atMost rfl
  · rw [h]
    exact countCloseness_atMost _ _
  · rw [h]
    exact countCloseness_atMost _ _
  · rw [h]
    exact countCloseness_atMost _ _
  · rw [h]
    exact Binary64.div_ofNat_atMost (by omega)
  · rw [h]
    exact (countCloseness_atMost _ _).max
      (Binary64.tenths_atMost_ofNat (by decide))
  · rw [h]
    exact countCloseness_atMost _ _

/-- No anchor scores above 1. -/
theorem anchorScore_atMost (ctx : Context) (old new : String) :
    (ctx.anchorScore old new).AtMost 1 := by
  unfold anchorScore
  split
  · next a b ha hb =>
    exact weightedMean_atMost (anchorTerms_atMost a b)
      (weights_anchorTerms a b)
  · exact Binary64.zero_atMost rfl

/-- One build on both sides. -/
def reflexive (settings : Settings) (x : Index) : Context := ⟨settings, x, x⟩

@[simp] theorem settings_reflexive (settings : Settings) (x : Index) :
    (reflexive settings x).settings = settings := rfl

variable {settings : Settings} {x : Index}

/-- A class that is fully similar to itself anchors itself at 1. -/
theorem anchorScore_self (hn : n ∈ x.classNames)
    (hself : (reflexive settings x).similarity n n = 1)
    (hrange : x.evidence.selfFieldRefs n < twoPow 64) :
    (reflexive settings x).anchorScore n n = 1 := by
  obtain ⟨a, ha⟩ := Option.isSome_iff_exists.1 (Index.contains_iff.2 hn)
  have heq : (reflexive settings x).anchorScore n n
      = weightedMean ((reflexive settings x).anchorTerms n n a a) :=
    anchorScore_eq ha ha
  rw [heq]
  refine weightedMean_eq_one ?_ (weights_anchorTerms a a)
  intro t ht
  rcases of_mem_anchorTerms ht with
    h | ⟨-, hne⟩ | h | h | h | ⟨hpos, h⟩ | h | h
  · rw [h, hself]
  · exact absurd rfl hne
  · rw [h]
    exact countCloseness_self _
  · rw [h]
    exact countCloseness_self _
  · rw [h]
    exact countCloseness_self _
  · rw [h]
    show Binary64.ofNat (min (x.evidence.selfFieldRefs n)
        (x.evidence.selfFieldRefs n))
      / Binary64.ofNat (max (x.evidence.selfFieldRefs n)
        (x.evidence.selfFieldRefs n)) = 1
    rw [Nat.min_self, Nat.max_self]
    exact Binary64.ofNat_div_self hpos hrange
  · rw [h, countCloseness_self]
    exact Binary64.max_eq_of_atMost
      (Binary64.tenths_atMost_ofNat (by decide)) (Binary64.isNaN_ofNat 1)
  · rw [h]
    exact countCloseness_self _

-- ============================================================== constants

/-- What a class of constants scores with itself. -/
theorem constantScore_self (n : String) :
    (reflexive settings x).constantScore n n
      = ((reflexive settings x).constantUserCloseness n n * 5 + 1 * 4) / 9 := by
  unfold constantScore fieldCloseness
  rw [show countCloseness ((reflexive settings x).old.fieldCount n)
    ((reflexive settings x).new.fieldCount n) = 1 from countCloseness_self _]

theorem constantUserCloseness_self (settings : Settings) (x : Index)
    (n : String) :
    (reflexive settings x).constantUserCloseness n n
      = if 0 < x.evidence.externalFieldUserCount n then 1 else 0.8 := by
  have hnear : difference (x.evidence.externalFieldUserCount n)
      (x.evidence.externalFieldUserCount n) ≤ 1 := by
    unfold difference
    omega
  unfold constantUserCloseness reflexive
  dsimp only
  by_cases husers : 0 < x.evidence.externalFieldUserCount n
  · rw [if_pos ⟨rfl, husers⟩, if_pos husers]
  · rw [if_neg fun h => husers h.2, if_pos hnear, if_neg husers]

/-- No class of constants has users that are closer in number. -/
theorem constantUserCloseness_atMost (settings : Settings) (x : Index)
    (n m : String) :
    ((reflexive settings x).constantUserCloseness n m).AtMost
      ((reflexive settings x).constantUserCloseness n n) := by
  rw [constantUserCloseness_self]
  unfold constantUserCloseness reflexive
  dsimp only
  by_cases husers : 0 < x.evidence.externalFieldUserCount n
  · rw [if_pos husers]
    split
    · exact Binary64.AtMost.refl 1
    · split
      · exact Binary64.tenths_atMost_ofNat (by decide)
      · exact Binary64.zero_atMost rfl
  · -- it has no users, and then no number of users is a match
    rw [if_neg husers, if_neg fun h => husers h.2]
    split
    · exact Binary64.AtMost.refl _
    · exact Binary64.zero_atMost rfl

/-- A class of constants scores the same with itself whatever it is, its
users apart. By default, that is enough. -/
theorem constantScore_values : ∀ u ∈ [(1 : Binary64), 0.8],
    u.isFinite = true ∧ u.negative = false ∧ (u * 5).isFinite = true
      ∧ (u * 5 + 1 * 4).isFinite = true ∧ (u * 5 + 1 * 4).negative = false
      ∧ Settings.default.minSimilarity < (u * 5 + 1 * 4) / 9
      ∧ ((u * 5 + 1 * 4) / 9).isFinite = true := by decide +kernel

theorem constantUserCloseness_mem (settings : Settings) (x : Index)
    (n : String) :
    (reflexive settings x).constantUserCloseness n n
      ∈ [(1 : Binary64), 0.8] := by
  rw [constantUserCloseness_self]
  split
  · simp
  · simp

/-- No class of constants scores higher with another than with itself. -/
theorem constantScore_atMost (settings : Settings) (x : Index)
    (n m : String) :
    ((reflexive settings x).constantScore n m).AtMost
      ((reflexive settings x).constantScore n n) := by
  have hfour : (4 : Binary64).isFinite = true :=
    Binary64.isFinite_ofNat (by decide)
  have hfour' : (1 * 4 : Binary64).isFinite = true := by
    rw [Binary64.one_mul_of_isFinite hfour]
    exact hfour
  obtain ⟨hfinite, hsign, hfinite', hfinite'', hsign'', -⟩ :=
    constantScore_values _ (constantUserCloseness_mem settings x n)
  have husers := (constantUserCloseness_atMost settings x n m).mul (w := 5)
    hfinite hsign (Binary64.isFinite_ofNat (by decide)) rfl
  have hfields := (countCloseness_atMost
    ((reflexive settings x).old.fieldCount n)
    ((reflexive settings x).new.fieldCount m)).mul (w := 4)
      Binary64.isFinite_one rfl hfour rfl
  rw [constantScore_self]
  unfold constantScore fieldCloseness
  exact (husers.add hfields hfinite' hfour').div (w := 9)
    hfinite'' hsign'' (Binary64.isFinite_ofNat (by decide)) rfl
    (Binary64.magnitude_ofNat_ne_zero (by decide))

theorem constantScore_self_bounds (x : Index) (n : String) :
    Settings.default.minSimilarity < (reflexive .default x).constantScore n n
      ∧ ((reflexive .default x).constantScore n n).isFinite = true := by
  rw [constantScore_self]
  exact (constantScore_values _
    (constantUserCloseness_mem .default x n)).2.2.2.2.2

end Context

end SymbolMatch

/-
What is chosen among candidates, said without the way it is found.

Of the candidates above the floor one scores highest. Those within the
margin of its score are tied with it, and the choice is the most similar
of them, the one with the least name if several are (`IsBest`). No two
candidates share a name, so there is at most one such choice
(`IsBest.unique`), and with finite scores there is one as soon as any
candidate is above the floor.

# Margins

A choice need not have the highest score. What holds of it is that no
candidate outscores it by more than the margin (`pickBest_margin`): one
above the floor scores no more than the highest, and one at or below the
floor does not outscore it at all.
-/
import SymbolMatch.Proofs.Selection.Best

set_option linter.unusedSectionVars false

namespace SymbolMatch

variable {ι : Type} [Ord ι] [Std.TransOrd ι] [Std.LawfulEqOrd ι]
  {floor margin top : Binary64} {cs : List (Scored ι)} {choice : Choice ι}

-- ==================================================== the highest score

namespace Scored

/-- The highest score above a floor. -/
structure Highest (cs : List (Scored ι)) (floor top : Binary64) : Prop where
  reached : ∃ c ∈ cs, floor < c.score ∧ c.score = top
  bounds : ∀ c ∈ cs, floor < c.score → c.score ≤ top

/-- Two highest scores are equal, or both are zero. -/
theorem Highest.rank_eq {top' : Binary64} (h : Highest cs floor top)
    (h' : Highest cs floor top') : top.rank = top'.rank := by
  obtain ⟨c, hc, habove, rfl⟩ := h.reached
  obtain ⟨d, hd, habove', rfl⟩ := h'.reached
  exact Int.le_antisymm (h'.bounds c hc habove).2.2 (h.bounds d hd habove').2.2

/-- No candidate above the floor scores above the top score. -/
theorem atMost_topScore {c : Scored ι} (hc : c ∈ eligible floor cs)
    (htop : (topScore (eligible floor cs)).isNaN = false) :
    c.score.AtMost (topScore (eligible floor cs)) := by
  apply Binary64.atMost_of_not_lt htop
  exact Binary64.not_foldl_max_lt (by decide) (List.mem_map.2 ⟨c, hc, rfl⟩)

/-- If there is anything above the floor, the top score is the highest. -/
theorem highest_topScore {c : Scored ι} (hc : c ∈ eligible floor cs) :
    Highest cs floor (topScore (eligible floor cs)) := by
  have hexceeds : Binary64.negInfinity < topScore (eligible floor cs) := by
    refine (Binary64.lt_foldl_max_iff (by decide)).2 (.inr ⟨c.score, ?_, ?_⟩)
    · exact List.mem_map.2 ⟨c, hc, rfl⟩
    · exact Binary64.negInfinity_lt (mem_eligible.1 hc).2
  refine ⟨?_, fun d hd habove => ?_⟩
  · -- it is not the number that the maximum starts from
    rcases List.mem_cons.1 (Binary64.foldl_max_mem
      ((eligible floor cs).map (·.score)) Binary64.negInfinity) with h | h
    · unfold topScore at hexceeds
      rw [h] at hexceeds
      exact absurd hexceeds (Binary64.lt_irrefl _)
    · obtain ⟨d, hd, heq⟩ := List.mem_map.1 h
      obtain ⟨hmem, habove⟩ := mem_eligible.1 hd
      exact ⟨d, hmem, habove, heq⟩
  · exact (atMost_topScore (mem_eligible.2 ⟨hd, habove⟩)
      (Binary64.isNaN_of_lt hexceeds)).le (Binary64.isNaN_of_lt habove)
      (Binary64.isNaN_of_lt hexceeds)

end Scored

-- =========================================================== the choice

open Scored

/-- What a choice has to be, for a highest score `top`. -/
structure Choice.IsBest (cs : List (Scored ι)) (floor margin top : Binary64)
    (choice : Choice ι) : Prop where
  mem : choice.best ∈ cs
  above : floor < choice.best.score
  near : top - choice.best.score ≤ margin
  /-- All candidates that are tied are counted. -/
  tied : choice.tied
    = cs.countP fun c => floor < c.score ∧ top - c.score ≤ margin
  /-- Any other tied candidate is less similar, or as similar and has a
  greater name. -/
  foremost : ∀ c ∈ cs, floor < c.score → top - c.score ≤ margin →
    c ≠ choice.best →
      Binary64.totalCompare c.similarity choice.best.similarity = .lt
        ∨ c.similarity = choice.best.similarity
          ∧ compare choice.best.id c.id = .lt

theorem Scored.precedence_eq_lt_iff {a b : Scored ι} :
    precedence a b = .lt
      ↔ Binary64.totalCompare b.similarity a.similarity = .lt
        ∨ b.similarity = a.similarity ∧ compare a.id b.id = .lt := by
  unfold precedence
  rw [Ordering.then_eq_lt, Binary64.totalCompare_eq_iff]

/-- There is at most one best choice, whichever zero the highest score
is. -/
theorem Choice.IsBest.unique {top' : Binary64} {choice' : Choice ι}
    (hrank : top.rank = top'.rank) (h : choice.IsBest cs floor margin top)
    (h' : choice'.IsBest cs floor margin top') : choice = choice' := by
  have hnear (c : Scored ι) : top - c.score ≤ margin ↔ top' - c.score ≤ margin :=
    Binary64.sub_le_iff_of_rank_eq hrank c.score margin
  have htied : choice.tied = choice'.tied := by
    rw [h.tied, h'.tied]
    simp only [hnear]
  have hbest : choice.best = choice'.best := by
    by_contra hne
    -- each of the two would come before the other
    have hlt := precedence_eq_lt_iff.2 (h.foremost _ h'.mem h'.above
      ((hnear _).2 h'.near) (Ne.symm hne))
    have hlt' := precedence_eq_lt_iff.2 (h'.foremost _ h.mem h.above
      ((hnear _).1 h.near) hne)
    rw [Std.OrientedCmp.gt_of_lt hlt] at hlt'
    cases hlt'
  obtain ⟨best, tied⟩ := choice
  obtain ⟨best', tied'⟩ := choice'
  congr

/-- The candidates that are tied, counted where they stand. -/
theorem length_within (floor margin top : Binary64) (cs : List (Scored ι)) :
    (within margin top (eligible floor cs)).length
      = cs.countP fun c => floor < c.score ∧ top - c.score ≤ margin := by
  unfold within eligible
  rw [List.filter_filter, List.countP_eq_length_filter]
  congr 2
  funext c
  rw [← Bool.decide_and, decide_eq_decide]
  exact and_comm

/-- How a choice comes about. -/
theorem pickBest_eq_some_iff :
    pickBest cs floor margin = some choice
      ↔ (topScore (eligible floor cs)).isFinite = true
        ∧ leastBy? precedence (within margin (topScore (eligible floor cs))
          (eligible floor cs)) = some choice.best
        ∧ choice.tied = (within margin (topScore (eligible floor cs))
          (eligible floor cs)).length := by
  obtain ⟨best, tied⟩ := choice
  unfold pickBest
  dsimp only
  by_cases hfinite : (topScore (eligible floor cs)).isFinite = true
  · rw [if_pos hfinite, Option.map_eq_some_iff]
    constructor
    · intro ⟨b, hb, heq⟩
      cases heq
      exact ⟨hfinite, hb, rfl⟩
    · intro ⟨_, hb, htied⟩
      exact ⟨best, hb, by rw [htied]⟩
  · rw [if_neg hfinite]
    simp [hfinite]

/-- What is chosen is best. -/
theorem pickBest_isBest (hid : (cs.map (·.id)).Nodup)
    (h : pickBest cs floor margin = some choice) :
    choice.IsBest cs floor margin (topScore (eligible floor cs)) := by
  obtain ⟨-, hbest, htied⟩ := pickBest_eq_some_iff.1 h
  obtain ⟨helig, hnear⟩ := mem_within.1 (mem_of_leastBy? hbest)
  obtain ⟨hmem, habove⟩ := mem_eligible.1 helig
  refine ⟨hmem, habove, hnear, ?_, fun c hc habove' hnear' hne => ?_⟩
  · rw [htied, length_within]
  · apply precedence_eq_lt_iff.1
    have hle := leastBy?_le hbest c
      (mem_within.2 ⟨mem_eligible.2 ⟨hc, habove'⟩, hnear'⟩)
    cases hcmp : precedence choice.best c with
    | lt => rfl
    | gt => exact absurd hcmp hle
    | eq =>
      have heq := List.inj_on_of_nodup_map hid hmem hc
        (id_eq_of_precedence hcmp)
      exact absurd heq.symm hne

/-- No candidate outscores the choice by more than the margin. -/
theorem pickBest_margin (hmargin : 0 ≤ margin)
    (h : pickBest cs floor margin = some choice) {c : Scored ι} (hc : c ∈ cs) :
    (c.score - choice.best.score).AtMost margin := by
  obtain ⟨hfinite, hbest, -⟩ := pickBest_eq_some_iff.1 h
  obtain ⟨helig, hnear⟩ := mem_within.1 (mem_of_leastBy? hbest)
  have habove := (mem_eligible.1 helig).2
  have hnumber := Binary64.isNaN_of_isFinite hfinite
  have hchosen : choice.best.score.isFinite = true :=
    (atMost_topScore helig hnumber).isFinite_of_lt hfinite habove
  by_cases hc' : floor < c.score
  · have hle := atMost_topScore (mem_eligible.2 ⟨hc, hc'⟩) hnumber
    exact (hle.sub hfinite hchosen).trans hnear.1 fun _ => hnear.2.2
  · have hle : c.score.AtMost choice.best.score :=
      (Binary64.atMost_of_not_lt habove.1 hc').trans habove.1
        fun _ => Int.le_of_lt habove.2.2
    have hzero := hle.sub hchosen hchosen
    rw [Binary64.sub_self_of_isFinite hchosen] at hzero
    exact hzero.trans Binary64.isNaN_zero fun _ => hmargin.2.2

/-- With finite scores and a margin that is not negative, there is a
choice as soon as anything is above the floor. -/
theorem exists_pickBest (hfinite : ∀ c ∈ cs, c.score.isFinite = true)
    (hmargin : 0 ≤ margin) {c : Scored ι} (hc : c ∈ cs)
    (habove : floor < c.score) :
    ∃ choice, pickBest cs floor margin = some choice := by
  obtain ⟨d, hd, habove', htop⟩ :=
    (highest_topScore (mem_eligible.2 ⟨hc, habove⟩)).reached
  have hfin : (topScore (eligible floor cs)).isFinite = true := by
    rw [← htop]
    exact hfinite d hd
  -- the one that scores highest is tied with itself
  have hself : d ∈ within margin (topScore (eligible floor cs))
      (eligible floor cs) := by
    refine mem_within.2 ⟨mem_eligible.2 ⟨hd, habove'⟩, ?_⟩
    rw [htop, Binary64.sub_self_of_isFinite hfin]
    exact hmargin
  cases hleast : leastBy? precedence (within margin
      (topScore (eligible floor cs)) (eligible floor cs)) with
  | none =>
    rw [leastBy?_eq_none_iff.1 hleast] at hself
    cases hself
  | some best =>
    exact ⟨⟨best, _⟩, pickBest_eq_some_iff.2 ⟨hfin, hleast, rfl⟩⟩

-- ========================================================== the theorem

/-- There is no choice just if nothing is above the floor; otherwise it
is the best one, and it is the same for every order of the candidates. -/
theorem pickBest_best (hid : (cs.map (·.id)).Nodup)
    (hfinite : ∀ c ∈ cs, c.score.isFinite = true) (hmargin : 0 ≤ margin) :
    (pickBest cs floor margin = none ↔ ∀ c ∈ cs, ¬floor < c.score)
      ∧ (∀ choice, pickBest cs floor margin = some choice
        ↔ ∃ top, Highest cs floor top ∧ choice.IsBest cs floor margin top)
      ∧ ∀ cs', cs.Perm cs' →
        pickBest cs' floor margin = pickBest cs floor margin := by
  refine ⟨⟨fun hnone c hc habove => ?_, fun hnot => ?_⟩,
    fun choice => ⟨fun h => ?_, fun h => ?_⟩,
    fun cs' hp => (pickBest_eq_of_perm hid hp).symm⟩
  · obtain ⟨choice, hchoice⟩ := exists_pickBest hfinite hmargin hc habove
    rw [hnone] at hchoice
    cases hchoice
  · rw [Option.eq_none_iff_forall_ne_some]
    intro choice hchoice
    obtain ⟨hmem, habove⟩ := mem_of_pickBest hchoice
    exact hnot _ hmem habove
  · have hbest := pickBest_isBest hid h
    exact ⟨_, highest_topScore (mem_eligible.2 ⟨hbest.mem, hbest.above⟩), hbest⟩
  · obtain ⟨top, hhighest, hbest⟩ := h
    obtain ⟨choice', hchoice'⟩ :=
      exists_pickBest hfinite hmargin hbest.mem hbest.above
    have hhighest' := highest_topScore
      (mem_eligible.2 ⟨hbest.mem, hbest.above⟩)
    rw [hbest.unique (hhighest.rank_eq hhighest') (pickBest_isBest hid hchoice')]
    exact hchoice'

/-- Candidates of which one scores highest, two tie with it and are more
similar, and one is at the floor. -/
def Sample.nearTie : List (Scored Nat) :=
  [⟨3, 5, 1⟩, ⟨2, 4, 2⟩, ⟨1, 4, 2⟩, ⟨0, 1, 9⟩]

/-- The first of the two is chosen, from either end of the list. -/
theorem pickBest_best_nearTie :
    pickBest Sample.nearTie.reverse 1 1 = some ⟨⟨1, 4, 2⟩, 3⟩
      ∧ ∃ top, Highest Sample.nearTie 1 top
        ∧ Choice.IsBest Sample.nearTie 1 1 top ⟨⟨1, 4, 2⟩, 3⟩ := by
  have hfacts : (∀ c ∈ Sample.nearTie, c.score.isFinite = true)
      ∧ (0 : Binary64) ≤ 1
      ∧ pickBest Sample.nearTie 1 1 = some ⟨⟨1, 4, 2⟩, 3⟩ := by decide +kernel
  obtain ⟨hfinite, hmargin, hchoice⟩ := hfacts
  obtain ⟨-, hbest, hperm⟩ := pickBest_best (by decide) hfinite hmargin
  refine ⟨?_, (hbest _).1 hchoice⟩
  rw [hperm _ (List.reverse_perm _).symm]
  exact hchoice

end SymbolMatch

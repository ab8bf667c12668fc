/-
What a round of propagation grants, and that the rounds come to an end.

A round collects proposals on the table as it stands and grants them on
the table as it changes. Several old classes may want one new class. The
proposals are gone through best first, and only a proposal for the same
class can take that class away, so the class goes to the best of them
(`granted_of_split`). None of it is lost: a class that is proposed is
claimed when the round is over.

# Best

Proposals are ordered by the total order of the scores. That is the
numeric order, because a combined score is a number and never the
negative zero (`voteScore_ne_negZero`).

# The measure

The first proposal of a round is always granted, so a round without a
grant had no proposal. Every grant pairs one more old class, so there are
no more of them than unmapped classes, and no more rounds with a grant.
-/
import SymbolMatch.Proofs.Matching.Report

namespace SymbolMatch

namespace Context

variable {ctx : Context} {t : Table} {p q w : Proposal}

-- ============================================================ proposals

namespace Proposal

/-- The new class that is proposed. -/
def target (p : Proposal) : String := p.choice.best.id

/-- The combined score of the proposal. -/
def score (p : Proposal) : Binary64 := p.choice.best.score

/-- A proposal comes before another: its score is higher, or it is the
same and its old class has the lesser name. -/
def Beats (p q : Proposal) : Prop :=
  q.score < p.score ∨ q.score = p.score ∧ compare p.old q.old = .lt

end Proposal

theorem mem_proposals :
    p ∈ ctx.proposals t
      ↔ ∃ old ∈ ctx.unmappedOld t, ctx.propose t old = some p := by
  unfold proposals
  rw [mem_sortBy, List.mem_filterMap]

/-- Both classes of a proposal are free on the table it is made on. -/
theorem free_of_mem_proposals (h : p ∈ ctx.proposals t) :
    p.old ∈ ctx.oldObfuscated ∧ t.isMapped p.old = false
      ∧ t.isClaimed p.target = false := by
  obtain ⟨old, hold, hp⟩ := mem_proposals.1 h
  obtain ⟨heq, hopen, -⟩ := of_propose hp
  obtain ⟨hobf, hfree⟩ := mem_unmappedOld.1 hold
  obtain ⟨-, -, hunclaimed⟩ := isOpen_iff.1 hopen
  rw [heq]
  exact ⟨hobf, hfree, hunclaimed⟩

/-- An old class makes one proposal. -/
theorem eq_of_old_eq (hp : p ∈ ctx.proposals t) (hq : q ∈ ctx.proposals t)
    (h : p.old = q.old) : p = q :=
  eq_of_mem_proposals (mem_sortBy.1 hp) (mem_sortBy.1 hq) h

-- =============================================================== scores

/-- No combined score is the negative zero: the share of the votes has no
sign, whatever the similarity is. -/
theorem voteScore_ne_negZero (vote possible : Nat) (similarity : Binary64) :
    voteScore vote possible similarity ≠ .negZero := by
  unfold voteScore
  apply Binary64.add_ne_negZero
  exact Binary64.mul_sign (.inr rfl) (Binary64.div_ofNat_sign vote possible)

/-- The score of a proposal combines votes and similarity. -/
theorem score_of_propose {old : String} (h : ctx.propose t old = some p) :
    ∃ vote, (ctx.neighbourVotes t old).votes.get? p.target = some vote
      ∧ p.score = voteScore vote (ctx.neighbourVotes t old).possible
        (ctx.similarity old p.target) := by
  unfold propose at h
  dsimp only at h
  split at h
  · next choice hchoice =>
    split at h
    · cases h
      obtain ⟨e, he, hbest⟩ := List.mem_map.1 (mem_of_pickBest hchoice).1
      refine ⟨e.2, ?_, ?_⟩
      · show _ = some e.2
        unfold Proposal.target
        rw [← hbest]
        exact OrdMap.get?_eq_some_iff.2 he
      · unfold Proposal.score Proposal.target
        rw [← hbest]
    · cases h
  · cases h

theorem score_of_mem_proposals (h : p ∈ ctx.proposals t) :
    p.score.isNaN = false
      ∧ ∃ vote, (ctx.neighbourVotes t p.old).votes.get? p.target = some vote
        ∧ p.score = voteScore vote (ctx.neighbourVotes t p.old).possible
          (ctx.similarity p.old p.target) := by
  obtain ⟨old, hold, hp⟩ := mem_proposals.1 h
  obtain ⟨heq, -, hbar⟩ := of_propose hp
  refine ⟨Binary64.isNaN_of_lt hbar, ?_⟩
  rw [heq]
  exact score_of_propose hp

/-- What is not behind another proposal is that proposal or beats it. -/
theorem eq_or_beats (hp : p ∈ ctx.proposals t) (hq : q ∈ ctx.proposals t)
    (h : p.precedence q ≠ .gt) : q = p ∨ p.Beats q := by
  obtain ⟨hnumber, -⟩ := score_of_mem_proposals hp
  obtain ⟨hnumber', vote, -, hscore⟩ := score_of_mem_proposals hq
  have hzero : q.score ≠ .negZero := by
    rw [hscore]
    exact voteScore_ne_negZero _ _ _
  unfold Proposal.precedence at h
  cases hcmp : Binary64.totalCompare q.score p.score with
  | lt => exact .inr (.inl (Binary64.lt_of_totalCompare hcmp hnumber' hnumber hzero))
  | gt =>
    rw [show Binary64.totalCompare q.choice.best.score p.choice.best.score = .gt
      from hcmp] at h
    exact absurd rfl h
  | eq =>
    have hsame := Binary64.totalCompare_eq_iff.1 hcmp
    rw [show Binary64.totalCompare q.choice.best.score p.choice.best.score = .eq
      from hcmp] at h
    cases hold : compare p.old q.old with
    | lt => exact .inr (.inr ⟨hsame, hold⟩)
    | gt =>
      rw [hold] at h
      exact absurd rfl h
    | eq =>
      exact .inl (eq_of_old_eq hq hp (Std.LawfulEqOrd.eq_of_compare hold).symm)

-- =============================================================== grants

variable {ps : List Proposal}

theorem grant_refused (t : Table) (p : Proposal) (h : (grant t p).1 = false) :
    (grant t p).2 = t := Table.claim_refused h

theorem grant_granted_iff :
    (grant t p).1 = true
      ↔ t.isMapped p.old = false ∧ t.isClaimed p.target = false :=
  Table.claim_granted_iff

theorem get?_grant (h : (grant t p).1 = true) (k : String) :
    (grant t p).2.get? k
      = if k = p.old then some ⟨p.target, p.score, .propagated⟩
        else t.get? k :=
  Table.get?_claim h k

theorem oldOf?_grant (h : (grant t p).1 = true) (n : String) :
    (grant t p).2.oldOf? n = if n = p.target then some p.old else t.oldOf? n :=
  Table.oldOf?_claim h n

/-- Grants pair only the old classes of the proposals. -/
theorem isMapped_sweep_grant {k : String} (hfree : t.isMapped k = false)
    (hother : ∀ p ∈ ps, p.old ≠ k) :
    (t.sweep grant ps).2.isMapped k = false := by
  refine Table.sweep_induction (P := fun t => t.isMapped k = false) ?_ hfree
  intro t₁ p hp ht₁
  cases hg : (grant t₁ p).1 with
  | false =>
    rw [grant_refused t₁ p hg]
    exact ht₁
  | true =>
    rw [Table.isMapped_eq, get?_grant hg, if_neg (Ne.symm (hother p hp))]
    exact ht₁

/-- Grants give away only what is proposed. -/
theorem isClaimed_sweep_grant {n : String} (hfree : t.isClaimed n = false)
    (hother : ∀ p ∈ ps, p.target ≠ n) :
    (t.sweep grant ps).2.isClaimed n = false := by
  refine Table.sweep_induction (P := fun t => t.isClaimed n = false) ?_ hfree
  intro t₁ p hp ht₁
  cases hg : (grant t₁ p).1 with
  | false =>
    rw [grant_refused t₁ p hg]
    exact ht₁
  | true =>
    rw [Table.isClaimed_eq, oldOf?_grant hg, if_neg (Ne.symm (hother p hp))]
    exact ht₁

/-- A proposal that no earlier one is in the way of is granted, and the
later ones leave it alone. -/
theorem granted_of_split {before : List Proposal} (after : List Proposal)
    (hmapped : t.isMapped w.old = false)
    (hclaimed : t.isClaimed w.target = false)
    (hold : ∀ p ∈ before, p.old ≠ w.old)
    (htarget : ∀ p ∈ before, p.target ≠ w.target) :
    (t.sweep grant (before ++ w :: after)).2.get? w.old
        = some ⟨w.target, w.score, .propagated⟩
      ∧ (t.sweep grant (before ++ w :: after)).2.oldOf? w.target
        = some w.old := by
  rw [Table.sweep_append, Table.sweep_cons]
  have hgranted : (grant (t.sweep grant before).2 w).1 = true :=
    grant_granted_iff.2 ⟨isMapped_sweep_grant hmapped hold,
      isClaimed_sweep_grant hclaimed htarget⟩
  constructor
  · refine Table.sweep_induction (P := fun t => t.get? w.old
      = some ⟨w.target, w.score, .propagated⟩) ?_ ?_
    · exact fun t₁ p _ ht₁ => Table.get?_claim_of_some ht₁
    · rw [get?_grant hgranted, if_pos rfl]
  · refine Table.sweep_induction (P := fun t => t.oldOf? w.target
      = some w.old) ?_ ?_
    · exact fun t₁ p _ ht₁ => Table.oldOf?_claim_of_some ht₁
    · rw [oldOf?_grant hgranted, if_pos rfl]

/-- A class that is proposed goes to the best of its proposers. -/
theorem exists_granted (hp : p ∈ ctx.proposals t) :
    ∃ w ∈ ctx.proposals t, w.target = p.target
      ∧ (ctx.propagateOnce t).2.get? w.old
        = some ⟨w.target, w.score, .propagated⟩
      ∧ (ctx.propagateOnce t).2.oldOf? w.target = some w.old
      ∧ ∀ q ∈ ctx.proposals t, q.target = w.target → q = w ∨ w.Beats q := by
  -- the first proposal for the class
  obtain ⟨w, hw⟩ : ∃ w, (ctx.proposals t).find? (·.target == p.target) = some w :=
    Option.isSome_iff_exists.1 (List.find?_isSome.2 ⟨p, hp, beq_self_eq_true _⟩)
  obtain ⟨hsame, before, after, hsplit, hbefore⟩ :=
    List.find?_eq_some_iff_append.1 hw
  rw [beq_iff_eq] at hsame
  have hmem : w ∈ ctx.proposals t := List.mem_of_find?_eq_some hw
  have htarget : ∀ q ∈ before, q.target ≠ w.target := by
    intro q hq heq
    have hnot := hbefore q hq
    rw [heq, hsame] at hnot
    simp at hnot
  have hold : ∀ q ∈ before, q.old ≠ w.old := by
    intro q hq heq
    have hqmem : q ∈ ctx.proposals t := by
      rw [hsplit]
      exact List.mem_append_left _ hq
    exact htarget q hq (by rw [eq_of_old_eq hqmem hmem heq])
  obtain ⟨-, hmapped, hclaimed⟩ := free_of_mem_proposals hmem
  obtain ⟨hget, holdOf⟩ :=
    granted_of_split after hmapped hclaimed hold htarget
  have hround : ctx.propagateOnce t = t.sweep grant (before ++ w :: after) := by
    unfold propagateOnce
    rw [hsplit]
  rw [hround]
  refine ⟨w, hmem, hsame, hget, holdOf, fun q hq heq => ?_⟩
  have hsorted : (ctx.proposals t).Pairwise fun a b => a.precedence b ≠ .gt :=
    sortBy_sorted _
  apply eq_or_beats hmem hq
  rw [hsplit] at hq hsorted
  rcases List.mem_append.1 hq with hq | hq
  · exact absurd heq (htarget q hq)
  · rcases List.mem_cons.1 hq with hq | hq
    · rw [hq, show w.precedence w = .eq from Std.ReflCmp.compare_self]
      decide
    · rw [List.pairwise_append, List.pairwise_cons] at hsorted
      exact hsorted.2.1.1 q hq

-- ========================================================== convergence

/-- A round with a proposal grants its first one. -/
theorem propagateOnce_eq_zero_iff :
    (ctx.propagateOnce t).1 = 0
      ↔ ∀ old ∈ ctx.unmappedOld t, ctx.propose t old = none := by
  have hnil : ctx.proposals t = []
      ↔ ∀ old ∈ ctx.unmappedOld t, ctx.propose t old = none := by
    rw [List.eq_nil_iff_forall_not_mem]
    constructor
    · intro h old hold
      rw [Option.eq_none_iff_forall_ne_some]
      exact fun p hp => h p (mem_proposals.2 ⟨old, hold, hp⟩)
    · intro h p hp
      obtain ⟨old, hold, hp⟩ := mem_proposals.1 hp
      rw [h old hold] at hp
      cases hp
  rw [← hnil]
  unfold propagateOnce
  cases hlist : ctx.proposals t with
  | nil => exact ⟨fun _ => rfl, fun _ => rfl⟩
  | cons p rest =>
    obtain ⟨-, hmapped, hclaimed⟩ :=
      free_of_mem_proposals (hlist ▸ List.mem_cons_self : p ∈ ctx.proposals t)
    rw [Table.sweep_cons, grant_granted_iff.2 ⟨hmapped, hclaimed⟩,
      Bool.toNat_true]
    simp

/-- How many old classes have no pair yet. -/
def unmappedCount (ctx : Context) (t : Table) : Nat :=
  (ctx.unmappedOld t).length

/-- A grant leaves one unmapped class less. -/
theorem grant_spends (hold : p.old ∈ ctx.oldObfuscated) (t : Table) :
    (grant t p).1.toNat + ctx.unmappedCount (grant t p).2
      ≤ ctx.unmappedCount t := by
  unfold unmappedCount
  cases hg : (grant t p).1 with
  | false =>
    rw [grant_refused t p hg]
    simp
  | true =>
    have hrest : ctx.unmappedOld (grant t p).2
        = (ctx.unmappedOld t).filter (· ≠ p.old) := by
      unfold unmappedOld
      rw [List.filter_filter]
      apply List.filter_congr
      intro k _
      rw [Table.isMapped_eq, Table.isMapped_eq, get?_grant hg]
      by_cases hk : k = p.old
      · simp [hk]
      · simp [hk]
    have hmem : p.old ∈ ctx.unmappedOld t :=
      mem_unmappedOld.2 ⟨hold, (grant_granted_iff.1 hg).1⟩
    have hlt : ((ctx.unmappedOld t).filter (· ≠ p.old)).length
        < (ctx.unmappedOld t).length :=
      List.length_filter_lt_length_iff_exists.2 ⟨p.old, hmem, by simp⟩
    rw [hrest, Bool.toNat_true]
    omega

/-- With as many rounds as unmapped classes, propagation ends in a table
that another round does not change. -/
theorem propagateOnce_at_rest
    (hrounds : ctx.unmappedCount t ≤ ctx.settings.propagationRounds) :
    ctx.propagateOnce (ctx.propagate t).2 = (0, (ctx.propagate t).2) := by
  refine Table.rounds_at_rest ctx.unmappedCount
    (P := fun _ => True) (fun _ _ => trivial) ?_ ?_ trivial hrounds
  · intro t₁ _
    exact Table.sweep_spends
      (fun t₂ p hp => grant_spends (free_of_mem_proposals hp).1 t₂) t₁
  · intro t₁ hcount
    exact Table.sweep_idle grant_refused hcount

-- ========================================================== the theorem

/-- In a round every class that some unmapped old class proposes is
claimed, by the proposer with the highest combined score, and of several
such the one with the least name. A round grants nothing just if nothing
is proposed. With as many rounds as unmapped classes nothing is left to
propose, and to propagate again changes nothing. -/
theorem propagation_loses_no_proposal (ctx : Context) (t : Table) :
    (∀ p ∈ ctx.proposals t, ∃ w ∈ ctx.proposals t, w.target = p.target
      ∧ (ctx.propagateOnce t).2.get? w.old
        = some ⟨w.target, w.score, .propagated⟩
      ∧ (ctx.propagateOnce t).2.oldOf? w.target = some w.old
      ∧ ∀ q ∈ ctx.proposals t, q.target = w.target → q = w ∨ w.Beats q)
      ∧ (∀ p, p ∈ ctx.proposals t
        ↔ ∃ old ∈ ctx.unmappedOld t, ctx.propose t old = some p)
      ∧ (∀ p ∈ ctx.proposals t, ∃ vote,
        (ctx.neighbourVotes t p.old).votes.get? p.target = some vote
          ∧ p.score = voteScore vote (ctx.neighbourVotes t p.old).possible
            (ctx.similarity p.old p.target))
      ∧ ((ctx.propagateOnce t).1 = 0
        ↔ ∀ old ∈ ctx.unmappedOld t, ctx.propose t old = none)
      ∧ ((ctx.unmappedOld t).length ≤ ctx.settings.propagationRounds →
        (∀ old ∈ ctx.unmappedOld (ctx.propagate t).2,
          ctx.propose (ctx.propagate t).2 old = none)
        ∧ ctx.propagate (ctx.propagate t).2 = (0, (ctx.propagate t).2)) := by
  refine ⟨fun p hp => exists_granted hp, fun p => mem_proposals,
    fun p hp => (score_of_mem_proposals hp).2, propagateOnce_eq_zero_iff,
    fun hrounds => ?_⟩
  have hrest := propagateOnce_at_rest hrounds
  refine ⟨?_, Table.rounds_eq_self hrest _⟩
  apply propagateOnce_eq_zero_iff.1
  rw [hrest]

end Context

-- =============================================================== sample

namespace Sample

/-- Two old classes, held by `u` and `v`, of which the new build has kept
one. -/
def rivalsRun : Context :=
  .ofSnapshots .default
    ⟨[holder "u" ["a"], holder "v" ["b"], bare "a", bare "b"]⟩
    ⟨[holder "p" ["x"], holder "q" ["x"], bare "x"]⟩

/-- A table that has their holders paired. -/
def rivalsTable : Table :=
  Table.replay {} [.claim "u" "p" 0.9 .anchor, .claim "v" "q" 0.9 .anchor]

end Sample

namespace Context

/-- Both want the class that is left. The one with the lesser name gets
it, and the other has nothing left to propose. -/
theorem propagation_loses_no_proposal_rivals :
    (Sample.rivalsRun.propagate Sample.rivalsTable).2.oldOf? "x" = some "a"
      ∧ Sample.rivalsRun.unmappedOld
          (Sample.rivalsRun.propagate Sample.rivalsTable).2 = ["b"]
      ∧ Sample.rivalsRun.propose
          (Sample.rivalsRun.propagate Sample.rivalsTable).2 "b" = none
      ∧ Sample.rivalsRun.propagate
          (Sample.rivalsRun.propagate Sample.rivalsTable).2
        = (0, (Sample.rivalsRun.propagate Sample.rivalsTable).2) := by
  have hfacts :
      (Sample.rivalsRun.propagate Sample.rivalsTable).2.oldOf? "x" = some "a"
        ∧ Sample.rivalsRun.unmappedOld
            (Sample.rivalsRun.propagate Sample.rivalsTable).2 = ["b"]
        ∧ (Sample.rivalsRun.unmappedOld Sample.rivalsTable).length
          ≤ Sample.rivalsRun.settings.propagationRounds := by decide +kernel
  obtain ⟨hgranted, hleft, hrounds⟩ := hfacts
  obtain ⟨-, -, -, -, hrest⟩ :=
    propagation_loses_no_proposal Sample.rivalsRun Sample.rivalsTable
  obtain ⟨hnone, hagain⟩ := hrest hrounds
  refine ⟨hgranted, hleft, hnone "b" ?_, hagain⟩
  rw [hleft]
  exact List.mem_cons_self

end Context

end SymbolMatch

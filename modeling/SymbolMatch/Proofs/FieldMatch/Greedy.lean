/-
The assignment of fields without its run.

A greedy choice among the pairs on offer (`Greedy`) takes no field twice,
and whatever it leaves out meets a pair that it takes and that goes
before. The run over the sorted pairs makes such a choice, and there is
no other: two choices agree on the first pair of the run, and if they
agree on all that goes before a pair they agree on the pair. So the
assignment depends on which pairs are on offer and on nothing else.

A threshold cuts the order of the pairs in two. What goes before a pair
above it is above it too, so the pairs that beat a pair under a lower
threshold are still there under a higher one, and the choice for the
higher one is what is left of the choice for the lower one.
-/
import Mathlib.Data.List.Induction
import Mathlib.Data.Set.Basic
import SymbolMatch.Proofs.FieldMatch.Assignment
import SymbolMatch.Proofs.Number.Bounds

namespace SymbolMatch.FieldResolution

variable {r : FieldResolution} {threshold : Binary64} {p q : Pair}

-- ========================================================= the property

/-- The two fields of a pair. -/
def Pair.fields (p : Pair) : Member × Member := (p.old, p.candidate.new)

/-- Two pairs have a field in common. -/
def Pair.Meets (p q : Pair) : Prop :=
  p.old = q.old ∨ p.candidate.new = q.candidate.new

/-- The candidate pairs that score above a threshold. -/
def Offers (r : FieldResolution) (threshold : Binary64) (p : Pair) : Prop :=
  p.candidate ∈ r.candidatesFor p.old ∧ threshold < p.candidate.score

/-- A greedy choice among the pairs above a threshold: no field is chosen
twice, and whatever is left out meets a chosen pair that goes before. -/
structure Greedy (r : FieldResolution) (threshold : Binary64)
    (chosen : Set (Member × Member)) : Prop where
  offered : ∀ k ∈ chosen, ∃ p, r.Offers threshold p ∧ p.fields = k
  oldOnce : ∀ x m n, (x, m) ∈ chosen → (x, n) ∈ chosen → m = n
  newOnce : ∀ x y n, (x, n) ∈ chosen → (y, n) ∈ chosen → x = y
  beaten : ∀ p, r.Offers threshold p → p.fields ∉ chosen →
    ∃ q, r.Offers threshold q ∧ q.fields ∈ chosen
      ∧ q.precedence p = .lt ∧ q.Meets p

/-- The pairs of an assignment. -/
def assigned (r : FieldResolution) (threshold : Binary64) :
    Set (Member × Member) :=
  { k | (r.assign threshold).get? k.1 = some k.2 }

/-- The run goes through the pairs on offer. -/
theorem mem_pairsAbove_iff_offers :
    p ∈ r.pairsAbove threshold ↔ r.Offers threshold p := by
  rw [mem_pairsAbove]
  apply and_congr_left
  intro _
  unfold candidatesFor OrdMap.getD
  cases r.candidates.get? p.old with
  | none => simp
  | some list => simp

/-- What goes before a pair comes up before it. -/
theorem mem_before_of_precedence {before after : List Pair}
    (hsplit : r.pairsAbove threshold = before ++ p :: after)
    (hq : r.Offers threshold q) (hlt : q.precedence p = .lt) :
    q ∈ before := by
  have hmem := mem_pairsAbove_iff_offers.2 hq
  have hsorted := r.sorted_pairsAbove threshold
  rw [hsplit] at hmem hsorted
  rcases List.mem_append.1 hmem with hbefore | hbehind
  · exact hbefore
  · exfalso
    rcases List.mem_cons.1 hbehind with heq | hafter
    · have hself : p.precedence p = .eq := Std.ReflCmp.compare_self
      rw [heq, hself] at hlt
      cases hlt
    · have hle := (List.pairwise_cons.1 (List.pairwise_append.1 hsorted).2.1).1
        q hafter
      exact hle (Std.OrientedCmp.gt_of_lt hlt)

-- =========================================================== uniqueness

namespace Greedy

variable {chosen other : Set (Member × Member)}

/-- Chosen pairs that meet are the same. -/
theorem eq_of_meets (h : r.Greedy threshold chosen)
    (hp : p.fields ∈ chosen) (hq : q.fields ∈ chosen) (hmeets : p.Meets q) :
    p.fields = q.fields := by
  unfold Pair.fields at hp hq ⊢
  rcases hmeets with hold | hnew
  · rw [hold] at hp ⊢
    rw [h.oldOnce _ _ _ hp hq]
  · rw [hnew] at hp ⊢
    rw [h.newOnce _ _ _ hp hq]

/-- Choices that agree on all that goes before a pair agree on the
pair. -/
theorem mem_of_mem (h : r.Greedy threshold chosen)
    (h' : r.Greedy threshold other) (hp : r.Offers threshold p)
    (hbefore : ∀ q, r.Offers threshold q → q.precedence p = .lt →
      (q.fields ∈ chosen ↔ q.fields ∈ other))
    (hmem : p.fields ∈ chosen) : p.fields ∈ other := by
  by_contra hout
  obtain ⟨q, hq, hqmem, hlt, hmeets⟩ := h'.beaten p hp hout
  have hqchosen := (hbefore q hq hlt).2 hqmem
  rw [h.eq_of_meets hqchosen hmem hmeets] at hqmem
  exact hout hqmem

/-- Choices agree on every pair, from the first of the run to the
last. -/
theorem agree (h : r.Greedy threshold chosen)
    (h' : r.Greedy threshold other) {before after : List Pair}
    (hsplit : r.pairsAbove threshold = before ++ after) :
    ∀ q ∈ before, (q.fields ∈ chosen ↔ q.fields ∈ other) := by
  induction before using List.reverseRecOn generalizing after with
  | nil =>
    intro q hq
    cases hq
  | append_singleton before p ih =>
    rw [List.append_assoc, List.singleton_append] at hsplit
    have hbefore := ih hsplit
    have hp : r.Offers threshold p := by
      rw [← mem_pairsAbove_iff_offers, hsplit]
      simp
    intro q hq
    rcases List.mem_append.1 hq with hq | hq
    · exact hbefore q hq
    · rw [List.mem_singleton.1 hq]
      have hearlier (q : Pair) (hq : r.Offers threshold q)
          (hlt : q.precedence p = .lt) :
          q.fields ∈ chosen ↔ q.fields ∈ other :=
        hbefore q (mem_before_of_precedence hsplit hq hlt)
      constructor
      · exact h.mem_of_mem h' hp hearlier
      · exact h'.mem_of_mem h hp fun q hq hlt => (hearlier q hq hlt).symm

/-- There is one greedy choice. -/
theorem unique (h : r.Greedy threshold chosen)
    (h' : r.Greedy threshold other) : chosen = other := by
  have hagree (p : Pair) (hp : r.Offers threshold p) :
      p.fields ∈ chosen ↔ p.fields ∈ other :=
    h.agree h' (List.append_nil _).symm p (mem_pairsAbove_iff_offers.2 hp)
  ext k
  constructor
  · intro hk
    obtain ⟨p, hp, rfl⟩ := h.offered k hk
    exact (hagree p hp).1 hk
  · intro hk
    obtain ⟨p, hp, rfl⟩ := h'.offered k hk
    exact (hagree p hp).2 hk

end Greedy

-- =============================================================== the run

/-- The run makes the greedy choice. -/
theorem greedy_assigned (r : FieldResolution) (threshold : Binary64) :
    r.Greedy threshold (r.assigned threshold) where
  offered k hk := by
    obtain ⟨p, hp, hold, hnew⟩ := of_get?_assign hk
    refine ⟨p, mem_pairsAbove_iff_offers.1 hp, ?_⟩
    unfold Pair.fields
    rw [hold, hnew]
  oldOnce x m n hm hn := Option.some.inj (hm.symm.trans hn)
  newOnce x y n hx hy := assign_injective hx hy
  beaten p hp hout := by
    obtain ⟨before, after, hsplit⟩ :=
      List.append_of_mem (mem_pairsAbove_iff_offers.2 hp)
    rcases taken_or_beaten hsplit with htaken | ⟨q, hq, hassigned, hmeets⟩
    · exact absurd htaken hout
    · have hoffered : q ∈ r.pairsAbove threshold := by
        rw [hsplit]
        exact List.mem_append_left _ hq
      refine ⟨q, mem_pairsAbove_iff_offers.1 hoffered, hassigned, ?_, hmeets⟩
      cases hcompare : q.precedence p with
      | lt => rfl
      | eq =>
        -- of one pair that is listed twice either both are taken or none
        obtain ⟨-, hold, hnew⟩ := Pair.eq_of_precedence hcompare
        rw [hold, hnew] at hassigned
        exact absurd hassigned hout
      | gt => exact absurd hcompare (precedence_ne_gt_of_split hsplit hq)

/-- Resolutions that offer the same pairs are assigned in the same
way. -/
theorem assign_eq_of_offers {r' : FieldResolution}
    (h : ∀ p, r'.Offers threshold p ↔ r.Offers threshold p) :
    r'.assign threshold = r.assign threshold := by
  have hgreedy : r.Greedy threshold (r'.assigned threshold) := by
    have hrun := greedy_assigned r' threshold
    refine ⟨?_, hrun.oldOnce, hrun.newOnce, ?_⟩
    · intro k hk
      obtain ⟨p, hp, hfields⟩ := hrun.offered k hk
      exact ⟨p, (h p).1 hp, hfields⟩
    · intro p hp hout
      obtain ⟨q, hq, hbeats⟩ := hrun.beaten p ((h p).2 hp) hout
      exact ⟨q, (h q).1 hq, hbeats⟩
  have hsets := hgreedy.unique (greedy_assigned r threshold)
  refine OrdMap.ext_get? fun x => Option.ext fun n => ?_
  exact Set.ext_iff.1 hsets (x, n)

/-- The assignment is the one greedy choice among the candidate pairs
above the threshold, whatever the order of the candidates in their
lists. -/
theorem greedy_iff_assigned (r : FieldResolution) (threshold : Binary64) :
    (∀ chosen, r.Greedy threshold chosen ↔ chosen = r.assigned threshold)
      ∧ ∀ r' : FieldResolution,
        (∀ old, (r'.candidatesFor old).Perm (r.candidatesFor old)) →
          r'.assign threshold = r.assign threshold := by
  constructor
  · intro chosen
    constructor
    · intro h
      exact h.unique (greedy_assigned r threshold)
    · intro h
      rw [h]
      exact greedy_assigned r threshold
  · intro r' hperm
    apply assign_eq_of_offers
    intro p
    unfold Offers
    rw [(hperm p.old).mem_iff]

-- ============================================================ thresholds

/-- The highest score of the candidates that pair two fields. -/
def bestScore (r : FieldResolution) (old new : Member) : Binary64 :=
  (((r.candidatesFor old).filter (·.new = new)).map (·.score)).foldl max
    Binary64.negInfinity

variable {lower higher : Binary64} {old new : Member}

/-- Two fields have a score above a threshold exactly if a pair of them is
on offer. -/
theorem lt_bestScore_iff :
    threshold < r.bestScore old new
      ↔ ∃ p, r.Offers threshold p ∧ p.fields = (old, new) := by
  have hlowest : ¬threshold < Binary64.negInfinity := by
    intro hlt
    exact (Binary64.atMost_of_negInfinity rfl (by decide) hlt.1).not_lt hlt
  unfold bestScore
  rw [Binary64.lt_foldl_max_iff (by decide)]
  simp only [hlowest, false_or, List.mem_map, List.mem_filter,
    decide_eq_true_eq]
  constructor
  · rintro ⟨y, ⟨c, ⟨hc, hnew⟩, rfl⟩, hlt⟩
    exact ⟨⟨old, c⟩, ⟨hc, hlt⟩, by rw [← hnew]; rfl⟩
  · rintro ⟨p, ⟨hc, hlt⟩, hfields⟩
    obtain ⟨rfl, rfl⟩ := Prod.mk.inj hfields
    exact ⟨_, ⟨p.candidate, ⟨hc, rfl⟩, rfl⟩, hlt⟩

/-- What goes before a pair is above every threshold that the pair is
above. -/
theorem Offers.of_precedence (hq : r.Offers lower q)
    (hp : r.Offers higher p) (hlt : q.precedence p = .lt) :
    r.Offers higher q := by
  have hrank : p.candidate.score.totalRank ≤ q.candidate.score.totalRank := by
    by_contra hnot
    have hgt : Binary64.totalCompare p.candidate.score q.candidate.score
        = .gt := Int.compare_eq_gt.2 (by omega)
    unfold Pair.precedence at hlt
    rw [hgt] at hlt
    cases hlt
  exact ⟨hq.1, Binary64.lt_of_lt_of_totalRank_le hp.2 hrank
    (Binary64.isNaN_of_lt hq.2)⟩

/-- What is above a threshold is above every lower one. -/
theorem Offers.of_le (h : lower ≤ higher) (hp : r.Offers higher p) :
    r.Offers lower p :=
  ⟨hp.1, h.1, hp.2.2.1, Int.lt_of_le_of_lt h.2.2 hp.2.2.2⟩

/-- The pairs of the lower threshold that are above the higher one are
the choice for the higher one. -/
theorem greedy_of_le (h : lower ≤ higher) :
    r.Greedy higher
      { k | k ∈ r.assigned lower ∧ ∃ p, r.Offers higher p ∧ p.fields = k } := by
  have hrun := greedy_assigned r lower
  refine ⟨fun k hk => hk.2, fun x m n hm hn => hrun.oldOnce x m n hm.1 hn.1,
    fun x y n hx hy => hrun.newOnce x y n hx.1 hy.1, fun p hp hout => ?_⟩
  have hleft : p.fields ∉ r.assigned lower := by
    intro hmem
    exact hout ⟨hmem, p, hp, rfl⟩
  obtain ⟨q, hq, hmem, hlt, hmeets⟩ := hrun.beaten p (hp.of_le h) hleft
  have habove := hq.of_precedence hp hlt
  exact ⟨q, habove, ⟨hmem, q, habove, rfl⟩, hlt, hmeets⟩

/-- A higher threshold keeps exactly the pairs of a lower one that have a
score above it, and assigns no field to another. -/
theorem assign_of_higher_threshold (r : FieldResolution)
    (lower higher : Binary64) (h : lower ≤ higher) :
    (∀ old new, (r.assign higher).get? old = some new
      ↔ (r.assign lower).get? old = some new
        ∧ higher < r.bestScore old new)
    ∧ ∀ old new, (r.assign higher).get? old = some new →
        (r.assign lower).get? old = some new := by
  have hsets := (greedy_assigned r higher).unique (greedy_of_le h)
  have hiff (old new : Member) : (r.assign higher).get? old = some new
      ↔ (r.assign lower).get? old = some new
        ∧ higher < r.bestScore old new := by
    rw [lt_bestScore_iff]
    exact Set.ext_iff.1 hsets (old, new)
  exact ⟨hiff, fun old new hassigned => ((hiff old new).1 hassigned).1⟩

end SymbolMatch.FieldResolution

-- =============================================================== sample

namespace SymbolMatch.Sample

def intField (name : String) : Member := ⟨"M", name, "I"⟩

/-- Two old fields that both go for `x`. The first gets it, and the other
is left with a weak candidate. -/
def contest : FieldResolution where
  candidates := OrdMap.ofList
    [(intField "a",
        [⟨intField "x", 0.9, false, none⟩, ⟨intField "y", 0.8, false, none⟩]),
      (intField "b",
        [⟨intField "x", 0.85, false, none⟩, ⟨intField "y", 0.3, false, none⟩])]

end SymbolMatch.Sample

namespace SymbolMatch.FieldResolution

theorem assign_of_higher_threshold_contest :
    (0.25 : Binary64) ≤ 0.5
      ∧ (Sample.contest.assign 0.25).get? (Sample.intField "a")
        = some (Sample.intField "x")
      ∧ (Sample.contest.assign 0.5).get? (Sample.intField "a")
        = some (Sample.intField "x")
      ∧ (Sample.contest.assign 0.25).get? (Sample.intField "b")
        = some (Sample.intField "y")
      ∧ (Sample.contest.assign 0.5).get? (Sample.intField "b")
        ≠ some (Sample.intField "y") := by
  have hfacts : (0.25 : Binary64) ≤ 0.5
      ∧ (Sample.contest.assign 0.5).get? (Sample.intField "a")
        = some (Sample.intField "x")
      ∧ (Sample.contest.assign 0.25).get? (Sample.intField "b")
        = some (Sample.intField "y")
      ∧ ¬0.5 < Sample.contest.bestScore (Sample.intField "b")
        (Sample.intField "y") := by decide +kernel
  obtain ⟨hle, hstrong, hweak, hlow⟩ := hfacts
  obtain ⟨hiff, hkept⟩ := assign_of_higher_threshold Sample.contest 0.25 0.5 hle
  refine ⟨hle, hkept _ _ hstrong, hstrong, hweak, ?_⟩
  intro hassigned
  exact hlow ((hiff _ _).1 hassigned).2

end SymbolMatch.FieldResolution

/-
The greedy assignment of fields, as a run over a list of pairs.

The run keeps two things in step, the pairs taken and the new fields in
them (`Progress.Sound`), so whether a pair can be taken is a question
about the pairs taken so far (`Progress.Free`). Nothing that was taken is
given up, and nothing is taken that is not in the list.

What follows for the whole run is `taken_or_beaten`: a pair of the list
is taken, or an earlier pair that was taken has one of its two fields.
-/
import SymbolMatch.FieldMatch.Assignment
import SymbolMatch.Proofs.Number.Order
import SymbolMatch.Proofs.Ordered.Map
import SymbolMatch.Proofs.Ordered.Set
import SymbolMatch.Proofs.Ordered.Sort

namespace SymbolMatch.FieldResolution

-- ================================================================ order

namespace Pair

instance : Std.TransCmp precedence :=
  inferInstanceAs (Std.TransCmp (compareLex
    (compareLex
      (fun a b : Pair =>
        Binary64.totalCompare b.candidate.score a.candidate.score)
      (compareOn Pair.old))
    (compareOn fun p : Pair => p.candidate.new)))

/-- Pairs of one precedence have the same score and the same fields. -/
theorem eq_of_precedence {p q : Pair} (h : p.precedence q = .eq) :
    p.candidate.score = q.candidate.score ∧ p.old = q.old
      ∧ p.candidate.new = q.candidate.new := by
  unfold precedence at h
  rw [Ordering.then_eq_eq, Ordering.then_eq_eq] at h
  obtain ⟨⟨hscore, hold⟩, hnew⟩ := h
  exact ⟨(Binary64.totalCompare_eq_iff.1 hscore).symm,
    Std.LawfulEqOrd.eq_of_compare hold, Std.LawfulEqOrd.eq_of_compare hnew⟩

end Pair

variable {r : FieldResolution} {threshold : Binary64} {p q : Pair}

/-- The pairs of the run are the candidates above the threshold. -/
theorem mem_pairsAbove :
    p ∈ r.pairsAbove threshold
      ↔ (∃ list, r.candidates.get? p.old = some list ∧ p.candidate ∈ list)
        ∧ threshold < p.candidate.score := by
  unfold pairsAbove
  dsimp only
  rw [mem_sortBy, List.mem_filter, decide_eq_true_eq, List.mem_flatMap]
  apply and_congr_left
  intro _
  constructor
  · rintro ⟨⟨old, list⟩, hentry, hp⟩
    obtain ⟨c, hc, rfl⟩ := List.mem_map.1 hp
    exact ⟨list, OrdMap.get?_eq_some_iff.2 hentry, hc⟩
  · rintro ⟨list, hlist, hc⟩
    exact ⟨(p.old, list), OrdMap.get?_eq_some_iff.1 hlist,
      List.mem_map.2 ⟨p.candidate, hc, rfl⟩⟩

theorem sorted_pairsAbove (r : FieldResolution) (threshold : Binary64) :
    (r.pairsAbove threshold).Pairwise fun x y => x.precedence y ≠ .gt :=
  sortBy_sorted _

/-- What comes first in the run does not rank behind. -/
theorem precedence_ne_gt_of_split {before after : List Pair}
    (hsplit : r.pairsAbove threshold = before ++ p :: after)
    (hq : q ∈ before) : q.precedence p ≠ .gt := by
  have hsorted := r.sorted_pairsAbove threshold
  rw [hsplit, List.pairwise_append] at hsorted
  exact hsorted.2.2 q hq p List.mem_cons_self

-- ============================================================= one step

namespace Progress

variable {a : Progress} {ps : List Pair} {x y new : Member}

/-- The new fields marked as taken are those of the pairs taken, and none
of them is in two pairs. -/
structure Sound (a : Progress) : Prop where
  taken : ∀ new, new ∈ a.taken ↔ ∃ old, a.assigned.get? old = some new
  injective : ∀ x y new, a.assigned.get? x = some new →
    a.assigned.get? y = some new → x = y

/-- Neither field of a pair is in a pair that was taken. -/
def Free (a : Progress) (p : Pair) : Prop :=
  a.assigned.get? p.old = none
    ∧ ∀ old, a.assigned.get? old ≠ some p.candidate.new

theorem sound_start : Sound ⟨{}, {}⟩ where
  taken new := by
    constructor
    · intro h
      exact (OrdSet.not_mem_empty new h).elim
    · intro h
      obtain ⟨old, hold⟩ := h
      cases hold
  injective x y new hx := by cases hx

/-- A pair is passed over exactly if one of its fields is taken. -/
theorem Sound.blocked_iff (h : a.Sound) :
    (a.assigned.contains p.old || a.taken.contains p.candidate.new) = true
      ↔ ¬a.Free p := by
  unfold Free
  rw [Bool.or_eq_true, OrdMap.contains_iff, OrdMap.mem_keys_iff,
    OrdSet.contains_iff, h.taken, not_and_or, ← ne_eq,
    Option.ne_none_iff_exists']
  simp

theorem Sound.take_of_not_free (h : a.Sound) (hp : ¬a.Free p) :
    a.take p = a := by
  unfold take
  rw [if_pos (h.blocked_iff.2 hp)]

/-- Taking a pair assigns its old field and changes nothing else. -/
theorem Sound.get?_take (h : a.Sound) (hp : a.Free p) (x : Member) :
    (a.take p).assigned.get? x
      = if x = p.old then some p.candidate.new else a.assigned.get? x := by
  unfold take
  rw [if_neg fun hblocked => h.blocked_iff.1 hblocked hp]
  exact OrdMap.get?_insert _ _ _ _

theorem Sound.mem_taken_take (h : a.Sound) (hp : a.Free p) (new : Member) :
    new ∈ (a.take p).taken ↔ new = p.candidate.new ∨ new ∈ a.taken := by
  unfold take
  rw [if_neg fun hblocked => h.blocked_iff.1 hblocked hp]
  exact OrdSet.mem_insert

/-- A step leaves the pairs taken before alone. -/
theorem Sound.get?_take_of_some (h : a.Sound)
    (hx : a.assigned.get? x = some new) (p : Pair) :
    (a.take p).assigned.get? x = some new := by
  by_cases hp : a.Free p
  · rw [h.get?_take hp, if_neg, hx]
    intro heq
    rw [heq, hp.1] at hx
    cases hx
  · rw [h.take_of_not_free hp, hx]

/-- What is taken after a step was taken before, or is the pair of the
step. -/
theorem Sound.of_get?_take (h : a.Sound)
    (hx : (a.take p).assigned.get? x = some new) :
    a.assigned.get? x = some new ∨ p.old = x ∧ p.candidate.new = new := by
  by_cases hp : a.Free p
  · rw [h.get?_take hp] at hx
    split at hx
    · next heq => exact .inr ⟨heq.symm, Option.some.inj hx⟩
    · exact .inl hx
  · rw [h.take_of_not_free hp] at hx
    exact .inl hx

theorem Sound.take (h : a.Sound) (p : Pair) : (a.take p).Sound := by
  by_cases hp : a.Free p
  · refine ⟨fun new => ?_, fun x y new hx hy => ?_⟩
    · rw [h.mem_taken_take hp, h.taken]
      constructor
      · intro hnew
        rcases hnew with heq | ⟨old, hold⟩
        · refine ⟨p.old, ?_⟩
          rw [h.get?_take hp, if_pos rfl, heq]
        · exact ⟨old, h.get?_take_of_some hold p⟩
      · intro hnew
        obtain ⟨old, hold⟩ := hnew
        rcases h.of_get?_take hold with hold | ⟨-, heq⟩
        · exact .inr ⟨old, hold⟩
        · exact .inl heq.symm
    · -- a new field of an old pair is not the one of the pair taken now
      rcases h.of_get?_take hx with hx | ⟨hpx, hpnew⟩
      · rcases h.of_get?_take hy with hy | ⟨-, hpnew⟩
        · exact h.injective x y new hx hy
        · exact absurd (hpnew ▸ hx) (hp.2 x)
      · rcases h.of_get?_take hy with hy | ⟨hpy, -⟩
        · exact absurd (hpnew ▸ hy) (hp.2 y)
        · exact hpx.symm.trans hpy
  · rw [h.take_of_not_free hp]
    exact h

-- ============================================================== the run

theorem Sound.run (h : a.Sound) (ps : List Pair) :
    (ps.foldl Progress.take a).Sound := by
  induction ps generalizing a with
  | nil => exact h
  | cons p rest ih => exact ih (h.take p)

/-- The run gives nothing up. -/
theorem Sound.get?_run_of_some (h : a.Sound)
    (hx : a.assigned.get? x = some new) (ps : List Pair) :
    (ps.foldl Progress.take a).assigned.get? x = some new := by
  induction ps generalizing a with
  | nil => exact hx
  | cons p rest ih => exact ih (h.take p) (h.get?_take_of_some hx p)

/-- The run takes only pairs of the list. -/
theorem Sound.of_get?_run (h : a.Sound)
    (hx : (ps.foldl Progress.take a).assigned.get? x = some new) :
    a.assigned.get? x = some new
      ∨ ∃ p ∈ ps, p.old = x ∧ p.candidate.new = new := by
  induction ps generalizing a with
  | nil => exact .inl hx
  | cons p rest ih =>
    rcases ih (h.take p) hx with hx | ⟨q, hq, hfields⟩
    · rcases h.of_get?_take hx with hx | hfields
      · exact .inl hx
      · exact .inr ⟨p, List.mem_cons_self, hfields⟩
    · exact .inr ⟨q, List.mem_cons_of_mem _ hq, hfields⟩

end Progress

-- ======================================================= the assignment

variable {x y new : Member}

/-- No new field is assigned twice. -/
theorem assign_injective (hx : (r.assign threshold).get? x = some new)
    (hy : (r.assign threshold).get? y = some new) : x = y :=
  (Progress.sound_start.run _).injective x y new hx hy

/-- What is assigned is a candidate above the threshold. -/
theorem of_get?_assign (h : (r.assign threshold).get? x = some new) :
    ∃ p ∈ r.pairsAbove threshold, p.old = x ∧ p.candidate.new = new := by
  rcases Progress.sound_start.of_get?_run h with hx | hp
  · cases hx
  · exact hp

/-- A pair is assigned, or an earlier one that is assigned has one of its
fields. -/
theorem taken_or_beaten {before after : List Pair}
    (hsplit : r.pairsAbove threshold = before ++ p :: after) :
    (r.assign threshold).get? p.old = some p.candidate.new
      ∨ ∃ q ∈ before,
        (r.assign threshold).get? q.old = some q.candidate.new
          ∧ (q.old = p.old ∨ q.candidate.new = p.candidate.new) := by
  have hsound := Progress.sound_start.run before
  unfold assign
  rw [hsplit, List.foldl_append, List.foldl_cons]
  -- what is taken before `p` comes up stays
  have hstays {x new : Member}
      (hx : (before.foldl Progress.take ⟨{}, {}⟩).assigned.get? x
        = some new) :
      (after.foldl Progress.take
        ((before.foldl Progress.take ⟨{}, {}⟩).take p)).assigned.get? x
          = some new :=
    (hsound.take p).get?_run_of_some (hsound.get?_take_of_some hx p) after
  have hearlier {x new : Member}
      (hx : (before.foldl Progress.take ⟨{}, {}⟩).assigned.get? x
        = some new) :
      ∃ q ∈ before, q.old = x ∧ q.candidate.new = new := by
    rcases Progress.sound_start.of_get?_run hx with hx | hq
    · cases hx
    · exact hq
  by_cases hfree : (before.foldl Progress.take ⟨{}, {}⟩).Free p
  · left
    refine (hsound.take p).get?_run_of_some ?_ after
    rw [hsound.get?_take hfree, if_pos rfl]
  · right
    unfold Progress.Free at hfree
    rw [not_and_or, ← ne_eq, Option.ne_none_iff_exists'] at hfree
    rcases hfree with ⟨new, hnew⟩ | htaken
    · obtain ⟨q, hq, hqold, hqnew⟩ := hearlier hnew
      refine ⟨q, hq, ?_, .inl hqold⟩
      rw [hqold, hqnew]
      exact hstays hnew
    · simp only [not_forall, not_not] at htaken
      obtain ⟨x, hx⟩ := htaken
      obtain ⟨q, hq, hqold, hqnew⟩ := hearlier hx
      refine ⟨q, hq, ?_, .inr hqnew⟩
      rw [hqold, hqnew]
      exact hstays hx

end SymbolMatch.FieldResolution

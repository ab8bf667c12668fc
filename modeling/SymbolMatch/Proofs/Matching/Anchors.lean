/-
Anchors stand. Anchors are claimed one after the other, and every claim
takes a class of either side out of the pools that later ones are chosen
from. So a pair is chosen among what is free when its turn comes, and it
is asked here how it stands against what is free in the end: no old class
that is left over scores higher with the new class of an anchor than the
anchor does, and no new class that is left over with its old class, the
margin of a tie apart.

Both are true when the pair is chosen, of the pools at that time
(`uncontested_of_anchorCall?`), and pools only shrink after that
(`Uncontested.mono`).

# Numbers

A margin is a bound on a difference, and a difference with a NaN is
within no margin. Every score of an anchor is a share, if the counts of
both snapshots are ones that a machine word holds
(`isShare_anchorScore`), so the differences are numbers.
-/
import SymbolMatch.Proofs.Matching.OwnScore
import SymbolMatch.Proofs.Matching.Report
import SymbolMatch.Proofs.Measures
import SymbolMatch.Proofs.Selection.Choice

namespace SymbolMatch

/-- The margin of valid settings is a number that is not below zero. -/
theorem Settings.zero_le_tieMargin {s : Settings} (h : s.validate = .ok ()) :
    0 ≤ s.tieMargin := by
  unfold validate at h
  split at h
  · cases h
  · split at h
    · cases h
    · split at h
      · cases h
      · split at h
        · cases h
        · next hmargin =>
          rw [Bool.not_eq_true, Bool.or_eq_false_iff] at hmargin
          obtain ⟨hnan, hneg⟩ := hmargin
          exact (Binary64.atMost_of_not_lt hnan (of_decide_eq_false hneg)).le
            Binary64.isNaN_zero hnan

namespace Context

open Overlap

variable {ctx : Context} {t t' : Table} {old new : String}

-- =============================================================== scores

section Held

variable (hold : ctx.old.Held) (hnew : ctx.new.Held)
include hold hnew

theorem isShare_similarity (old new : String) :
    (ctx.similarity old new).IsShare := by
  unfold similarity
  split
  · next a b ha hb =>
    exact isShare_classSimilarity
      (hold.classes a (List.mem_of_find?_eq_some ha))
      (hnew.classes b (List.mem_of_find?_eq_some hb))
  · exact Binary64.isShare_zero

/-- Every term of an anchor's score is a share. -/
theorem isShare_of_mem_anchorTerms {a b : ClassFingerprint} (ha : a.Held)
    (hb : b.Held) : ∀ t ∈ ctx.anchorTerms old new a b, t.1.IsShare := by
  have hmethods := isShare_countCloseness ha.methods hb.methods
  intro t ht
  rcases of_mem_anchorTerms ht with h | ⟨h, -⟩ | h | h | h | ⟨hpos, h⟩ | h | h
  · rw [h]
    exact isShare_similarity hold hnew old new
  · rw [h]
    exact Binary64.isShare_zero
  · rw [h]
    exact isShare_countCloseness (hold.fieldTypes old) (hnew.fieldTypes new)
  · rw [h]
    exact isShare_countCloseness ha.fields hb.fields
  · rw [h]
    exact isShare_countCloseness (hold.fieldUsers old) (hnew.fieldUsers new)
  · have hrefs := hold.selfRefs old
    rw [h]
    exact Binary64.isShare_ratio (by omega) (by omega) (by omega)
  · rw [h]
    exact hmethods.max (Binary64.isShare_tenths (by decide))
  · rw [h]
    exact hmethods

theorem isShare_anchorScore (old new : String) :
    (ctx.anchorScore old new).IsShare := by
  unfold anchorScore
  split
  · next a b ha hb =>
    exact isShare_weightedMean
      (isShare_of_mem_anchorTerms hold hnew
        (hold.classes a (List.mem_of_find?_eq_some ha))
        (hnew.classes b (List.mem_of_find?_eq_some hb)))
      (weights_anchorTerms a b)
  · exact Binary64.isShare_zero

end Held

-- ========================================================== one anchor

/-- No class that is free scores higher with either side of a pair than
the pair does, the margin of a tie apart. -/
structure Uncontested (ctx : Context) (t : Table) (old new : String) :
    Prop where
  olds : ∀ old' ∈ ctx.unmappedOld t,
    (ctx.anchorScore old' new - ctx.anchorScore old new).AtMost
      ctx.settings.tieMargin
  news : ∀ new' ∈ ctx.unclaimedNew t,
    (ctx.anchorScore old new' - ctx.anchorScore old new).AtMost
      ctx.settings.tieMargin

/-- Where fewer classes are free, a pair stands all the more. -/
theorem Uncontested.mono (h : ctx.Uncontested t old new)
    (hmapped : ∀ k, t.isMapped k = true → t'.isMapped k = true)
    (hclaimed : ∀ k, t.isClaimed k = true → t'.isClaimed k = true) :
    ctx.Uncontested t' old new := by
  constructor
  · intro old' hold'
    obtain ⟨hdeclared, hfree⟩ := mem_unmappedOld.1 hold'
    apply h.olds
    rw [mem_unmappedOld]
    refine ⟨hdeclared, ?_⟩
    by_contra hnot
    rw [hmapped old' (Bool.eq_true_of_not_eq_false hnot)] at hfree
    cases hfree
  · intro new' hnew'
    obtain ⟨hdeclared, hfree⟩ := mem_unclaimedNew.1 hnew'
    apply h.news
    rw [mem_unclaimedNew]
    refine ⟨hdeclared, ?_⟩
    by_contra hnot
    rw [hclaimed new' (Bool.eq_true_of_not_eq_false hnot)] at hfree
    cases hfree

/-- A claim leaves fewer classes free. -/
theorem Uncontested.claim (h : ctx.Uncontested t old new) (k n : String)
    (score : Binary64) (origin : Origin) :
    ctx.Uncontested (t.claim k n score origin).2 old new :=
  h.mono (fun _ => Table.isMapped_claim) fun _ => Table.isClaimed_claim

/-- An anchor is uncontested when it is chosen, by either side. -/
theorem uncontested_of_anchorCall? {x : Table.Call}
    (hmargin : 0 ≤ ctx.settings.tieMargin)
    (h : ctx.anchorCall? t old = some x) :
    ∃ new, x = .claim old new (ctx.anchorScore old new) .anchor
      ∧ ctx.Uncontested t old new := by
  unfold anchorCall? at h
  split at h
  · next choice hchoice =>
    obtain ⟨-, hscore, -⟩ := of_chooseNew hchoice
    split at h
    · cases h
    · split at h
      · next hmutual =>
        injection h with h
        rw [hscore] at h
        refine ⟨choice.best.id, h.symm, ?_, ?_⟩
        · -- the new class chooses back, among the old classes
          intro old' hold'
          unfold isMutual at hmutual
          split at hmutual
          · next back hback =>
            obtain ⟨-, hscore'⟩ := of_chooseOld hback
            rw [beq_iff_eq.1 hmutual] at hscore'
            have hle := pickBest_margin hmargin hback
              (List.mem_map.2 ⟨old', hold', rfl⟩)
            rw [hscore'] at hle
            exact hle
          · cases hmutual
        · intro new' hnew'
          have hle := pickBest_margin hmargin hchoice
            (List.mem_map.2 ⟨new', hnew', rfl⟩)
          rw [hscore] at hle
          exact hle
      · cases h
  · cases h

-- ============================================================= all anchors

/-- The claims that were not there at first are anchors, and they are
uncontested. -/
def AnchorsStand (ctx : Context) (first t : Table) : Prop :=
  ∀ old c, t.get? old = some c → first.get? old = none →
    c.origin = .anchor ∧ c.score = ctx.anchorScore old c.target
      ∧ ctx.Uncontested t old c.target

/-- Claiming another anchor leaves the anchors standing. -/
theorem AnchorsStand.claimAnchor {first : Table}
    (hmargin : 0 ≤ ctx.settings.tieMargin) (h : ctx.AnchorsStand first t)
    (old : String) : ctx.AnchorsStand first (ctx.claimAnchor t old).2 := by
  rw [claimAnchor_eq_act]
  cases hcall : ctx.anchorCall? t old with
  | none => exact h
  | some x =>
    obtain ⟨new, rfl, hstands⟩ := uncontested_of_anchorCall? hmargin hcall
    show ctx.AnchorsStand first
      (t.claim old new (ctx.anchorScore old new) .anchor).2
    cases hgranted :
        (t.claim old new (ctx.anchorScore old new) .anchor).1 with
    | false =>
      rw [Table.claim_refused hgranted]
      exact h
    | true =>
      intro k c hk hfree
      rw [Table.get?_claim hgranted] at hk
      split at hk
      · next heq =>
        rw [← Option.some.inj hk, heq]
        exact ⟨rfl, rfl, hstands.claim ..⟩
      · obtain ⟨horigin, hscore, hstands'⟩ := h k c hk hfree
        exact ⟨horigin, hscore, hstands'.claim ..⟩

theorem anchorsStand_selectAnchors (hmargin : 0 ≤ ctx.settings.tieMargin)
    (t : Table) : ctx.AnchorsStand t (ctx.selectAnchors t).2 := by
  refine Table.sweep_induction ?_ ?_
  · exact fun t₁ old _ h => h.claimAnchor hmargin old
  · intro old c hget hfree
    rw [hget] at hfree
    cases hfree

/-- Anchors are not improved by what is left over: when all are claimed,
no unmapped old class scores higher with the new class of an anchor, and
no unclaimed new class with its old class, by more than the margin of a
tie. -/
theorem anchors_stand_against_leftovers (ctx : Context) (t : Table)
    (hvalid : ctx.settings.validate = .ok ()) (hold : ctx.old.Held)
    (hnew : ctx.new.Held) {old : String} {c : Claim}
    (hget : (ctx.selectAnchors t).2.get? old = some c)
    (hfree : t.get? old = none) :
    c.origin = .anchor ∧ c.score = ctx.anchorScore old c.target
      ∧ (∀ old' ∈ ctx.unmappedOld (ctx.selectAnchors t).2,
        ctx.anchorScore old' c.target - c.score ≤ ctx.settings.tieMargin)
      ∧ ∀ new' ∈ ctx.unclaimedNew (ctx.selectAnchors t).2,
        ctx.anchorScore old new' - c.score ≤ ctx.settings.tieMargin := by
  have hmargin := Settings.zero_le_tieMargin hvalid
  obtain ⟨horigin, hscore, hstands⟩ :=
    anchorsStand_selectAnchors hmargin t old c hget hfree
  have hnumber (a b : String) :
      (ctx.anchorScore a b - ctx.anchorScore old c.target).isNaN = false :=
    Binary64.isNaN_sub_of_isFinite (isShare_anchorScore hold hnew a b).isFinite
      (isShare_anchorScore hold hnew old c.target).isFinite
  rw [hscore]
  refine ⟨horigin, rfl, fun old' hold' => ?_, fun new' hnew' => ?_⟩
  · exact (hstands.olds old' hold').le (hnumber old' c.target) hmargin.2.1
  · exact (hstands.news new' hnew').le (hnumber old new') hmargin.2.1

end Context

namespace Sample

/-- A class of one field, and one that looks like nothing else. -/
def crowdedOld : List ClassDecl :=
  [ holder "a" ["app/P"],
    { bare "b" with kind := .enumType, interfaces := ["app/P"] } ]

/-- Two classes of the same field. -/
def crowdedNew : List ClassDecl := [holder "y" ["app/P"], holder "x" ["app/P"]]

/-- The run on the two. -/
def crowdedRun : Context :=
  .ofSnapshots .default ⟨crowdedOld⟩ ⟨crowdedNew⟩

/-- The table with the one anchor that they have. -/
def crowdedTable : Table := Table.replay {} [.claim "a" "x" 1 .anchor]

theorem ofClasses_crowdedOld :
    Snapshot.ofClasses crowdedOld = .ok ⟨crowdedOld⟩ := rfl

theorem ofClasses_crowdedNew :
    Snapshot.ofClasses crowdedNew = .ok ⟨crowdedNew⟩ := rfl

theorem held_crowdedOld : crowdedRun.old.Held := by
  have hvalid : (⟨crowdedOld⟩ : Snapshot).Valid :=
    (Snapshot.ofClasses_eq_ok_iff.1 ofClasses_crowdedOld).2
  exact Index.held_summary hvalid (by decide) (by decide)

theorem held_crowdedNew : crowdedRun.new.Held := by
  have hvalid : (⟨crowdedNew⟩ : Snapshot).Valid :=
    (Snapshot.ofClasses_eq_ok_iff.1 ofClasses_crowdedNew).2
  exact Index.held_summary hvalid (by decide) (by decide)

end Sample

namespace Context

open Sample

/-- One of two new classes that tie is taken; the other stands against
the pair in the end, and so does an old class that finds no other. -/
theorem anchors_stand_against_leftovers_crowded :
    ∃ c, (crowdedRun.selectAnchors {}).2.get? "a" = some c
      ∧ c.target = "x"
      ∧ crowdedRun.anchorScore "b" "x" - c.score ≤ Settings.default.tieMargin
      ∧ crowdedRun.anchorScore "a" "y" - c.score
        ≤ Settings.default.tieMargin := by
  have hrun : (crowdedRun.selectAnchors {}).2 = crowdedTable := by
    decide +kernel
  have hget : crowdedTable.get? "a" = some ⟨"x", 1, .anchor⟩ := rfl
  have hleft : "b" ∈ crowdedRun.unmappedOld crowdedTable := by decide
  have hleft' : "y" ∈ crowdedRun.unclaimedNew crowdedTable := by decide
  rw [← hrun] at hget hleft hleft'
  obtain ⟨-, -, holds, hnews⟩ :=
    anchors_stand_against_leftovers crowdedRun {} Settings.validate_default
      held_crowdedOld held_crowdedNew hget rfl
  exact ⟨_, hget, rfl, holds "b" hleft, hnews "y" hleft'⟩

end Context

end SymbolMatch

/-
What refinement does to the pairs it moves, move by move.

A pair is reconsidered if it agrees with few of its neighbours, and it is
then given the best free target above a threshold. The score of the
target it leaves is never asked for. So every move lands above the
threshold, and it is a gain for a pair that stood at or below the
threshold; a pair that stood above it may lose, and may be moved back in
the next round.

Each move is an entry of the log of a refinement (`refineLog`), with the
table as it stands just before.
-/
import SymbolMatch.Proofs.Matching.Report

namespace SymbolMatch

-- ============================================================= refinement

namespace Context

variable {ctx : Context} {t : Table} {old : String}

/-- The moves of a refinement, in order: the class that is moved, and the
table as it stands just before. -/
def refineLog (ctx : Context) (t : Table) : List (Table × String) :=
  Table.roundsLog ctx.refineOnce
    (fun t => Table.sweepLog ctx.refineOne t (ctx.doubtful t))
    ctx.settings.refinementRounds t

/-- The log of a refinement is the refinement. -/
theorem made_refineLog (ctx : Context) (t : Table) :
    Table.Made ctx.refineOne t (ctx.refineLog t) (ctx.refine t).2
      ∧ (ctx.refineLog t).length = (ctx.refine t).1 :=
  Table.made_roundsLog (fun t => Table.made_sweepLog
    (fun t old => (refineOne_makes old t).refused) t (ctx.doubtful t)) _ t

/-- What a move of a class from `current` to `next` in a table is: the
class leaves a pair that is not fixed for a free class that scores above
the threshold. -/
structure RefinementMove (ctx : Context) (t : Table)
    (old current next : String) : Prop where
  held : t.newOf? old = some current
  notFixed : t.isFixed old = false
  free : next ∈ ctx.unclaimedNew t
  taken : (ctx.refineOne t old).2.newOf? old = some next
  above : ctx.settings.refinementThreshold < ctx.comprehensiveScore t old next
  /-- A pair that did not clear the threshold before is better now. -/
  gains : ctx.comprehensiveScore t old current
      ≤ ctx.settings.refinementThreshold →
    ctx.comprehensiveScore t old current < ctx.comprehensiveScore t old next

/-- Every successful attempt is such a move. -/
theorem refinementMove_of_success (h : (ctx.refineOne t old).1 = true) :
    ∃ current next, ctx.RefinementMove t old current next := by
  cases hchoice : ctx.chooseNew old (ctx.unclaimedNew t)
      (ctx.comprehensiveScore t old) ctx.settings.refinementThreshold with
  | none =>
    unfold refineOne at h
    rw [hchoice] at h
    cases h
  | some choice =>
    have hone : ctx.refineOne t old
        = t.reassign old choice.best.id choice.best.score .refined := by
      unfold refineOne
      rw [hchoice]
    rw [hone] at h
    obtain ⟨hmapped, hfixed, -⟩ := Table.reassign_granted_iff.1 h
    obtain ⟨c, hc⟩ := Option.isSome_iff_exists.1 hmapped
    -- the score that was chosen by is the score of the chosen class
    obtain ⟨hbest, habove⟩ := mem_of_pickBest hchoice
    obtain ⟨next, hnext, heq⟩ := List.mem_map.1 hbest
    rw [← heq] at habove hone h
    refine ⟨c.target, next,
      { held := Table.newOf?_eq_some_iff.2 ⟨c, hc, rfl⟩
        notFixed := hfixed
        free := hnext
        taken := ?_
        above := habove
        gains := ?_ }⟩
    · rw [hone, Table.newOf?_reassign h, if_pos rfl]
    · intro hle
      exact ⟨hle.1, habove.2.1, Int.lt_of_le_of_lt hle.2.2 habove.2.2⟩

/-- Every move of a refinement goes from a pair that is not fixed to a
free class above the threshold, and is a gain for a pair that stood at or
below the threshold. -/
theorem refine_moves_above_threshold (ctx : Context) (t : Table) :
    Table.Made ctx.refineOne t (ctx.refineLog t) (ctx.refine t).2
      ∧ (ctx.refineLog t).length = (ctx.refine t).1
      ∧ ∀ p ∈ ctx.refineLog t, ∃ current next,
        ctx.RefinementMove p.1 p.2 current next := by
  obtain ⟨hmade, hlength⟩ := made_refineLog ctx t
  refine ⟨hmade, hlength, fun p hp => ?_⟩
  exact refinementMove_of_success (hmade.success hp)

end Context

-- ================================================================= a loss

namespace Sample

/-- A class with a method that takes a `p`. -/
def taker (name : String) (kind : ClassKind) : ClassDecl :=
  { bare name with
    kind := kind
    methods := [⟨"m", "(Lp;)V", false, false, []⟩] }

/-- An old build where `u` holds the class `a`. -/
def heldBuild : List ClassDecl :=
  [taker "a" .plain, bare "p",
   { bare "u" with fields := [⟨"f", "La;", false, false⟩] }]

/-- A new build where it holds nothing, with two classes that could be
`a`. -/
def looseBuild : List ClassDecl :=
  [taker "x" .plain, taker "y" .interfaceType, bare "p", bare "u"]

/-- A table that has `a` paired with the class that it equals. -/
def heldTable : Table :=
  Table.replay {} [.claim "a" "x" 0.9 .anchor, .claim "p" "p" 0.9 .anchor,
    .claim "u" "u" 0.9 .anchor]

/-- A run on these two builds. -/
def heldRun : Context :=
  .ofSnapshots .default ⟨heldBuild⟩ ⟨looseBuild⟩

theorem ofClasses_heldBuild :
    Snapshot.ofClasses heldBuild = .ok ⟨heldBuild⟩ := rfl

theorem ofClasses_looseBuild :
    Snapshot.ofClasses looseBuild = .ok ⟨looseBuild⟩ := rfl

end Sample

namespace Context

/-- A refinement may move a pair to a class that scores less: `a` goes
from the class that equals it to one that is an interface, as no user of
`a` agrees with either, and in the next round it goes back. -/
theorem refine_may_worsen :
    Snapshot.ofClasses Sample.heldBuild = .ok ⟨Sample.heldBuild⟩
      ∧ Snapshot.ofClasses Sample.looseBuild = .ok ⟨Sample.looseBuild⟩
      ∧ Resolver.ofSettings .default = .ok ⟨.default⟩
      ∧ Sample.heldRun.refineLog Sample.heldTable
        = [(Sample.heldTable, "a"),
          ((Sample.heldRun.refineOne Sample.heldTable "a").2, "a")]
      ∧ Sample.heldTable.newOf? "a" = some "x"
      ∧ (Sample.heldRun.refineOne Sample.heldTable "a").2.newOf? "a"
        = some "y"
      ∧ Sample.heldRun.comprehensiveScore Sample.heldTable "a" "y"
        < Sample.heldRun.comprehensiveScore Sample.heldTable "a" "x" := by
  -- the parts are evaluated together, since they share the scores
  exact ⟨Sample.ofClasses_heldBuild, Sample.ofClasses_looseBuild,
    Resolver.ofSettings_default, by decide +kernel⟩

end Context

end SymbolMatch

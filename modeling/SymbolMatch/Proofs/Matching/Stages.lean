/-
The stages of a matching run as sequences of calls.

A stage only makes the calls that it tries, so what those keep, the
stage keeps (`Stage.run_induction`), and so does any sequence of stages
(`Context.after`).

# Bars

The bar that a pair has to clear depends on its origin (`Clears`). Every
call of every stage is one of a pair that clears its bar
(`Tries.clears`), so after any sequence of stages all pairs do.
-/
import SymbolMatch.Proofs.Matching.Calls

namespace SymbolMatch

-- =============================================================== stages

/-- A stage only makes its own calls, so what those keep, it keeps. -/
theorem Stage.run_induction {ctx : Context} {P : Table → Prop} {t : Table}
    (s : Stage) (hcall : ∀ t x, ctx.Tries s x → P t → P (t.call x).2)
    (ht : P t) : P (s.run ctx t).2 := by
  have hstep {t : Table} {r : Bool × Table} (ht : P t)
      (hr : Table.Makes (ctx.Tries s) t r) : P r.2 :=
    hr.induction (fun x hx => hcall t x hx ht) ht
  cases s with
  | fixedNames =>
    refine List.foldlRecOn _ _ ht fun t ht name hname => ?_
    exact hcall t (.fix name name) (.fixedName hname) ht
  | constants =>
    exact Table.sweep_induction
      (fun t₁ old hold ht₁ => hstep ht₁ (Context.claimConstant_makes hold t₁))
      ht
  | anchors =>
    exact Table.sweep_induction
      (fun t₁ old hold ht₁ => hstep ht₁ (Context.claimAnchor_makes hold t₁))
      ht
  | propagation =>
    refine Table.rounds_induction (fun t₀ ht₀ => ?_) ht _
    exact Table.sweep_induction
      (fun t₁ p hp ht₁ => hstep ht₁ (Context.grant_makes hp t₁)) ht₀
  | refinement =>
    refine Table.rounds_induction (fun t₀ ht₀ => ?_) ht _
    exact Table.sweep_induction
      (fun t₁ old _ ht₁ => hstep ht₁ (Context.refineOne_makes old t₁)) ht₀
  | correction =>
    exact Table.sweep_induction
      (fun t₁ pair hpair ht₁ =>
        hstep ht₁ (Context.correctConstant_makes hpair t₁)) ht
  | validation =>
    refine Table.rounds_induction (fun t₀ ht₀ => ?_) ht _
    exact Table.sweep_induction
      (fun t₁ old _ ht₁ => hstep ht₁ (Context.validateOne_makes old t₁)) ht₀

namespace Context

variable {ctx : Context}

/-- The table after some stages, from the empty one. -/
def after (ctx : Context) (stages : List Stage) : Table :=
  stages.foldl (fun t s => (s.run ctx t).2) {}

/-- The table after all stages is the one of the run. -/
theorem after_all : ctx.after Stage.all = ctx.runStages.table := rfl

-- ================================================================ bars

/-- What a pair has to satisfy to be entered, by its origin. -/
def Clears (ctx : Context) (old : String) (c : Claim) : Prop :=
  match c.origin with
  | .fixed => c.target = old ∧ c.score = 1.0
  | .supplied => False
  | .constant =>
    ctx.isOldConstant old = true ∧ ctx.isNewConstant c.target = true
      ∧ (ctx.settings.minSimilarity < c.score ∨ 0.7 < c.score)
  | .anchor =>
    c.score = ctx.anchorScore old c.target
      ∧ ctx.settings.anchorThreshold < c.score
  | .propagated => ctx.settings.propagationThreshold < c.score
  | .refined => ctx.settings.refinementThreshold < c.score
  | .validated => c.score = ctx.similarity old c.target

/-- What a stage tries to enter clears its bar. -/
theorem Tries.clears {s : Stage} {x : Table.Call} (h : ctx.Tries s x) :
    ctx.Clears x.source x.entry := by
  cases h with
  | fixedName => exact ⟨rfl, rfl⟩
  | constant _ _ hconstant hconstant' hbar =>
    exact ⟨hconstant, hconstant', .inl hbar⟩
  | anchor _ _ hscore hbar => exact ⟨hscore, hbar⟩
  | proposal _ _ hbar => exact hbar
  | refinement _ hbar => exact hbar
  | correction _ hconstant hconstant' hbar =>
    exact ⟨hconstant, hconstant', .inr hbar⟩
  | validation _ hscore => exact hscore

-- ========================================================== the theorem

/-- After any sequence of stages, those of a run up to any point among
them, every pair clears the bar of its origin. -/
theorem pairs_clear_their_bars (ctx : Context) :
    (∀ stages, (ctx.after stages).All ctx.Clears)
      ∧ ctx.after Stage.all = ctx.runStages.table := by
  refine ⟨fun stages => ?_, after_all⟩
  have hempty : ({} : Table).All ctx.Clears := by
    intro old c hc
    cases hc
  refine List.foldlRecOn _ _ hempty fun t ht s _ => ?_
  exact s.run_induction (fun t x hx ht => ht.call hx.clears) ht

end Context

end SymbolMatch

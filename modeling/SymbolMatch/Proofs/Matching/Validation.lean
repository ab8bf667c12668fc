/-
What validation does to the pairs it moves, and that it comes to rest.

A pair whose references mostly miss is moved to a free class that is more
similar and that more references agree with. Each move changes the table
that the references of all other pairs are counted in, so a move may make
others possible, and the number of references that agree over the whole
table need not grow. The similarity of two classes does not depend on the
table. A class only ever goes to more similar ones, so it never comes
back to one that it left (`climbs_after`).

# The measure

For a class that holds a target count the new classes that are more
similar than the target (`room`). A move of the class lowers its count,
and no move of another class changes it. There are at most as many moves
as the counts add up to, which is no more than the number of the classes
that may be moved times the number of the new classes.
-/
import Mathlib.Algebra.Order.BigOperators.Group.List
import Mathlib.Algebra.Order.Ring.Nat
import SymbolMatch.Proofs.Matching.Refinement

namespace SymbolMatch

namespace Context

variable {ctx : Context} {t t₁ : Table} {old current next : String}

-- ============================================================== one move

/-- What a move of a class from `current` to `next` in a table is: the
class leaves a pair that is not fixed for a free class that is more
similar, and that more references agree with in that table. -/
structure ValidationMove (ctx : Context) (t : Table)
    (old current next : String) : Prop where
  held : t.newOf? old = some current
  notFixed : t.isFixed old = false
  free : next ∈ ctx.unclaimedNew t
  taken : (ctx.validateOne t old).2.newOf? old = some next
  others : ∀ k, k ≠ old → (ctx.validateOne t old).2.get? k = t.get? k
  moreSimilar : ctx.similarity old current < ctx.similarity old next
  moreReferences : (ctx.referenceAgreement t old current).1
    < (ctx.referenceAgreement t old next).1

/-- Every successful attempt is such a move. -/
theorem validationMove_of_success (h : (ctx.validateOne t old).1 = true) :
    ∃ current next, ctx.ValidationMove t old current next := by
  -- a success has a target to leave, misses to mend and a class to go to
  cases hcurrent : t.newOf? old with
  | none =>
    simp [validateOne, hcurrent] at h
  | some current =>
    cases hmisses : mostlyMisses (ctx.referenceAgreement t old current).1
        (ctx.referenceAgreement t old current).2 with
    | false => simp [validateOne, hcurrent, hmisses] at h
    | true =>
      cases hchoice : ctx.chooseNew old (ctx.unclaimedNew t)
          (ctx.validationScore t old (ctx.referenceAgreement t old current).1)
          (ctx.similarity old current) with
      | none => simp [validateOne, hcurrent, hmisses, hchoice] at h
      | some choice =>
        have hone : ctx.validateOne t old = t.reassign old choice.best.id
            choice.best.score .validated := by
          simp [validateOne, hcurrent, hmisses, hchoice]
        rw [hone] at h
        obtain ⟨hfree, -, hsimilar, hmore⟩ := of_validationChoice hchoice
        refine ⟨current, choice.best.id,
          { held := hcurrent
            notFixed := (Table.reassign_granted_iff.1 h).2.1
            free := hfree
            taken := ?_
            others := ?_
            moreSimilar := hsimilar
            moreReferences := hmore }⟩
        · rw [hone, Table.newOf?_reassign h, if_pos rfl]
        · intro k hk
          rw [hone, Table.get?_reassign h, if_neg hk]

/-- An attempt without success changes nothing. -/
theorem validateOne_refused (t : Table) (old : String)
    (h : (ctx.validateOne t old).1 = false) : (ctx.validateOne t old).2 = t :=
  (validateOne_makes old t).refused h

theorem ValidationMove.newOf?_of_ne
    (h : ctx.ValidationMove t old current next) {k : String} (hk : k ≠ old) :
    (ctx.validateOne t old).2.newOf? k = t.newOf? k := by
  rw [Table.newOf?_eq_map, Table.newOf?_eq_map, h.others k hk]

-- =============================================================== the log

/-- The moves of a validation, in order: the class that is moved, and the
table as it stands just before. -/
def validateLog (ctx : Context) (t : Table) : List (Table × String) :=
  Table.roundsLog ctx.validateOnce
    (fun t => Table.sweepLog ctx.validateOne t (t.oldsWhere ctx.isRevisable))
    ctx.settings.validationRounds t

/-- The log of a validation is the validation. -/
theorem made_validateLog (ctx : Context) (t : Table) :
    Table.Made ctx.validateOne t (ctx.validateLog t)
        (ctx.validateReferences t).2
      ∧ (ctx.validateLog t).length = (ctx.validateReferences t).1 :=
  Table.made_roundsLog (fun t => Table.made_sweepLog validateOne_refused t
    (t.oldsWhere ctx.isRevisable)) _ t

-- ============================================================== climbing

/-- A class holds a target that is more similar than another. -/
def Above (ctx : Context) (old bar : String) (t : Table) : Prop :=
  ∃ current, t.newOf? old = some current
    ∧ ctx.similarity old bar < ctx.similarity old current

/-- No move takes a class back below what it has passed. -/
theorem Above.step {bar k : String} (h : ctx.Above old bar t)
    (hsuccess : (ctx.validateOne t k).1 = true) :
    ctx.Above old bar (ctx.validateOne t k).2 := by
  obtain ⟨held, hheld, hbar⟩ := h
  obtain ⟨current, next, hmove⟩ := validationMove_of_success hsuccess
  by_cases hk : old = k
  · subst hk
    have heq : held = current := by
      rw [hmove.held] at hheld
      exact (Option.some.inj hheld).symm
    subst heq
    exact ⟨next, hmove.taken, Binary64.lt_trans hbar hmove.moreSimilar⟩
  · exact ⟨held, (hmove.newOf?_of_ne hk).trans hheld, hbar⟩

/-- From its move on a class holds more similar targets than the one that
it left. -/
theorem climbs_after {p q : Table × String}
    {before after : List (Table × String)}
    (hmade : Table.Made ctx.validateOne t (before ++ p :: after) t₁)
    (hmove : ctx.ValidationMove p.1 p.2 current next) (hq : q ∈ p :: after) :
    ctx.Above p.2 current (ctx.validateOne q.1 q.2).2 := by
  have hfirst : ctx.Above p.2 current (ctx.validateOne p.1 p.2).2 :=
    ⟨next, hmove.taken, hmove.moreSimilar⟩
  rcases List.mem_cons.1 hq with hq | hq
  · rw [hq]
    exact hfirst
  · exact hmade.after.induction (fun t k hsuccess h => h.step hsuccess) hfirst
      q hq

/-- A class does not come back to a target that it left. -/
theorem newOf?_ne_of_made {p q : Table × String}
    {before after : List (Table × String)}
    (hmade : Table.Made ctx.validateOne t (before ++ p :: after) t₁)
    (hq : q ∈ p :: after) :
    (ctx.validateOne q.1 q.2).2.newOf? p.2 ≠ p.1.newOf? p.2 := by
  obtain ⟨current, next, hmove⟩ :=
    validationMove_of_success (hmade.success (List.mem_append_cons_self))
  obtain ⟨held, hheld, hlt⟩ := climbs_after hmade hmove hq
  rw [hheld, hmove.held]
  intro heq
  rw [Option.some.inj heq] at hlt
  exact Binary64.lt_irrefl _ hlt

-- =========================================================== the measure

/-- The obfuscated new classes that are more similar to a class than its
target. -/
def moreSimilar (ctx : Context) (old current : String) : List String :=
  ctx.newObfuscated.filter fun new =>
    ctx.similarity old current < ctx.similarity old new

/-- How many classes there are that a class may still be moved to. -/
def room (ctx : Context) (t : Table) (old : String) : Nat :=
  match t.newOf? old with
  | none => 0
  | some current => (ctx.moreSimilar old current).length

theorem room_le (ctx : Context) (t : Table) (old : String) :
    ctx.room t old ≤ ctx.newObfuscated.length := by
  unfold room
  split
  · exact Nat.zero_le _
  · exact List.length_filter_le _ _

/-- A more similar target leaves fewer classes that are more similar. -/
theorem length_moreSimilar_lt (hnext : next ∈ ctx.newObfuscated)
    (hlt : ctx.similarity old current < ctx.similarity old next) :
    (ctx.moreSimilar old next).length
      < (ctx.moreSimilar old current).length := by
  have hsub : (ctx.moreSimilar old next).Sublist
      (ctx.moreSimilar old current) := by
    apply List.monotone_filter_right
    intro new hnew
    exact decide_eq_true (Binary64.lt_trans hlt (of_decide_eq_true hnew))
  refine Nat.lt_of_le_of_ne hsub.length_le fun hlength => ?_
  -- the new target itself is counted before the move only
  have hmem : next ∈ ctx.moreSimilar old current :=
    List.mem_filter.2 ⟨hnext, decide_eq_true hlt⟩
  rw [← hsub.eq_of_length hlength] at hmem
  exact Binary64.lt_irrefl _ (of_decide_eq_true (List.mem_filter.1 hmem).2)

theorem ValidationMove.room_lt (h : ctx.ValidationMove t old current next) :
    ctx.room (ctx.validateOne t old).2 old < ctx.room t old := by
  unfold room
  rw [h.held, h.taken]
  exact length_moreSimilar_lt (mem_unclaimedNew.1 h.free).1 h.moreSimilar

theorem ValidationMove.room_of_ne (h : ctx.ValidationMove t old current next)
    {k : String} (hk : k ≠ old) :
    ctx.room (ctx.validateOne t old).2 k = ctx.room t k := by
  unfold room
  rw [h.newOf?_of_ne hk]

/-- The room of some classes together. -/
def totalRoom (ctx : Context) (olds : List String) (t : Table) : Nat :=
  (olds.map (ctx.room t)).sum

theorem totalRoom_le (ctx : Context) (olds : List String) (t : Table) :
    ctx.totalRoom olds t ≤ olds.length * ctx.newObfuscated.length := by
  have hsum := List.sum_le_card_nsmul (olds.map (ctx.room t))
    ctx.newObfuscated.length (by
      intro n hn
      obtain ⟨old, -, rfl⟩ := List.mem_map.1 hn
      exact room_le ctx t old)
  rw [List.length_map, Nat.nsmul_eq_mul] at hsum
  exact hsum

/-- An attempt for one of the classes costs a unit if it succeeds. -/
theorem validateOne_spends {olds : List String} (hold : old ∈ olds)
    (t : Table) :
    (ctx.validateOne t old).1.toNat
        + ctx.totalRoom olds (ctx.validateOne t old).2
      ≤ ctx.totalRoom olds t := by
  cases hflag : (ctx.validateOne t old).1 with
  | false =>
    rw [validateOne_refused t old hflag]
    simp
  | true =>
    obtain ⟨current, next, hmove⟩ := validationMove_of_success hflag
    have hlt : ctx.totalRoom olds (ctx.validateOne t old).2
        < ctx.totalRoom olds t := by
      refine List.sum_lt_sum _ _ (fun k _ => ?_) ⟨old, hold, hmove.room_lt⟩
      by_cases hk : k = old
      · rw [hk]
        exact Nat.le_of_lt hmove.room_lt
      · exact Nat.le_of_eq (hmove.room_of_ne hk)
    rw [Bool.toNat_true]
    omega

-- ================================================================= rest

/-- All that may be moved in a table are some of these classes. -/
def Confined (ctx : Context) (olds : List String) (t : Table) : Prop :=
  ∀ old ∈ t.oldsWhere ctx.isRevisable, old ∈ olds

/-- No attempt makes a pair revisable that was not. -/
theorem Confined.validateOne {olds : List String} (h : ctx.Confined olds t)
    (old : String) : ctx.Confined olds (ctx.validateOne t old).2 := by
  cases hflag : (ctx.validateOne t old).1 with
  | false =>
    rw [validateOne_refused t old hflag]
    exact h
  | true =>
    obtain ⟨current, next, hmove⟩ := validationMove_of_success hflag
    intro k hk
    obtain ⟨c, hc, hrevisable⟩ := Table.mem_oldsWhere.1 hk
    apply h
    apply Table.mem_oldsWhere.2
    by_cases heq : k = old
    · subst heq
      obtain ⟨held, hheld, -⟩ := Table.newOf?_eq_some_iff.1 hmove.held
      have horigin : held.origin ≠ .fixed := by
        intro hfixed
        have hisFixed := Table.isFixed_iff.2 ⟨held, hheld, hfixed⟩
        rw [hmove.notFixed] at hisFixed
        cases hisFixed
      refine ⟨held, hheld, ?_⟩
      unfold isRevisable at hrevisable ⊢
      rw [Bool.and_eq_true] at hrevisable ⊢
      exact ⟨bne_iff_ne.2 horigin, hrevisable.2⟩
    · rw [hmove.others k heq] at hc
      exact ⟨c, hc, hrevisable⟩

/-- A validation with enough rounds ends in a table that another round
does not change. -/
theorem validateOnce_at_rest {olds : List String} (h : ctx.Confined olds t)
    (hrounds : olds.length * ctx.newObfuscated.length + 1
      ≤ ctx.settings.validationRounds) :
    ctx.validateOnce (ctx.validateReferences t).2
      = (0, (ctx.validateReferences t).2) := by
  have hcost := totalRoom_le ctx olds t
  refine Table.rounds_at_rest (ctx.totalRoom olds) (P := ctx.Confined olds)
    ?_ ?_ ?_ h (by omega)
  · intro t₁ ht₁
    exact Table.sweep_induction (fun t₂ old _ ht₂ => ht₂.validateOne old) ht₁
  · intro t₁ ht₁
    exact Table.sweep_spends
      (fun t₂ old hold => validateOne_spends (ht₁ old hold) t₂) t₁
  · intro t₁ hcount
    exact Table.sweep_idle validateOne_refused hcount

-- =========================================================== the theorem

/-- Every move of a validation goes to a class that is more similar and
that more references agree with. No class comes back to a target that it
left, and with enough rounds the validation ends in a table that another
validation does not change. -/
theorem validation_climbs_to_rest (ctx : Context) (t : Table) :
    Table.Made ctx.validateOne t (ctx.validateLog t)
        (ctx.validateReferences t).2
      ∧ (ctx.validateLog t).length = (ctx.validateReferences t).1
      ∧ (∀ p ∈ ctx.validateLog t, ∃ current next,
        ctx.ValidationMove p.1 p.2 current next)
      ∧ (∀ before p after, ctx.validateLog t = before ++ p :: after →
        ∀ q ∈ p :: after,
          (ctx.validateOne q.1 q.2).2.newOf? p.2 ≠ p.1.newOf? p.2)
      ∧ ((t.oldsWhere ctx.isRevisable).length * ctx.newObfuscated.length + 1
          ≤ ctx.settings.validationRounds →
        ctx.validateReferences (ctx.validateReferences t).2
          = (0, (ctx.validateReferences t).2)) := by
  obtain ⟨hmade, hlength⟩ := made_validateLog ctx t
  refine ⟨hmade, hlength, ?_, ?_, ?_⟩
  · intro p hp
    exact validationMove_of_success (hmade.success hp)
  · intro before p after hsplit q hq
    rw [hsplit] at hmade
    exact newOf?_ne_of_made hmade hq
  · intro hrounds
    exact Table.rounds_eq_self
      (validateOnce_at_rest (fun old hold => hold) hrounds) _

end Context

-- =============================================================== sample

namespace Sample

/-- A run with one round more than there can be moves. -/
def holdersRun : Context :=
  .ofSnapshots { Settings.default with validationRounds := 9 }
    ⟨[holder "ab" ["c1", "c2", "c3"]]⟩
    ⟨[holder "xa" ["d1", "d2", "d3", "d4"], holder "xb" ["e1", "e2", "e3"]]⟩

/-- A table that pairs `ab` with a class that holds none of the classes
that those in `ab` became. -/
def holdersTable : Table :=
  Table.replay {} [.claim "c1" "e1" 0.9 .anchor, .claim "c2" "e2" 0.9 .anchor,
    .claim "c3" "e3" 0.9 .anchor, .claim "ab" "xa" 0.6 .propagated]

end Sample

namespace Context

/-- The class is moved to the one that holds them, and stays there. -/
theorem validation_climbs_to_rest_holders :
    (Sample.holdersRun.validateReferences Sample.holdersTable).1 = 1
      ∧ (Sample.holdersRun.validateReferences Sample.holdersTable).2.newOf? "ab"
        = some "xb"
      ∧ Sample.holdersRun.validateReferences
          (Sample.holdersRun.validateReferences Sample.holdersTable).2
        = (0, (Sample.holdersRun.validateReferences Sample.holdersTable).2) := by
  have hfacts :
      (Sample.holdersRun.validateReferences Sample.holdersTable).1 = 1
        ∧ (Sample.holdersRun.validateReferences Sample.holdersTable).2.newOf?
          "ab" = some "xb"
        ∧ (Sample.holdersTable.oldsWhere Sample.holdersRun.isRevisable).length
            * Sample.holdersRun.newObfuscated.length + 1
          ≤ Sample.holdersRun.settings.validationRounds := by decide +kernel
  obtain ⟨hcount, hmoved, hrounds⟩ := hfacts
  obtain ⟨-, -, -, -, hrest⟩ :=
    validation_climbs_to_rest Sample.holdersRun Sample.holdersTable
  exact ⟨hcount, hmoved, hrest hrounds⟩

end Context

end SymbolMatch

/-
Second thoughts: pairs that do not fit the finished table are moved to a
better target that is still free. Only the target changes, never whether
a class is mapped.
-/
import SymbolMatch.Matching.Consistency

namespace SymbolMatch.Context

variable (ctx : Context)

/-- Whether a pair may be reconsidered: it is not fixed, and its old name
is obfuscated. -/
def isRevisable (old : String) (c : Claim) : Bool :=
  c.origin != .fixed && ctx.isObfuscated old

-- =========================================================== refinement

/-- The pairs that less than three tenths of their neighbours agree
with. -/
def doubtful (t : Table) : List String :=
  t.oldsWhere fun old c =>
    ctx.isRevisable old c && ctx.consistency t old c.target < 0.3

/-- Move a pair to the best free target above the threshold. -/
def refineOne (t : Table) (old : String) : Bool × Table :=
  match ctx.chooseNew old (ctx.unclaimedNew t) (ctx.comprehensiveScore t old)
      ctx.settings.refinementThreshold with
  | some choice => t.reassign old choice.best.id choice.best.score .refined
  | none => (false, t)

/-- Move the doubtful pairs of a table. -/
def refineOnce (t : Table) : Nat × Table :=
  t.sweep ctx.refineOne (ctx.doubtful t)

/-- Refine until nothing moves or the rounds are used up. -/
def refine (t : Table) : Nat × Table :=
  t.rounds ctx.refineOnce ctx.settings.refinementRounds

-- ============================================================ constants

/-- The pairs of constant-like old classes, with their targets. -/
def constantPairs (t : Table) : List (String × String) :=
  (t.entries.filter fun (old, c) =>
    c.origin != .fixed && ctx.isOldConstant old).map fun (old, c) =>
      (old, c.target)

/-- The score of a pair of constant-like classes by their users and the
number of their fields. -/
def correctionScore (t : Table) (old new : String) : Binary64 :=
  (ctx.userAgreement? t old new).getD 0 * 0.7
    + ctx.fieldCloseness old new * 0.3

/-- Move a constant-like class that has users to the target they agree
with most, if that clears seven tenths. -/
def correctConstant (t : Table) (pair : String × String) : Bool × Table :=
  let (old, current) := pair
  if ctx.old.evidence.externalFieldUserCount old = 0 then (false, t)
  else
    let candidates := ctx.newObfuscated.filter fun new =>
      ctx.isNewConstant new && (new == current || !t.isClaimed new)
    match ctx.chooseNew old candidates (ctx.correctionScore t old) 0 with
    | some choice =>
      if choice.best.id = current ∨ choice.best.score ≤ 0.7 then (false, t)
      else t.reassign old choice.best.id choice.best.score .constant
    | none => (false, t)

/-- Correct the pairs of constant-like classes. -/
def correctConstants (t : Table) : Nat × Table :=
  t.sweep ctx.correctConstant (ctx.constantPairs t)

-- =========================================================== validation

/-- Whether a pair's references mostly miss: more than half of them, and
more than two. -/
def mostlyMisses (hits misses : Nat) : Bool :=
  let ratio := Binary64.ofNat misses / Binary64.ofNat (max (hits + misses) 1)
  !(ratio ≤ 0.5) && 2 < misses

/-- The similarity of a candidate that more references agree with than
with the present target; no other candidate can be chosen. -/
def validationScore (t : Table) (old : String) (hits : Nat) (new : String) :
    Binary64 :=
  if hits < (ctx.referenceAgreement t old new).1 then ctx.similarity old new
  else -1

/-- Move a pair whose references mostly miss to a target that is more
similar and that more references agree with. -/
def validateOne (t : Table) (old : String) : Bool × Table :=
  match t.newOf? old with
  | none => (false, t)
  | some current =>
    let (hits, misses) := ctx.referenceAgreement t old current
    if mostlyMisses hits misses then
      match ctx.chooseNew old (ctx.unclaimedNew t)
          (ctx.validationScore t old hits) (ctx.similarity old current) with
      | some choice =>
        t.reassign old choice.best.id choice.best.score .validated
      | none => (false, t)
    else (false, t)

/-- Check the references of every pair that may be reconsidered. -/
def validateOnce (t : Table) : Nat × Table :=
  t.sweep ctx.validateOne (t.oldsWhere ctx.isRevisable)

/-- Validate until nothing moves or the rounds are used up. -/
def validateReferences (t : Table) : Nat × Table :=
  t.rounds ctx.validateOnce ctx.settings.validationRounds

end SymbolMatch.Context

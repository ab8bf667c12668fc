/-
Pairs of constant-like classes: classes that mostly hold instances of
themselves, such as enumerations. Their code says little about them, so
they are compared by how many classes use them and by how many fields
they have, and only among themselves.
-/
import SymbolMatch.Matching.Context

namespace SymbolMatch.Context

variable (ctx : Context)

/-- How close the numbers of classes are that hold a field of each
type. -/
def constantUserCloseness (old new : String) : Binary64 :=
  let a := ctx.old.evidence.externalFieldUserCount old
  let b := ctx.new.evidence.externalFieldUserCount new
  if a = b ∧ 0 < a then 1
  else if Overlap.difference a b ≤ 1 then 0.8
  else 0

/-- The score of a pair of constant-like classes. -/
def constantScore (old new : String) : Binary64 :=
  (ctx.constantUserCloseness old new * 5 + ctx.fieldCloseness old new * 4) / 9

/-- The unmapped constant-like old classes, those with the fewest users
first, then by name. -/
def constantOrder (t : Table) : List String :=
  let users := ctx.old.evidence.externalFieldUserCount
  sortBy (fun a b => (compare (users a) (users b)).then (compare a b))
    ((ctx.unmappedOld t).filter ctx.isOldConstant)

/-- Pair one constant-like class. -/
def claimConstant (t : Table) (old : String) : Bool × Table :=
  let candidates := (ctx.unclaimedNew t).filter ctx.isNewConstant
  match ctx.chooseNew old candidates (ctx.constantScore old)
      ctx.settings.minSimilarity with
  | some choice => t.claim old choice.best.id choice.best.score .constant
  | none => (false, t)

/-- Pair the constant-like classes. -/
def matchConstants (t : Table) : Nat × Table :=
  t.sweep ctx.claimConstant (ctx.constantOrder t)

end SymbolMatch.Context

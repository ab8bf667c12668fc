/-
The audit of a finished table: heavily used classes whose mapped users
mostly do not hold a field of the class's target. These are reported and
not changed.
-/
import SymbolMatch.Matching.Revision
import SymbolMatch.Pairing.Report

namespace SymbolMatch.Context

variable (ctx : Context)

/-- The targets of the mapped users of an old class. -/
def userTargets (t : Table) (old : String) : List String :=
  (ctx.fieldUsers old).filterMap t.newOf?

/-- The warning on a pair, if there is one: more than five users, more
than three of them mapped, and less than four tenths of those agree. -/
def warning? (t : Table) (old : String) (c : Claim) : Option SuspiciousPair :=
  let targets := ctx.userTargets t old
  let agreeing := targets.countP fun user =>
    (ctx.new.evidence.fieldTypesOf user).contains c.target
  let ratio := Binary64.ofNat agreeing / Binary64.ofNat targets.length
  if ctx.isRevisable old c && 5 < (ctx.fieldUsers old).length
      && 3 < targets.length && ratio < 0.4 then
    some ⟨old, c.target, agreeing, targets.length, ratio⟩
  else none

/-- The warnings on a table, sorted by old name. -/
def audit (t : Table) : List SuspiciousPair :=
  t.entries.filterMap fun (old, c) => ctx.warning? t old c

end SymbolMatch.Context

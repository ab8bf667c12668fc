/-
A whole matching run: fixed names, constant-like classes, anchors, then
propagation, then the second thoughts, and at the end the report.
-/
import SymbolMatch.Matching.Anchors
import SymbolMatch.Matching.Audit
import SymbolMatch.Matching.Constants
import SymbolMatch.Matching.Votes

namespace SymbolMatch.Context

variable (ctx : Context)

-- ================================================================ fixed

/-- The names that survive and are in both snapshots, sorted. -/
def fixedNames : OrdSet String :=
  OrdSet.ofList (ctx.old.classNames.filter fun name =>
    !ctx.isObfuscated name && ctx.new.contains name)

/-- Pair the classes with fixed names, and count the names. -/
def matchFixed (t : Table) : Nat × Table :=
  (ctx.fixedNames.size,
    ctx.fixedNames.elements.foldl (fun t name => (t.fix name name).2) t)

-- =============================================================== report

/-- The confidence that is reported for a pair. -/
def confidence (old new : String) (origin : Origin) (similarity : Binary64) :
    Binary64 :=
  if origin = .fixed then 1
  else
    let boost : Binary64 :=
      if ctx.isOldConstant old && ctx.isNewConstant new
          && 0.9 < ctx.fieldCloseness old new
      then 1.8
      else 1.5
    min (similarity * boost) 1

/-- The match that a claim amounts to. -/
def describe (t : Table) (old : String) (c : Claim) : ClassMatch :=
  let similarity :=
    if c.origin = .fixed then 1 else ctx.similarity old c.target
  { old := old
    new := c.target
    origin := c.origin
    similarity := similarity
    consistency := ctx.consistency t old c.target
    confidence := ctx.confidence old c.target c.origin similarity
    breakdown := ctx.breakdown? old c.target }

-- ================================================================== run

/-- The table after all stages, and the count of each stage. -/
structure Run where
  table : Table
  fixed : Nat
  constants : Nat
  anchors : Nat
  propagated : Nat
  refined : Nat
  corrected : Nat
  validated : Nat
deriving DecidableEq

/-- Run all stages in turn. -/
def runStages : Run :=
  let (fixed, t) := ctx.matchFixed {}
  let (constants, t) := ctx.matchConstants t
  let (anchors, t) := ctx.selectAnchors t
  let (propagated, t) := ctx.propagate t
  let (refined, t) := ctx.refine t
  let (corrected, t) := ctx.correctConstants t
  let (validated, t) := ctx.validateReferences t
  { table := t
    fixed := fixed
    constants := constants
    anchors := anchors
    propagated := propagated
    refined := refined
    corrected := corrected
    validated := validated }

/-- Run all stages and report. -/
def matchClasses : Except ClassMapping.Fault MatchReport := do
  let run := ctx.runStages
  let mapping ← ClassMapping.ofMatches
    (run.table.entries.map fun (old, c) => ctx.describe run.table old c)
  return {
    mapping := mapping
    warnings := ctx.audit run.table
    stats := {
      oldClasses := ctx.old.size
      newClasses := ctx.new.size
      fixed := run.fixed
      constants := run.constants + run.corrected
      anchors := run.anchors
      propagated := run.propagated
      refined := run.refined
      validated := run.validated
      unmapped := ctx.old.size - mapping.size } }

end SymbolMatch.Context

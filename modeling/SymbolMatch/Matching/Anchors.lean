/-
Anchors: the pairs that are plain enough to start from. An old class and
a new class anchor each other if each is the other's best candidate and
their score clears a high threshold. Classes that many others refer to go
first, since they are the hardest to confuse.
-/
import SymbolMatch.Matching.Context

namespace SymbolMatch.Context

variable (ctx : Context)

-- ================================================================ score

/-- Classes with more fields than this are compared by their number. -/
def manyFields : Nat := 10

/-- How close the numbers of field types are. That one side has many and
the other none speaks strongly against the pair. -/
def fieldTypeTerm (old new : String) : List (Binary64 × Binary64) :=
  let a := (ctx.old.evidence.fieldTypesOf old).size
  let b := (ctx.new.evidence.fieldTypesOf new).size
  if (3 < a ∧ b = 0) ∨ (3 < b ∧ a = 0) then [(0, 10)]
  else if 0 < a ∨ 0 < b then [(Overlap.countCloseness a b, 5)]
  else []

/-- How close the numbers of fields of two large classes are. -/
def fieldCountTerm (a b : ClassFingerprint) : List (Binary64 × Binary64) :=
  if manyFields < a.fieldCount ∧ manyFields < b.fieldCount then
    [(Overlap.countCloseness a.fieldCount b.fieldCount, 4)]
  else []

/-- How close the numbers of users are. A difference weighs more if the
old class has few of them. -/
def userCountTerm (old new : String) : List (Binary64 × Binary64) :=
  let a := ctx.old.evidence.externalFieldUserCount old
  let b := ctx.new.evidence.externalFieldUserCount new
  if 0 < a ∧ 0 < b then
    [(Overlap.countCloseness a b, if a = b then 2 else if a ≤ 3 then 6 else 3)]
  else []

/-- The ratio of the numbers of own-typed fields of two constant-like
classes. -/
def selfRefTerm (old new : String) : List (Binary64 × Binary64) :=
  let a := ctx.old.evidence.selfFieldRefs old
  let b := ctx.new.evidence.selfFieldRefs new
  if ctx.settings.constantSelfRefs < a ∧ ctx.settings.constantSelfRefs < b then
    [(Binary64.ofNat (min a b) / Binary64.ofNat (max a b), 0.3)]
  else []

/-- How close the numbers of methods are. A difference of up to ten costs
at most three tenths. -/
def methodCountTerm (a b : ClassFingerprint) : Binary64 × Binary64 :=
  let closeness := Overlap.countCloseness a.methodCount b.methodCount
  if Overlap.difference a.methodCount b.methodCount ≤ 10 then
    (max closeness 0.7, 1)
  else (closeness, 1)

/-- The score of a pair as an anchor; 0 if either class is not there. -/
def anchorScore (old new : String) : Binary64 :=
  match ctx.old.fingerprint? old, ctx.new.fingerprint? new with
  | some a, some b =>
    Overlap.weightedMean
      ((ctx.similarity old new, 2) :: ctx.fieldTypeTerm old new
        ++ fieldCountTerm a b ++ ctx.userCountTerm old new
        ++ ctx.selfRefTerm old new ++ [methodCountTerm a b])
  | _, _ => 0

-- ================================================================ order

/-- How visible an old class is: the references to it from other classes,
and its static methods. -/
def anchorPriority (old : String) : Nat :=
  let e := ctx.old.evidence
  let statics := ((ctx.old.fingerprint? old).map (·.staticMethodCount)).getD 0
  (e.externalFieldRefs old + e.externalParamRefs old) * 10 + statics

/-- The unmapped old classes, the most visible first, then by name. -/
def anchorOrder (t : Table) : List String :=
  sortBy (fun a b =>
      (compare (ctx.anchorPriority b) (ctx.anchorPriority a)).then (compare a b))
    (ctx.unmappedOld t)

-- ============================================================ selection

/-- Whether a new class chooses an old class back. -/
def isMutual (t : Table) (old new : String) : Bool :=
  match ctx.chooseOld new (ctx.unmappedOld t) (ctx.anchorScore · new)
      ctx.settings.minSimilarity with
  | some choice => choice.best.id == old
  | none => false

/-- Anchor one old class if it and its best candidate choose each
other. -/
def claimAnchor (t : Table) (old : String) : Bool × Table :=
  match ctx.chooseNew old (ctx.unclaimedNew t) (ctx.anchorScore old)
      ctx.settings.minSimilarity with
  | some choice =>
    if choice.best.score ≤ ctx.settings.anchorThreshold then (false, t)
    else if ctx.isMutual t old choice.best.id then
      t.claim old choice.best.id choice.best.score .anchor
    else (false, t)
  | none => (false, t)

/-- Anchor what can be anchored. -/
def selectAnchors (t : Table) : Nat × Table :=
  t.sweep ctx.claimAnchor (ctx.anchorOrder t)

end SymbolMatch.Context

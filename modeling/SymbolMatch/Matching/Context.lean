/-
The two snapshots of a matching run, and the ways in which its stages go
through candidates and rounds.
-/
import SymbolMatch.Index
import SymbolMatch.Pairing.Table
import SymbolMatch.Selection.Best
import SymbolMatch.Similarity

namespace SymbolMatch

/-- What a matching run works on. -/
structure Context where
  settings : Settings
  old : Index
  new : Index

namespace Context

variable (ctx : Context)

-- ============================================================== classes

def isObfuscated (name : String) : Bool :=
  Name.isObfuscated ctx.settings.maxObfuscatedLength name

/-- The similarity of an old class and a new class; 0 if either is not
there. -/
def similarity (old new : String) : Binary64 :=
  match ctx.old.fingerprint? old, ctx.new.fingerprint? new with
  | some a, some b => classSimilarity a b
  | _, _ => 0

/-- The similarity, part by part. -/
def breakdown? (old new : String) : Option SimilarityBreakdown :=
  match ctx.old.fingerprint? old, ctx.new.fingerprint? new with
  | some a, some b => some (.compute a b)
  | _, _ => none

/-- The old classes with obfuscated names, in the order of the
snapshot. -/
def oldObfuscated : List String := ctx.old.classNames.filter ctx.isObfuscated

/-- The new classes with obfuscated names, in the order of the
snapshot. -/
def newObfuscated : List String := ctx.new.classNames.filter ctx.isObfuscated

/-- The obfuscated old classes that have no pair yet. -/
def unmappedOld (t : Table) : List String :=
  ctx.oldObfuscated.filter (!t.isMapped ·)

/-- The obfuscated new classes that no old class holds yet. -/
def unclaimedNew (t : Table) : List String :=
  ctx.newObfuscated.filter (!t.isClaimed ·)

def isOldConstant (name : String) : Bool :=
  ctx.old.evidence.isConstantLike name ctx.settings.constantSelfRefs

def isNewConstant (name : String) : Bool :=
  ctx.new.evidence.isConstantLike name ctx.settings.constantSelfRefs

/-- How close the numbers of fields of two classes are. -/
def fieldCloseness (old new : String) : Binary64 :=
  Overlap.countCloseness (ctx.old.fieldCount old) (ctx.new.fieldCount new)

-- =========================================================== candidates

/-- Choose among new classes for an old class, by a score above a
floor. -/
def chooseNew (old : String) (candidates : List String)
    (score : String → Binary64) (floor : Binary64) : Option (Choice String) :=
  pickBest (candidates.map fun new => ⟨new, score new, ctx.similarity old new⟩)
    floor ctx.settings.tieMargin

/-- Choose among old classes for a new class. -/
def chooseOld (new : String) (candidates : List String)
    (score : String → Binary64) (floor : Binary64) : Option (Choice String) :=
  pickBest (candidates.map fun old => ⟨old, score old, ctx.similarity old new⟩)
    floor ctx.settings.tieMargin

end Context

-- =============================================================== stages

namespace Table

variable {α : Type}

/-- Make one attempt after another, and count those that changed the
table. -/
def sweep (attempt : Table → α → Bool × Table) :
    Table → List α → Nat × Table
  | t, [] => (0, t)
  | t, a :: rest =>
    let (changed, t₁) := attempt t a
    let (count, t₂) := sweep attempt t₁ rest
    (changed.toNat + count, t₂)

/-- Make rounds until one changes nothing, at most `limit` of them, and
add their counts up. -/
def rounds (round : Table → Nat × Table) :
    (limit : Nat) → Table → Nat × Table
  | 0, t => (0, t)
  | limit + 1, t =>
    match round t with
    | (0, t₁) => (0, t₁)
    | (count, t₁) =>
      let (more, t₂) := rounds round limit t₁
      (count + more, t₂)

end Table

end SymbolMatch

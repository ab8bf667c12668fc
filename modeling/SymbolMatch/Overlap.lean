/-
How much two sets, two multisets or two counts have in common, as a
number from 0 to 1. The whole numbers that a measure divides are
definitions of their own, so that a measure is a ratio of two counts and
nothing else.
-/
import SymbolMatch.Number.Decimal
import SymbolMatch.Ordered.Map
import SymbolMatch.Ordered.Set

namespace SymbolMatch.Overlap

variable {κ : Type} [Ord κ]

-- ================================================================= sets

/-- How many elements two sets share. -/
def sharedCount (a b : OrdSet κ) : Nat := (a.inter b).size

/-- How many elements are in either set: each counted once, so the shared
ones are taken off the sum of the sizes. -/
def unionCount (a b : OrdSet κ) : Nat := a.size + b.size - sharedCount a b

/-- Shared elements per element of the union; 1 for two empty sets. -/
def jaccard (a b : OrdSet κ) : Binary64 :=
  if a.isEmpty && b.isEmpty then 1
  else Binary64.ofNat (sharedCount a b) / Binary64.ofNat (unionCount a b)

/-- As `jaccard`, but 0 for two empty sets. -/
def jaccardOrZero (a b : OrdSet κ) : Binary64 :=
  if unionCount a b = 0 then 0
  else Binary64.ofNat (sharedCount a b) / Binary64.ofNat (unionCount a b)

-- ============================================================ multisets

/-- Counts added up. -/
def total : List Nat → Nat
  | [] => 0
  | n :: rest => n + total rest

/-- The lesser of the two counts of each key, added up. -/
def minSum (a b : OrdMap κ Nat) : Nat :=
  total (a.entries.map fun e => min e.2 (b.getD e.1 0))

/-- The greater of the two counts of each key, added up: first over the
keys of `a`, then over those that only `b` has. -/
def maxSum (a b : OrdMap κ Nat) : Nat :=
  total (a.entries.map fun e => max e.2 (b.getD e.1 0))
    + total ((b.entries.filter fun e => !a.contains e.1).map (·.2))

/-- Shared occurrences per occurrence in either multiset; 1 if there are
none. -/
def multisetJaccard (a b : OrdMap κ Nat) : Binary64 :=
  if maxSum a b = 0 then 1
  else Binary64.ofNat (minSum a b) / Binary64.ofNat (maxSum a b)

/-- The length of a vector of counts. -/
def norm (a : OrdMap κ Nat) : Binary64 :=
  (Binary64.sum
    (a.values.map fun n => Binary64.ofNat n * Binary64.ofNat n)).sqrt

/-- The products of the counts of the keys that two vectors share, added
up in the order of the keys. -/
def dot (a b : OrdMap κ Nat) : Binary64 :=
  Binary64.sum (a.entries.filterMap fun e =>
    (b.get? e.1).map fun n => Binary64.ofNat e.2 * Binary64.ofNat n)

/-- The cosine of the angle between two vectors of counts. Equal vectors
have 1 whatever the rounding of their lengths; so have two zero vectors,
and a zero vector has 0 with any other. -/
def cosine [DecidableEq κ] (a b : OrdMap κ Nat) : Binary64 :=
  if a = b then 1
  else if (norm a).isZero && (norm b).isZero then 1
  else if (norm a).isZero || (norm b).isZero then 0
  else (dot a b / (norm a * norm b)).clamp 0 1

-- =============================================================== counts

/-- The distance between two counts. -/
def difference (a b : Nat) : Nat := max a b - min a b

/-- One less the distance between two counts as a share of the greater. -/
def countCloseness (a b : Nat) : Binary64 :=
  1 - Binary64.ofNat (difference a b) / Binary64.ofNat (max (max a b) 1)

/-- The lesser of two counts per unit of the greater; 1 if they are
equal. -/
def sizeRatio (a b : Nat) : Binary64 :=
  if a = b then 1
  else Binary64.ofNat (min a b) / Binary64.ofNat (max a b)

/-- Whether two things agree, as a number. -/
def agreement (equal : Bool) : Binary64 := if equal then 1 else 0

/-- The mean of weighted terms, each a value with its weight. -/
def weightedMean (terms : List (Binary64 × Binary64)) : Binary64 :=
  let score := terms.foldl (fun acc t => acc + t.1 * t.2) 0
  let weight := terms.foldl (fun acc t => acc + t.2) 0
  score / weight

end SymbolMatch.Overlap

/-
The behaviour of a field: how often it is accessed in each way, by which
methods, and the role that these suggest.
-/
import SymbolMatch.Access.Counts
import SymbolMatch.Program.Member

namespace SymbolMatch

/-- The roles a field may play. -/
structure AccessPatterns where
  counter : Bool := false
  flag : Bool := false
  index : Bool := false
  constant : Bool := false
  multiplier : Bool := false
deriving DecidableEq

/-- What is known of the accesses to a field. -/
structure AccessProfile where
  field : Member
  counts : AccessCounts
  readMethods : OrdSet Member
  writeMethods : OrdSet Member
  patterns : AccessPatterns
deriving DecidableEq

namespace AccessProfile

/-- A field that nothing accesses. -/
def untouched (field : Member) : AccessProfile :=
  ⟨field, {}, {}, {}, {}⟩

/-- Count one more access of a kind. Roles are not reconsidered. -/
def record (p : AccessProfile) (k : AccessKind) : AccessProfile :=
  { p with counts := p.counts.record k }

/-- Add the accesses of another profile. Roles are not reconsidered. -/
def merge (p q : AccessProfile) : AccessProfile :=
  { p with
    counts := p.counts.add q.counts
    readMethods := p.readMethods.union q.readMethods
    writeMethods := p.writeMethods.union q.writeMethods }

-- ================================================================ roles

/-- The roles that a field's counts suggest. A counter is mostly stepped
by one; a flag is mostly tested, an index mostly indexes, a constant has
at most one writing method and many reads, and a multiplier is a whole
number mostly used in arithmetic. -/
def roles (p : AccessProfile) : AccessPatterns :=
  let c := p.counts
  let d := p.field.descriptor
  { counter := 0 < c.write && c.write / 2 < c.increment + c.decrement
    flag := c.read / 2 < c.booleanCheck || (d == "Z" && 0 < c.comparison)
    index := c.read / 3 < c.arrayIndex
    constant := p.writeMethods.size ≤ 1 && c.write * 3 < c.read
    multiplier := c.read / 2 < c.arithmetic && (d == "I" || d == "J") }

/-- A profile with its roles drawn from its counts. -/
def classify (p : AccessProfile) : AccessProfile :=
  { p with patterns := p.roles }

-- =========================================================== similarity

variable {α : Type} [Scalar α]

/-- Reading methods per writing method. -/
def readWriteRatio (p : AccessProfile) : α :=
  Scalar.ofCount p.readMethods.size
    / Scalar.ofCount (max p.writeMethods.size 1)

/-- Add one role to a running score and the weight it is out of. A role
that both play counts in full, a role that only one plays costs half its
weight. -/
def addRole (acc : α × α) (mine theirs : Bool) (full : α) : α × α :=
  if mine && theirs then (acc.1 + full, acc.2 + full)
  else if mine || theirs then (acc.1, acc.2 + full / 2.0)
  else acc

/-- The weighted mean of the agreement of roles, of counts, and of the
ratio of readers to writers. -/
def similarity (p q : AccessProfile) : α :=
  let a := p.patterns
  let b := q.patterns
  let acc : α × α := (0.0, 0.0)
  let acc := addRole acc a.counter b.counter 2.0
  let acc := addRole acc a.flag b.flag 2.0
  let acc := addRole acc a.index b.index 2.0
  let acc := addRole acc a.constant b.constant 1.5
  let acc := addRole acc a.multiplier b.multiplier 1.5
  let score := acc.1 + p.counts.similarity q.counts * 3.0
  let weight := acc.2 + 3.0
  let gap : α := Scalar.abs (p.readWriteRatio - q.readWriteRatio)
  let score := score + 1.0 / (1.0 + gap)
  let weight := weight + 1.0
  score / weight

end AccessProfile

end SymbolMatch

/-
Pairs of classes while matching runs. The table holds both directions,
and every operation changes them together, so no new class is ever the
target of two old classes.
-/
import SymbolMatch.Number.Decimal
import SymbolMatch.Ordered.Map

namespace SymbolMatch

/-- What a pair rests on. -/
inductive Origin
  /-- A name that survives and is in both snapshots. -/
  | fixed
  /-- Given from outside. -/
  | supplied
  | constant
  | anchor
  | propagated
  | refined
  | validated
deriving DecidableEq

namespace Origin

def all : List Origin :=
  [fixed, supplied, constant, anchor, propagated, refined, validated]

/-- The name an origin is reported under. -/
def label : Origin → String
  | fixed => "fixed"
  | supplied => "supplied"
  | constant => "constant"
  | anchor => "anchor"
  | propagated => "propagated"
  | refined => "refined"
  | validated => "validated"

def ofLabel? (s : String) : Option Origin := all.find? (·.label == s)

end Origin

/-- What an old class is paired with. -/
structure Claim where
  target : String
  score : Binary64
  origin : Origin
deriving DecidableEq

/-- The pairs so far. -/
structure Table where
  /-- The claim of each old class. -/
  forward : OrdMap String Claim
  /-- The old class that holds each new class. -/
  backward : OrdMap String String
deriving DecidableEq

namespace Table

def empty : Table := ⟨{}, {}⟩

instance : EmptyCollection Table := ⟨empty⟩

-- ============================================================== reading

def get? (t : Table) (old : String) : Option Claim := t.forward.get? old

def newOf? (t : Table) (old : String) : Option String :=
  (t.forward.get? old).map (·.target)

def oldOf? (t : Table) (new : String) : Option String := t.backward.get? new

def isMapped (t : Table) (old : String) : Bool := t.forward.contains old

def isClaimed (t : Table) (new : String) : Bool := t.backward.contains new

def isFixed (t : Table) (old : String) : Bool :=
  match t.forward.get? old with
  | some c => c.origin = .fixed
  | none => false

def size (t : Table) : Nat := t.forward.size

def isEmpty (t : Table) : Bool := t.forward.isEmpty

/-- The pairs, sorted by old name. -/
def entries (t : Table) : List (String × Claim) := t.forward.entries

/-- The old classes whose claim has a property, in order. -/
def oldsWhere (t : Table) (p : String → Claim → Bool) : List String :=
  (t.entries.filter fun e => p e.1 e.2).map (·.1)

def countOrigin (t : Table) (origin : Origin) : Nat :=
  t.forward.values.countP (·.origin = origin)

-- ============================================================= changing

/-- Pair an unmapped old class with an unclaimed new class. The flag tells
whether the table changed. -/
def claim (t : Table) (old new : String) (score : Binary64)
    (origin : Origin) : Bool × Table :=
  if t.isMapped old || t.isClaimed new then (false, t)
  else
    (true,
      { forward := t.forward.insert old ⟨new, score, origin⟩
        backward := t.backward.insert new old })

/-- Pair two classes for good. -/
def fix (t : Table) (old new : String) : Bool × Table :=
  t.claim old new 1.0 .fixed

/-- Move a mapped old class to an unclaimed new class and release the
class it held. A fixed pair stays. -/
def reassign (t : Table) (old new : String) (score : Binary64)
    (origin : Origin) : Bool × Table :=
  if t.isClaimed new || t.isFixed old then (false, t)
  else match t.forward.get? old with
    | none => (false, t)
    | some current =>
      (true,
        { forward := t.forward.insert old ⟨new, score, origin⟩
          backward := (t.backward.erase current.target).insert new old })

end Table

end SymbolMatch

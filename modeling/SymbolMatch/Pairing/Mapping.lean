/-
A finished mapping of classes: each old class with its match, no old
class twice and no new class twice.
-/
import SymbolMatch.Descriptor.Rename
import SymbolMatch.Pairing.Table
import SymbolMatch.Similarity

namespace SymbolMatch

/-- A pair of classes with what speaks for it. -/
structure ClassMatch where
  old : String
  new : String
  origin : Origin
  /-- The structural similarity; 1 for a fixed pair. -/
  similarity : Binary64
  /-- The share of the neighbours that the mapping carries to
  neighbours. -/
  consistency : Binary64
  confidence : Binary64
  breakdown : Option SimilarityBreakdown
deriving DecidableEq

/-- A match that is given and not inferred. -/
def ClassMatch.supplied (old new : String) : ClassMatch :=
  ⟨old, new, .supplied, 1.0, 1.0, 1.0, none⟩

/-- The matches by old name. -/
structure ClassMapping where
  byOld : OrdMap String ClassMatch
deriving DecidableEq

namespace ClassMapping

-- ============================================================= building

/-- Why a list of matches is no mapping. -/
inductive Fault
  | sharedTarget (first second target : String)
  | repeatedSource (old : String)
deriving DecidableEq

def Fault.message : Fault → String
  | sharedTarget first second target =>
    "Mapping collision: " ++ first ++ " and " ++ second ++ " both map to "
      ++ target
  | repeatedSource old => "Mapping collision: " ++ old ++ " mapped twice"

/-- Add matches one by one. `holders` has the old class of each target
taken so far. -/
def extend : (holders : OrdMap String String) →
    (byOld : OrdMap String ClassMatch) → List ClassMatch →
    Except Fault ClassMapping
  | _, byOld, [] => .ok ⟨byOld⟩
  | holders, byOld, m :: rest =>
    match holders.get? m.new with
    | some holder => .error (.sharedTarget holder m.old m.new)
    | none =>
      if byOld.contains m.old then .error (.repeatedSource m.old)
      else extend (holders.insert m.new m.old) (byOld.insert m.old m) rest

/-- The mapping of a list of matches. Of two faults the first match that
shows one decides, and a shared target counts before a repeated
source. -/
def ofMatches (ms : List ClassMatch) : Except Fault ClassMapping :=
  extend {} {} ms

/-- The mapping that is given by pairs of names. -/
def ofPairs (pairs : List (String × String)) : Except Fault ClassMapping :=
  ofMatches (pairs.map fun p => .supplied p.1 p.2)

-- ============================================================== reading

def get? (m : ClassMapping) (old : String) : Option ClassMatch :=
  m.byOld.get? old

def newName? (m : ClassMapping) (old : String) : Option String :=
  (m.get? old).map (·.new)

/-- The confidence of a class's match; 0 if it has none. -/
def confidence (m : ClassMapping) (old : String) : Binary64 :=
  match m.get? old with
  | some c => c.confidence
  | none => 0.0

def size (m : ClassMapping) : Nat := m.byOld.size

def isEmpty (m : ClassMapping) : Bool := m.byOld.isEmpty

/-- The matches, sorted by old name. -/
def toList (m : ClassMapping) : List ClassMatch := m.byOld.values

/-- The new name of each old name. -/
def names (m : ClassMapping) : OrdMap String String :=
  OrdMap.ofList (m.toList.map fun c => (c.old, c.new))

/-- A descriptor with the mapped classes renamed. -/
def rename (m : ClassMapping) (text : String) :
    Except Descriptor.Fault String :=
  Descriptor.rename m.newName? text

/-- Whether a new descriptor is the old one under the mapping. -/
def agree (m : ClassMapping) (old new : String) :
    Except Descriptor.Fault Bool :=
  Descriptor.agree m.newName? old new

end ClassMapping

end SymbolMatch

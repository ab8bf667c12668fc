/-
The candidates for each old field. A field whose name survives has one
candidate, if the class that its class became declares it; any other
field has the best few of all fields it is compatible with.
-/
import SymbolMatch.FieldMatch.Score
import SymbolMatch.Selection.Leaders

namespace SymbolMatch

/-- A new field that an old field may have become. -/
structure FieldCandidate where
  new : Member
  score : Binary64
  /-- Whether it is settled by name. -/
  fixed : Bool
  parts : Option FieldScore
deriving DecidableEq

namespace FieldCandidate

/-- The highest score first, then by key. -/
def ranking (a b : FieldCandidate) : Ordering :=
  (Binary64.totalCompare b.score a.score).then (compare a.new b.new)

/-- The candidate that is settled by name. -/
def settled (new : Member) : FieldCandidate := ⟨new, 1, true, none⟩

end FieldCandidate

/-- The candidates for each old field, the best first. -/
structure FieldResolution where
  candidates : OrdMap Member (List FieldCandidate)
deriving DecidableEq

namespace FieldResolution

def candidatesFor (r : FieldResolution) (old : Member) :
    List FieldCandidate :=
  r.candidates.getD old []

def size (r : FieldResolution) : Nat := r.candidates.size

def isEmpty (r : FieldResolution) : Bool := r.candidates.isEmpty

end FieldResolution

namespace FieldContext

variable (ctx : FieldContext)

/-- The new field with the same name and the renamed descriptor in the
class that an old field's class became, for a name that survives. -/
def fixedCandidate? (old : Member) : Option Member :=
  if Name.isObfuscated ctx.settings.maxObfuscatedLength old.name then none
  else do
    let owner ← ctx.classes.newName? old.owner
    let type ← ctx.renamedTypes.get? old
    let key : Member := ⟨owner, old.name, type.descriptor⟩
    if ctx.new.fields.contains key then some key else none

/-- Every new field that an old field is compatible with, by key. -/
def compatible (old : Member) : List FieldCandidate :=
  let s := ctx.surroundings old
  ctx.new.fields.keys.filterMap fun new =>
    (ctx.scoreWithin s old new).map fun (score, parts) =>
      ⟨new, score, false, some parts⟩

/-- The candidates for an old field, the best first. -/
def candidatesFor (old : Member) : List FieldCandidate :=
  match ctx.fixedCandidate? old with
  | some new => [.settled new]
  | none =>
    (Leaders.ofList ctx.settings.fieldTopK (ctx.compatible old) :
      Leaders FieldCandidate FieldCandidate.ranking).items

/-- The candidates for every old field. -/
def resolve : FieldResolution :=
  ⟨OrdMap.ofList (ctx.old.fields.keys.map fun old =>
    (old, ctx.candidatesFor old))⟩

end FieldContext

end SymbolMatch

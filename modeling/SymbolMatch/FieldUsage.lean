/-
Which methods refer to each field, and which fields are siblings: those
that some method refers to together.
-/
import SymbolMatch.Access.Owners

namespace SymbolMatch

/-- The methods that refer to each field. -/
structure FieldUsage where
  users : OrdMap Member (OrdSet Member)

namespace FieldUsage

-- ============================================================= building

/-- The field references in a class, each with the method that makes it.
A field of the snapshot stands under the class that declares it, any
other field under the class that the reference names. -/
def scanClass (owners : Owners) (c : ClassDecl) : List (Member × Member) :=
  c.methods.flatMap fun m =>
    (m.code.filterMap Instruction.field?).map fun key =>
      ((owners.resolve key).getD key, c.methodKey m)

/-- Add one reference. -/
def absorb (u : OrdMap Member (OrdSet Member)) (ref : Member × Member) :
    OrdMap Member (OrdSet Member) :=
  u.alter ref.1 fun s => (s.getD {}).insert ref.2

/-- The usage that a list of references amounts to. -/
def ofRefs (refs : List (Member × Member)) : FieldUsage :=
  ⟨refs.foldl absorb {}⟩

-- ============================================================== reading

def methodsUsing (u : FieldUsage) (field : Member) : OrdSet Member :=
  u.users.getD field {}

def size (u : FieldUsage) : Nat := u.users.size

def isEmpty (u : FieldUsage) : Bool := u.users.isEmpty

/-- The fields that each method refers to. -/
def fieldsByMethod (u : FieldUsage) : OrdMap Member (OrdSet Member) :=
  u.users.entries.foldl (fun acc entry =>
    entry.2.elements.foldl (fun acc m => absorb acc (m, entry.1)) acc) {}

/-- Record each pair of different fields as siblings. -/
def pairUp (acc : OrdMap Member (OrdSet Member)) (fields : OrdSet Member) :
    OrdMap Member (OrdSet Member) :=
  fields.elements.foldl (fun acc a =>
    fields.elements.foldl (fun acc b =>
      if a = b then acc else absorb acc (a, b)) acc) acc

/-- The siblings of each field that has some. -/
def siblings (u : FieldUsage) : OrdMap Member (OrdSet Member) :=
  u.fieldsByMethod.values.foldl pairUp {}

end FieldUsage

end SymbolMatch

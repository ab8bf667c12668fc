/-
Which classes appear in whose descriptors. The graph is kept in both
directions, from a class to the types of its fields, parameters and
results and from a type to the classes that use it, together with which
types are used side by side and how often.

Platform classes leave no evidence. An array counts as its innermost
type.
-/
import SymbolMatch.Descriptor.Parser
import SymbolMatch.Program.Snapshot
import SymbolMatch.Settings.Basic

namespace SymbolMatch

-- =========================================================== one class

/-- What one class uses. -/
structure ClassUsage where
  name : String
  /-- The tracked class of each field, in order, repetitions kept. -/
  fieldRefs : List String
  /-- The tracked class of each parameter of each method. -/
  paramRefs : List String
  /-- The tracked class of each method's result. -/
  returnRefs : List String

namespace ClassUsage

/-- The class that a type names, unless it belongs to the platform. -/
def tracked? (settings : Settings) (t : TypeDesc) : Option String :=
  t.className?.filter fun name => !settings.isPlatform name

/-- Read the descriptors of a class. -/
def scan (settings : Settings) (c : ClassDecl) :
    Except Descriptor.Fault ClassUsage := do
  let fields ← c.fields.mapM fun f => Descriptor.field f.descriptor
  let methods ← c.methods.mapM fun m => Descriptor.method m.descriptor
  return {
    name := c.name
    fieldRefs := fields.filterMap (tracked? settings)
    paramRefs := (methods.flatMap (·.params)).filterMap (tracked? settings)
    returnRefs := methods.filterMap fun m => m.result.bind (tracked? settings) }

def fieldTypes (u : ClassUsage) : OrdSet String := OrdSet.ofList u.fieldRefs

def paramTypes (u : ClassUsage) : OrdSet String := OrdSet.ofList u.paramRefs

def returnTypes (u : ClassUsage) : OrdSet String := OrdSet.ofList u.returnRefs

/-- Every type the class uses. -/
def types (u : ClassUsage) : OrdSet String :=
  (u.fieldTypes.union u.paramTypes).union u.returnTypes

end ClassUsage

-- ============================================================ the graph

/-- The usage graph of a snapshot. -/
structure Evidence where
  fieldTypeUsages : OrdMap String (OrdSet String)
  paramTypeUsages : OrdMap String (OrdSet String)
  returnTypeUsages : OrdMap String (OrdSet String)
  usedAsFieldType : OrdMap String (OrdSet String)
  usedAsParamType : OrdMap String (OrdSet String)
  usedAsReturnType : OrdMap String (OrdSet String)
  coOccurrence : OrdMap String (OrdSet String)
  selfFieldRefCounts : OrdMap String Nat
  selfParamRefCounts : OrdMap String Nat
  externalFieldRefCounts : OrdMap String Nat
  externalParamRefCounts : OrdMap String Nat
deriving DecidableEq

namespace Evidence

def empty : Evidence := ⟨{}, {}, {}, {}, {}, {}, {}, {}, {}, {}, {}⟩

/-- Add an element to the set under a key. -/
def link (m : OrdMap String (OrdSet String)) (k v : String) :
    OrdMap String (OrdSet String) :=
  m.alter k fun s => (s.getD {}).insert v

/-- Record a class as a user of each of its types. -/
def invert (m : OrdMap String (OrdSet String)) (user : String)
    (types : OrdSet String) : OrdMap String (OrdSet String) :=
  types.elements.foldl (fun m t => link m t user) m

/-- Record each pair of different types as used side by side. -/
def pairUp (m : OrdMap String (OrdSet String)) (types : OrdSet String) :
    OrdMap String (OrdSet String) :=
  types.elements.foldl (fun m a =>
    types.elements.foldl (fun m b => if a = b then m else link m a b) m) m

/-- Count the references to classes other than the referring one. -/
def countExternal (m : OrdMap String Nat) (user : String)
    (refs : List String) : OrdMap String Nat :=
  (refs.filter (· ≠ user)).foldl OrdMap.bump m

/-- Add what one class uses to the graph. -/
def absorb (e : Evidence) (u : ClassUsage) : Evidence where
  fieldTypeUsages := e.fieldTypeUsages.insert u.name u.fieldTypes
  paramTypeUsages := e.paramTypeUsages.insert u.name u.paramTypes
  returnTypeUsages := e.returnTypeUsages.insert u.name u.returnTypes
  usedAsFieldType := invert e.usedAsFieldType u.name u.fieldTypes
  usedAsParamType := invert e.usedAsParamType u.name u.paramTypes
  usedAsReturnType := invert e.usedAsReturnType u.name u.returnTypes
  coOccurrence := pairUp e.coOccurrence u.types
  selfFieldRefCounts :=
    e.selfFieldRefCounts.insert u.name (u.fieldRefs.count u.name)
  selfParamRefCounts :=
    e.selfParamRefCounts.insert u.name (u.paramRefs.count u.name)
  externalFieldRefCounts :=
    countExternal e.externalFieldRefCounts u.name u.fieldRefs
  externalParamRefCounts :=
    countExternal e.externalParamRefCounts u.name u.paramRefs

/-- The graph of a list of classes. -/
def ofUsages (usages : List ClassUsage) : Evidence := usages.foldl absorb empty

/-- The graph of a snapshot. -/
def build (settings : Settings) (s : Snapshot) :
    Except Descriptor.Fault Evidence := do
  return ofUsages (← s.classes.mapM (ClassUsage.scan settings))

-- ============================================== from a class to its types

variable (e : Evidence) (name : String)

def fieldTypesOf : OrdSet String := e.fieldTypeUsages.getD name {}

def paramTypesOf : OrdSet String := e.paramTypeUsages.getD name {}

def returnTypesOf : OrdSet String := e.returnTypeUsages.getD name {}

/-- Every type a class uses, itself apart. -/
def referencedTypes : OrdSet String :=
  (((e.fieldTypesOf name).union (e.paramTypesOf name)).union
    (e.returnTypesOf name)).filter (· ≠ name)

def coOccurring : OrdSet String := e.coOccurrence.getD name {}

-- ============================================== from a type to its users

def fieldUsersOf : OrdSet String := e.usedAsFieldType.getD name {}

def paramUsersOf : OrdSet String := e.usedAsParamType.getD name {}

def returnUsersOf : OrdSet String := e.usedAsReturnType.getD name {}

/-- The other classes that hold a field of a type. -/
def externalFieldUsers : OrdSet String :=
  (e.fieldUsersOf name).filter (· ≠ name)

/-- The other classes that take a parameter of a type. -/
def externalParamUsers : OrdSet String :=
  (e.paramUsersOf name).filter (· ≠ name)

def externalFieldUserCount : Nat := (e.externalFieldUsers name).size

-- =============================================================== counts

/-- How many of its own fields have the class as their type. -/
def selfFieldRefs : Nat := e.selfFieldRefCounts.getD name 0

def selfParamRefs : Nat := e.selfParamRefCounts.getD name 0

/-- How many fields of other classes have the class as their type. -/
def externalFieldRefs : Nat := e.externalFieldRefCounts.getD name 0

def externalParamRefs : Nat := e.externalParamRefCounts.getD name 0

/-- Whether a class holds many fields of its own type, as a class of
constants does. -/
def isConstantLike (threshold : Nat) : Bool := threshold < e.selfFieldRefs name

end Evidence

end SymbolMatch

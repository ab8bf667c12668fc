/-
Everything the matcher knows of one snapshot. Each part is drawn from
the classes in their order; a table that is keyed by members keeps the
later of two entries with one key.
-/
import SymbolMatch.Access.Scan
import SymbolMatch.Evidence
import SymbolMatch.FieldUsage
import SymbolMatch.Fingerprint
import SymbolMatch.Ordered.Sort

namespace SymbolMatch

/-- What a field's declaration says besides its key. -/
structure FieldInfo where
  isStatic : Bool
  isFinal : Bool
  /-- Its place among the fields of its class. -/
  position : Nat
  ownerFieldCount : Nat
deriving DecidableEq

/-- The analysis of a snapshot. -/
structure Index where
  /-- In the order of the snapshot. -/
  fingerprints : List ClassFingerprint
  methods : OrdMap Member MethodFingerprint
  evidence : Evidence
  profiles : OrdMap Member AccessProfile
  usage : FieldUsage
  fields : OrdMap Member FieldInfo

namespace Index

-- ============================================================= building

/-- The fields of a class with what their declarations say. -/
def fieldInfos (c : ClassDecl) : List (Member × FieldInfo) :=
  c.fields.zipIdx.map fun (f, position) =>
    (c.fieldKey f, ⟨f.isStatic, f.isFinal, position, c.fields.length⟩)

/-- What one class contributes, with the descriptors it was read from. -/
structure Extract where
  fingerprint : ClassFingerprint
  methods : List MethodFingerprint
  usage : ClassUsage

/-- Read one class. -/
def extract (settings : Settings) (c : ClassDecl) :
    Except Descriptor.Fault Extract := do
  let cutoff := settings.maxObfuscatedLength
  let methods ← c.methods.mapM (MethodFingerprint.extract cutoff c)
  let fingerprint ← ClassFingerprint.extract cutoff c
  let usage ← ClassUsage.scan settings c
  return ⟨fingerprint, methods, usage⟩

/-- Analyse a snapshot. -/
def build (settings : Settings) (s : Snapshot) :
    Except Descriptor.Fault Index := do
  let owners := Owners.ofClasses s.classes
  let extracts ← s.classes.mapM (extract settings)
  let methods := extracts.flatMap (·.methods)
  return {
    fingerprints := extracts.map (·.fingerprint)
    methods := OrdMap.ofList (methods.map fun m => (m.key, m))
    evidence := Evidence.ofUsages (extracts.map (·.usage))
    profiles := AccessProfile.ofClasses owners s.classes
    usage := FieldUsage.ofRefs (s.classes.flatMap (FieldUsage.scanClass owners))
    fields := OrdMap.ofList (s.classes.flatMap fieldInfos) }

-- ============================================================== reading

def fingerprint? (x : Index) (name : String) : Option ClassFingerprint :=
  x.fingerprints.find? (·.name == name)

def contains (x : Index) (name : String) : Bool := (x.fingerprint? name).isSome

/-- The class names, in the order of the snapshot. -/
def classNames (x : Index) : List String := x.fingerprints.map (·.name)

def size (x : Index) : Nat := x.fingerprints.length

def isEmpty (x : Index) : Bool := x.fingerprints.isEmpty

/-- How many fields a class declares; none if it is not there. -/
def fieldCount (x : Index) (name : String) : Nat :=
  ((x.fingerprint? name).map (·.fieldCount)).getD 0

/-- The declared fields of a class, in the order of declaration. -/
def fieldsOf (x : Index) (owner : String) : List (Member × FieldInfo) :=
  sortBy (compareOn fun e => e.2.position)
    (x.fields.entries.filter (·.1.owner == owner))

end Index

end SymbolMatch

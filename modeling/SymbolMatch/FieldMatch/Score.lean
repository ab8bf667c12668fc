/-
The score of a pair of fields under a mapping of classes and a mapping of
methods. The old field's surroundings, the methods that use it and the
shapes of its siblings, are carried over to the new snapshot and compared
with the new field's.
-/
import SymbolMatch.FieldMatch.Compatibility
import SymbolMatch.Overlap
import SymbolMatch.Pairing.Mapping

namespace SymbolMatch

-- =============================================================== shapes

/-- What is kept of a sibling field: its class and its descriptor. -/
structure FieldShape where
  owner : String
  descriptor : String
deriving DecidableEq

namespace FieldShape

instance : Ord FieldShape where
  compare := compareLex (compareOn owner) (compareOn descriptor)

instance : Std.TransOrd FieldShape :=
  inferInstanceAs
    (Std.TransCmp (compareLex (compareOn owner) (compareOn descriptor)))

instance : Std.LawfulEqOrd FieldShape where
  eq_of_compare {a b} h := by
    obtain ⟨o, d⟩ := a
    obtain ⟨o', d'⟩ := b
    have h : (compare o o').then (compare d d') = .eq := h
    simp only [Ordering.then_eq_eq] at h
    simpa using h

def ofField (f : Member) : FieldShape := ⟨f.owner, f.descriptor⟩

end FieldShape

-- ============================================================== weights

/-- The parts of a field score. The same record holds the weights of the
parts. -/
structure FieldScore where
  typeScore : Binary64
  modifiers : Binary64
  owner : Binary64
  usage : Binary64
  coOccurrence : Binary64
  proximity : Binary64
  volume : Binary64
  profile : Binary64
deriving DecidableEq

namespace FieldScore

/-- The weights for a field of primitive type. -/
def primitiveWeights : FieldScore where
  typeScore := 0.10
  modifiers := 0.05
  owner := 0.20
  usage := 0.30
  coOccurrence := 0.08
  proximity := 0.05
  volume := 0.07
  profile := 0.15

/-- The weights for a static field of another type. -/
def staticWeights : FieldScore where
  typeScore := 0.20
  modifiers := 0.10
  owner := 0.15
  usage := 0.35
  coOccurrence := 0.10
  proximity := 0.0
  volume := 0.0
  profile := 0.10

/-- The weights for an instance field of another type. -/
def instanceWeights : FieldScore where
  typeScore := 0.18
  modifiers := 0.05
  owner := 0.28
  usage := 0.27
  coOccurrence := 0.10
  proximity := 0.05
  volume := 0.0
  profile := 0.07

/-- The weighted sum of the parts. -/
def weighted (s w : FieldScore) : Binary64 :=
  s.typeScore * w.typeScore + s.modifiers * w.modifiers + s.owner * w.owner
    + s.usage * w.usage + s.coOccurrence * w.coOccurrence
    + s.proximity * w.proximity + s.volume * w.volume + s.profile * w.profile

end FieldScore

-- ============================================================== context

/-- What fields are matched under. -/
structure FieldContext where
  settings : Settings
  old : Index
  new : Index
  classes : ClassMapping
  /-- The new method of each old method. -/
  methods : OrdMap Member Member
  oldTypes : OrdMap Member TypeDesc
  /-- The types of the old fields with the mapped classes renamed. -/
  renamedTypes : OrdMap Member TypeDesc
  newTypes : OrdMap Member TypeDesc
  oldSiblings : OrdMap Member (OrdSet Member)
  newShapes : OrdMap Member (OrdSet FieldShape)

namespace FieldContext

/-- The type of each field of an index. -/
def typesOf (x : Index) :
    Except Descriptor.Fault (List (Member × TypeDesc)) :=
  x.fields.keys.mapM fun f => do return (f, ← Descriptor.field f.descriptor)

/-- The shapes of the siblings of each field that has some. -/
def shapesOf (x : Index) : OrdMap Member (OrdSet FieldShape) :=
  OrdMap.ofList (x.usage.siblings.entries.map fun (f, siblings) =>
    (f, OrdSet.ofList (siblings.elements.map FieldShape.ofField)))

/-- Prepare to match the fields of two snapshots. -/
def build (settings : Settings) (old new : Index) (classes : ClassMapping)
    (methods : OrdMap Member Member) :
    Except Descriptor.Fault FieldContext := do
  let oldTypes ← typesOf old
  let newTypes ← typesOf new
  let rename := Descriptor.renamed classes.newName?
  return {
    settings := settings
    old := old
    new := new
    classes := classes
    methods := methods
    oldTypes := OrdMap.ofList oldTypes
    renamedTypes :=
      OrdMap.ofList (oldTypes.map fun (f, t) => (f, t.mapClasses rename))
    newTypes := OrdMap.ofList newTypes
    oldSiblings := old.usage.siblings
    newShapes := shapesOf new }

variable (ctx : FieldContext)

-- ========================================================= surroundings

/-- The surroundings of an old field, carried over to the new
snapshot. -/
structure Surroundings where
  siblings : OrdSet FieldShape
  users : OrdSet Member
deriving DecidableEq

/-- The shape that an old sibling has in the new snapshot. A field that
the old snapshot does not declare keeps its descriptor. -/
def carryShape (f : Member) : FieldShape where
  owner := Descriptor.renamed ctx.classes.newName? f.owner
  descriptor := match ctx.renamedTypes.get? f with
    | some t => t.descriptor
    | none => f.descriptor

/-- Carry over the surroundings of an old field. Methods without a
counterpart are left out. -/
def surroundings (old : Member) : Surroundings where
  siblings := OrdSet.ofList
    ((ctx.oldSiblings.getD old {}).elements.map ctx.carryShape)
  users := OrdSet.ofList
    ((ctx.old.usage.methodsUsing old).elements.filterMap ctx.methods.get?)

-- ================================================================ parts

/-- Whether the mapping carries the class of an old field to the class of
a new one. -/
def sameOwner (old new : Member) : Bool :=
  ctx.classes.newName? old.owner == some new.owner

/-- Fields of paired classes score by the confidence of the pair. An
instance field in another class is unlikely. -/
def ownerScore (old new : Member) (bothInstance : Bool) : Binary64 :=
  if ctx.sameOwner old new then
    ctx.classes.confidence old.owner * (if bothInstance then 1 else 0.6)
  else if bothInstance then -0.2
  else 0

/-- The overlap of the methods that use the fields. A good overlap counts
extra if the numbers of users are the same. -/
def usageScore (s : Surroundings) (old new : Member) : Binary64 :=
  let newUsers := ctx.new.usage.methodsUsing new
  let overlap := Overlap.jaccardOrZero s.users newUsers
  if 0.5 < overlap
      && (ctx.old.usage.methodsUsing old).size == newUsers.size
  then min (overlap + 0.1) 1
  else overlap

/-- The overlap of the shapes of siblings; one half if neither field has
siblings. -/
def coOccurrenceScore (s : Surroundings) (new : Member) : Binary64 :=
  let theirs := ctx.newShapes.getD new {}
  match s.siblings.isEmpty, theirs.isEmpty with
  | true, true => 0.5
  | false, false => Overlap.jaccardOrZero s.siblings theirs
  | _, _ => 0

/-- The ratio of the numbers of users of two primitive fields. -/
def volumeScore (old new : Member) (bothPrimitive : Bool) : Binary64 :=
  let a := (ctx.old.usage.methodsUsing old).size
  let b := (ctx.new.usage.methodsUsing new).size
  if bothPrimitive && 0 < a && 0 < b then
    Binary64.ofNat (min a b) / Binary64.ofNat (max a b) * 0.5
  else 0

/-- How far two fields behave alike. -/
def behaviourScore (old new : Member) (primitive : Bool) : Binary64 :=
  match ctx.old.profiles.get? old, ctx.new.profiles.get? new with
  | some a, some b => FieldMatch.profileScore a b primitive
  | _, _ => 0

-- ================================================================ score

/-- The weights for an old field. -/
def weightsFor (type : TypeDesc) (info : FieldInfo) : FieldScore :=
  if type.isPrimitive then .primitiveWeights
  else if info.isStatic then .staticWeights
  else .instanceWeights

/-- The score of a pair and its parts, or `none` if either field is not
there or their types never match. -/
def scoreWithin (s : Surroundings) (old new : Member) :
    Option (Binary64 × FieldScore) := do
  let oldInfo ← ctx.old.fields.get? old
  let newInfo ← ctx.new.fields.get? new
  let oldType ← ctx.oldTypes.get? old
  let newType ← ctx.newTypes.get? new
  let renamed ← ctx.renamedTypes.get? old
  let typeScore ← FieldMatch.typeCompatibility oldType renamed newType
  let bothInstance := !oldInfo.isStatic && !newInfo.isStatic
  let parts : FieldScore := {
    typeScore := typeScore
    modifiers := FieldMatch.modifierScore oldInfo newInfo
    owner := ctx.ownerScore old new bothInstance
    usage := ctx.usageScore s old new
    coOccurrence := ctx.coOccurrenceScore s new
    proximity :=
      if ctx.sameOwner old new then FieldMatch.proximity oldInfo newInfo else 0
    volume :=
      ctx.volumeScore old new (oldType.isPrimitive && newType.isPrimitive)
    profile := ctx.behaviourScore old new oldType.isPrimitive }
  return (parts.weighted (weightsFor oldType oldInfo), parts)

/-- The score of a pair of fields. -/
def score (old new : Member) : Option (Binary64 × FieldScore) :=
  ctx.scoreWithin (ctx.surroundings old) old new

end FieldContext

end SymbolMatch

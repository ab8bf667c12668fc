/-
Fingerprints: what a class and a method look like once the names that an
obfuscator chose are gone. Two builds of one class have close
fingerprints however their names differ.
-/
import SymbolMatch.Descriptor.Rename
import SymbolMatch.Name
import SymbolMatch.Program.Class

namespace SymbolMatch

/-- A name, or the placeholder if an obfuscator chose it. -/
def blurName (cutoff : Nat) (name : String) : String :=
  Descriptor.blur (Name.isObfuscated cutoff) name

/-- The strings that a list of instructions loads. -/
def loadedStrings (code : List Instruction) : OrdSet String :=
  OrdSet.ofList (code.filterMap Instruction.string?)

/-- How often each instruction code occurs. -/
def opcodeCounts (code : List Instruction) : OrdMap Nat Nat :=
  OrdMap.tally (code.map (·.opcode))

-- ============================================================== classes

/-- The shape of a class. -/
structure ClassFingerprint where
  name : String
  kind : ClassKind
  superType : Option String
  interfaces : OrdSet String
  constructorCount : Nat
  hasStaticInitializer : Bool
  methodDescriptors : OrdMap String Nat
  staticMethodSignatures : OrdSet String
  opcodeHistogram : OrdMap Nat Nat
  stringLiterals : OrdSet String
  staticFieldTypes : OrdMap String Nat
  instanceFieldTypes : OrdMap String Nat
  methodCount : Nat
  fieldCount : Nat
  staticMethodCount : Nat
deriving DecidableEq

namespace ClassFingerprint

/-- Whether a method counts among the static ones: the initializer of the
class does not. -/
def countsAsStatic (m : MethodDecl) : Bool :=
  m.isStatic && !m.isStaticInitializer

/-- The fingerprint of a class. The code of an abstract method does not
count. -/
def extract (cutoff : Nat) (c : ClassDecl) :
    Except Descriptor.Fault ClassFingerprint := do
  let transient := Name.isObfuscated cutoff
  let methodTypes ← c.methods.mapM fun m =>
    Descriptor.blurMethod transient m.descriptor
  let fieldTypes ← c.fields.mapM fun f =>
    Descriptor.blurField transient f.descriptor
  let statics := (c.methods.zip methodTypes).filter fun p => countsAsStatic p.1
  let fields := c.fields.zip fieldTypes
  let code := (c.methods.filter (!·.isAbstract)).flatMap (·.code)
  return {
    name := c.name
    kind := c.kind
    superType := c.superName.map (blurName cutoff)
    interfaces := OrdSet.ofList (c.interfaces.map (blurName cutoff))
    constructorCount := c.methods.countP (·.isConstructor)
    hasStaticInitializer := c.methods.any (·.isStaticInitializer)
    methodDescriptors := OrdMap.tally methodTypes
    staticMethodSignatures :=
      OrdSet.ofList (statics.map fun p => blurName cutoff p.1.name ++ p.2)
    opcodeHistogram := opcodeCounts code
    stringLiterals := loadedStrings code
    staticFieldTypes :=
      OrdMap.tally ((fields.filter (·.1.isStatic)).map (·.2))
    instanceFieldTypes :=
      OrdMap.tally ((fields.filter (!·.1.isStatic)).map (·.2))
    methodCount := c.methods.length
    fieldCount := c.fields.length
    staticMethodCount := statics.length }

/-- The superclass and the interfaces together. -/
def hierarchy (f : ClassFingerprint) : OrdSet String :=
  match f.superType with
  | some s => f.interfaces.insert s
  | none => f.interfaces

end ClassFingerprint

-- ============================================================== methods

/-- The shape of a method. -/
structure MethodFingerprint where
  key : Member
  normalizedDescriptor : String
  isStatic : Bool
  instructionCount : Nat
  opcodeHistogram : OrdMap Nat Nat
  stringLiterals : OrdSet String
  invokedSignatures : OrdSet String
deriving DecidableEq

namespace MethodFingerprint

/-- A method that another one calls, with its transient names blurred. -/
def invokedSignature (cutoff : Nat) (key : Member) :
    Except Descriptor.Fault String := do
  let d ← Descriptor.blurMethod (Name.isObfuscated cutoff) key.descriptor
  return blurName cutoff key.owner ++ "." ++ blurName cutoff key.name ++ d

/-- The fingerprint of a method of a class. -/
def extract (cutoff : Nat) (c : ClassDecl) (m : MethodDecl) :
    Except Descriptor.Fault MethodFingerprint := do
  let invoked ← (m.code.filterMap Instruction.method?).mapM
    (invokedSignature cutoff)
  let normalized ←
    Descriptor.blurMethod (Name.isObfuscated cutoff) m.descriptor
  return {
    key := c.methodKey m
    normalizedDescriptor := normalized
    isStatic := m.isStatic
    instructionCount := m.code.length
    opcodeHistogram := opcodeCounts m.code
    stringLiterals := loadedStrings m.code
    invokedSignatures := OrdSet.ofList invoked }

end MethodFingerprint

end SymbolMatch

/-
A snapshot is one build of a program: its classes, in the order in which
they were given, once they have been checked.

The check covers every descriptor that a later analysis reads, in
declarations and in operands, and the names that later tables are keyed
by. It goes through the classes in order and reports the first fault:
within a class its name, then each field, then each method with its
instructions, and last whether the class was seen before.
-/
import SymbolMatch.Descriptor.Parser
import SymbolMatch.Program.Class

namespace SymbolMatch

/-- One build of a program. -/
structure Snapshot where
  classes : List ClassDecl

namespace Snapshot

-- =============================================================== faults

/-- Why a list of classes is no snapshot. -/
inductive Fault
  | emptyName
  | duplicateClass (name : String)
  | duplicateField (key : Member)
  /-- A descriptor of a member, or of an operand in its code, is
  malformed. -/
  | badDescriptor (className memberName : String) (fault : Descriptor.Fault)
deriving DecidableEq

def Fault.message : Fault → String
  | emptyName => "Snapshot error: class with empty name"
  | duplicateClass name => "Snapshot error: duplicate class " ++ name
  | duplicateField key => "Snapshot error: duplicate field " ++ key.fieldText
  | badDescriptor c m fault =>
    "Snapshot error: " ++ c ++ "." ++ m ++ ": " ++ fault.message

-- ============================================================= checking

/-- Check the fields of a class; `seen` holds those already passed. -/
def checkFields (c : ClassDecl) :
    (seen : List Member) → List FieldDecl → Except Fault Unit
  | _, [] => .ok ()
  | seen, f :: rest => do
    let _ ← (Descriptor.field f.descriptor).mapError
      (.badDescriptor c.name f.name)
    if c.fieldKey f ∈ seen then throw (.duplicateField (c.fieldKey f))
    checkFields c (c.fieldKey f :: seen) rest

/-- Check the descriptor of an instruction's operand. -/
def checkOperand (c : ClassDecl) (m : MethodDecl) (i : Instruction) :
    Except Fault Unit :=
  match i.operand with
  | .field key => do
    let _ ← (Descriptor.field key.descriptor).mapError
      (.badDescriptor c.name m.name)
  | .method key => do
    let _ ← (Descriptor.method key.descriptor).mapError
      (.badDescriptor c.name m.name)
  | _ => .ok ()

/-- Check a method and its code. -/
def checkMethod (c : ClassDecl) (m : MethodDecl) : Except Fault Unit := do
  let _ ← (Descriptor.method m.descriptor).mapError
    (.badDescriptor c.name m.name)
  m.code.forM (checkOperand c m)

/-- Check one class by itself. -/
def checkClass (c : ClassDecl) : Except Fault Unit := do
  if c.name = "" then throw .emptyName
  checkFields c [] c.fields
  c.methods.forM (checkMethod c)

/-- Check classes in order; `seen` holds the names already passed. -/
def checkClasses : (seen : List String) → List ClassDecl → Except Fault Unit
  | _, [] => .ok ()
  | seen, c :: rest => do
    checkClass c
    if c.name ∈ seen then throw (.duplicateClass c.name)
    checkClasses (c.name :: seen) rest

/-- The snapshot of a list of classes. -/
def ofClasses (classes : List ClassDecl) : Except Fault Snapshot := do
  checkClasses [] classes
  return ⟨classes⟩

-- ============================================================== reading

def size (s : Snapshot) : Nat := s.classes.length

def isEmpty (s : Snapshot) : Bool := s.classes.isEmpty

def names (s : Snapshot) : List String := s.classes.map (·.name)

/-- The class of a name. -/
def class? (s : Snapshot) (name : String) : Option ClassDecl :=
  s.classes.find? (·.name == name)

def contains (s : Snapshot) (name : String) : Bool :=
  (s.class? name).isSome

end Snapshot

end SymbolMatch

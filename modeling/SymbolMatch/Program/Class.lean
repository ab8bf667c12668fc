/-
The declarations of one build: classes with their fields and methods, and
the instructions of the methods.
-/
import SymbolMatch.Number.Decimal
import SymbolMatch.Program.Member

namespace SymbolMatch

inductive ClassKind
  | plain | abstractType | interfaceType | enumType | annotationType
deriving DecidableEq

namespace ClassKind

/-- The name a kind is written with. -/
def label : ClassKind → String
  | plain => "class"
  | abstractType => "abstract_class"
  | interfaceType => "interface"
  | enumType => "enum"
  | annotationType => "annotation"

def ofLabel? : String → Option ClassKind
  | "class" => some plain
  | "abstract_class" => some abstractType
  | "interface" => some interfaceType
  | "enum" => some enumType
  | "annotation" => some annotationType
  | _ => none

end ClassKind

-- ========================================================= instructions

/-- A constant that an instruction loads. A single-precision number is
held as the double of the same value. -/
inductive Constant
  | int (value : Int)
  | long (value : Int)
  | single (value : Binary64)
  | double (value : Binary64)
  | string (value : String)
  | type (name : String)
deriving DecidableEq

/-- What an instruction works on besides the stack. -/
inductive Operand
  | empty
  | int (value : Int)
  | field (key : Member)
  | method (key : Member)
  | type (name : String)
  | constant (value : Constant)
deriving DecidableEq

structure Instruction where
  opcode : Nat
  operand : Operand
deriving DecidableEq

namespace Instruction

/-- The field that an instruction refers to. -/
def field? (i : Instruction) : Option Member :=
  match i.operand with
  | .field key => some key
  | _ => none

/-- The method that an instruction refers to. -/
def method? (i : Instruction) : Option Member :=
  match i.operand with
  | .method key => some key
  | _ => none

/-- The string that an instruction loads. -/
def string? (i : Instruction) : Option String :=
  match i.operand with
  | .constant (.string s) => some s
  | _ => none

end Instruction

-- ========================================================= declarations

structure FieldDecl where
  name : String
  descriptor : String
  isStatic : Bool
  isFinal : Bool
deriving DecidableEq

structure MethodDecl where
  name : String
  descriptor : String
  isStatic : Bool
  isAbstract : Bool
  code : List Instruction
deriving DecidableEq

namespace MethodDecl

def isConstructor (m : MethodDecl) : Bool := m.name == "<init>"

def isStaticInitializer (m : MethodDecl) : Bool := m.name == "<clinit>"

end MethodDecl

structure ClassDecl where
  name : String
  kind : ClassKind
  superName : Option String
  interfaces : List String
  fields : List FieldDecl
  methods : List MethodDecl
deriving DecidableEq

namespace ClassDecl

/-- A field of a class, as other classes refer to it. -/
def fieldKey (c : ClassDecl) (f : FieldDecl) : Member :=
  ⟨c.name, f.name, f.descriptor⟩

/-- A method of a class, as other classes refer to it. -/
def methodKey (c : ClassDecl) (m : MethodDecl) : Member :=
  ⟨c.name, m.name, m.descriptor⟩

end ClassDecl

end SymbolMatch

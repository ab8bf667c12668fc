/-
Type descriptors of JVM members: the type of a field, the parameters and
the result of a method, and their texts.
-/

namespace SymbolMatch

/-- The primitive types. -/
inductive Primitive
  | boolean | byte | char | short | int | long | float | double
deriving DecidableEq

namespace Primitive

/-- The letter a primitive type is written with. -/
def letter : Primitive → Char
  | boolean => 'Z'
  | byte => 'B'
  | char => 'C'
  | short => 'S'
  | int => 'I'
  | long => 'J'
  | float => 'F'
  | double => 'D'

/-- The primitive type written with a letter. -/
def ofLetter? : Char → Option Primitive
  | 'Z' => some boolean
  | 'B' => some byte
  | 'C' => some char
  | 'S' => some short
  | 'I' => some int
  | 'J' => some long
  | 'F' => some float
  | 'D' => some double
  | _ => none

end Primitive

/-- Primitive types that may stand for each other. -/
inductive PrimitiveCategory
  | boolean | integral | floating
deriving DecidableEq

def Primitive.category : Primitive → PrimitiveCategory
  | .boolean => .boolean
  | .byte | .char | .short | .int | .long => .integral
  | .float | .double => .floating

-- ========================================================== field types

/-- The type of a field, a parameter or a result. -/
inductive TypeDesc
  | primitive (p : Primitive)
  | object (name : String)
  | array (item : TypeDesc)
deriving DecidableEq

namespace TypeDesc

/-- The innermost type of an array, or the type itself. -/
def element : TypeDesc → TypeDesc
  | array item => item.element
  | t => t

def dimensions : TypeDesc → Nat
  | array item => item.dimensions + 1
  | _ => 0

/-- An array of arrays of the given depth. -/
def nest : (depth : Nat) → TypeDesc → TypeDesc
  | 0, t => t
  | depth + 1, t => array (nest depth t)

/-- The class that a type or the innermost type of an array names. -/
def className? : TypeDesc → Option String
  | primitive _ => none
  | object name => some name
  | array item => item.className?

def isPrimitive : TypeDesc → Bool
  | primitive _ => true
  | _ => false

/-- Whether the innermost type is a class. -/
def isReferenceLike (t : TypeDesc) : Bool := t.className?.isSome

/-- The category of a primitive type; an array has none. -/
def category? : TypeDesc → Option PrimitiveCategory
  | primitive p => some p.category
  | _ => none

/-- Replace the class that a type names. -/
def mapClasses (f : String → String) : TypeDesc → TypeDesc
  | primitive p => primitive p
  | object name => object (f name)
  | array item => array (item.mapClasses f)

/-- The characters of a type's descriptor. -/
def chars : TypeDesc → List Char
  | primitive p => [p.letter]
  | object name => 'L' :: name.toList ++ [';']
  | array item => '[' :: item.chars

/-- The descriptor of a type. -/
def descriptor (t : TypeDesc) : String := String.ofList t.chars

end TypeDesc

-- ========================================================= method types

/-- The parameters and the result of a method; `none` is `void`. -/
structure MethodDesc where
  params : List TypeDesc
  result : Option TypeDesc
deriving DecidableEq

namespace MethodDesc

/-- Replace the classes that a method's types name. -/
def mapClasses (f : String → String) (m : MethodDesc) : MethodDesc where
  params := m.params.map (TypeDesc.mapClasses f)
  result := m.result.map (TypeDesc.mapClasses f)

/-- The characters of a method's descriptor. -/
def chars (m : MethodDesc) : List Char :=
  '(' :: m.params.flatMap TypeDesc.chars
    ++ ')' :: (match m.result with
      | some t => t.chars
      | none => ['V'])

/-- The descriptor of a method. -/
def descriptor (m : MethodDesc) : String := String.ofList m.chars

end MethodDesc

end SymbolMatch

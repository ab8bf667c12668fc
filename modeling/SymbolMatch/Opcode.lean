/-
JVM instruction codes, and the families of them that a field access is
judged by. An instruction code is a number below 256.
-/

namespace SymbolMatch.Opcode

-- ========================================================= single codes

def ldc : Nat := 18
def iadd : Nat := 96
def ladd : Nat := 97
def isub : Nat := 100
def lsub : Nat := 101
def getstatic : Nat := 178
def putstatic : Nat := 179
def getfield : Nat := 180
def putfield : Nat := 181

-- ============================================================= families

def isFieldRead (op : Nat) : Bool := op == getfield || op == getstatic

def isFieldWrite (op : Nat) : Bool := op == putfield || op == putstatic

def isFieldAccess (op : Nat) : Bool := getstatic ≤ op && op ≤ putfield

def isInvoke (op : Nat) : Bool := 182 ≤ op && op ≤ 185

/-- Loads from an array, `iaload` to `saload`. -/
def isArrayLoad (op : Nat) : Bool := 46 ≤ op && op ≤ 53

/-- Arithmetic and bitwise operations, `iadd` to `lxor`. -/
def isArithmetic (op : Nat) : Bool := 96 ≤ op && op ≤ 131

/-- Branches and comparisons that take the loaded value as an operand:
`if_icmpeq` to `if_icmple`, `ifeq` to `ifle`, `lcmp` to `dcmpg`. -/
def isComparison (op : Nat) : Bool :=
  (159 ≤ op && op ≤ 164) || (153 ≤ op && op ≤ 158) || (148 ≤ op && op ≤ 152)

/-- The branches `ifeq` and `ifne`. -/
def isBooleanCheck (op : Nat) : Bool := op == 153 || op == 154

/-- The constants `iconst_m1` to `iconst_5`. -/
def isSmallIntConstant (op : Nat) : Bool := 2 ≤ op && op ≤ 8

/-- The constants `iconst_1` and `lconst_1`. -/
def isUnitConstant (op : Nat) : Bool := op == 4 || op == 10

/-- Loads from the constant pool, `ldc` to `ldc2_w`. -/
def isPoolLoad (op : Nat) : Bool := ldc ≤ op && op ≤ 20

/-- The additions that an increment uses. -/
def isIncrement (op : Nat) : Bool := op == iadd || op == ladd

/-- The subtractions that a decrement uses. -/
def isDecrement (op : Nat) : Bool := op == isub || op == lsub

/-- Every family with the name it is reported under. -/
def families : List (String × (Nat → Bool)) :=
  [("field_read", isFieldRead), ("field_write", isFieldWrite),
   ("field_insn", isFieldAccess), ("invoke", isInvoke),
   ("array_load", isArrayLoad), ("arithmetic", isArithmetic),
   ("comparison", isComparison), ("boolean_check", isBooleanCheck),
   ("small_int_const", isSmallIntConstant), ("unit_const", isUnitConstant),
   ("ldc", isPoolLoad)]

/-- The names of the families that a code is in. -/
def familiesOf (op : Nat) : List String :=
  (families.filter fun f => f.2 op).map (·.1)

end SymbolMatch.Opcode

/-
The accesses that code makes, read off the instructions around each
field reference: what follows a read tells what the value is used for,
what stands before a write tells where it comes from.
-/
import SymbolMatch.Access.Owners
import SymbolMatch.Access.Profile
import SymbolMatch.Opcode

namespace SymbolMatch

/-- One counted access: a declared field, the method that accesses it and
the way it does. -/
structure Access where
  field : Member
  method : Member
  kind : AccessKind
deriving DecidableEq

namespace Access

variable (owners : Owners)

-- ====================================================== one instruction

/-- The declared field that an instruction refers to. -/
def target? (i : Instruction) : Option Member := i.field?.bind owners.resolve

/-- The ways a read counts, by the instruction after it. -/
def readKinds (after : List Instruction) : List AccessKind :=
  .read :: match after with
    | [] => []
    | next :: _ =>
      (if Opcode.isArrayLoad next.opcode then [.arrayIndex] else [])
        ++ (if Opcode.isComparison next.opcode then [.comparison] else [])
        ++ (if Opcode.isBooleanCheck next.opcode then [.booleanCheck] else [])
        ++ (if Opcode.isArithmetic next.opcode then [.arithmetic] else [])

/-- The step that a write ends, if the three instructions before it are a
reference to the same field, the constant one and an addition or a
subtraction. `before` holds the earlier instructions, the last first. -/
def stepKind (field : Member) (before : List Instruction) :
    List AccessKind :=
  match before with
  | step :: unit :: load :: _ =>
    if Opcode.isUnitConstant unit.opcode && target? owners load == some field
    then
      if Opcode.isIncrement step.opcode then [.increment]
      else if Opcode.isDecrement step.opcode then [.decrement]
      else []
    else []
  | _ => []

/-- The constant that a write stores, if the instruction before it loads
one. -/
def constantKind (before : List Instruction) : List AccessKind :=
  match before with
  | [] => []
  | previous :: _ =>
    if Opcode.isPoolLoad previous.opcode
        || Opcode.isSmallIntConstant previous.opcode
    then [.constantLoad]
    else []

/-- The ways in which one instruction accesses a field. -/
def kindsAt (field : Member) (before : List Instruction) (i : Instruction)
    (after : List Instruction) : List AccessKind :=
  if Opcode.isFieldRead i.opcode then readKinds after
  else if Opcode.isFieldWrite i.opcode then
    .write :: stepKind owners field before ++ constantKind before
  else []

-- ================================================================= code

/-- The accesses of a method's code. `before` holds the instructions
already passed, the last first. -/
def ofCode (method : Member) :
    (before : List Instruction) → List Instruction → List Access
  | _, [] => []
  | before, i :: after =>
    (match target? owners i with
      | some field =>
        (kindsAt owners field before i after).map (⟨field, method, ·⟩)
      | none => [])
      ++ ofCode method (i :: before) after

/-- The accesses that the methods of a class make. -/
def ofClass (c : ClassDecl) : List Access :=
  c.methods.flatMap fun m => ofCode owners (c.methodKey m) [] m.code

end Access

-- ============================================================= profiles

namespace AccessProfile

/-- The profile of a field under a list of accesses. -/
def ofAccesses (accesses : List Access) (field : Member) : AccessProfile :=
  let mine := accesses.filter (·.field = field)
  let methodsOf (k : AccessKind) : OrdSet Member :=
    OrdSet.ofList ((mine.filter (·.kind = k)).map (·.method))
  classify {
    field := field
    counts := AccessCounts.tally (mine.map (·.kind))
    readMethods := methodsOf .read
    writeMethods := methodsOf .write
    patterns := {} }

/-- The profile of every declared field of a list of classes, accessed or
not. -/
def ofClasses (owners : Owners) (classes : List ClassDecl) :
    OrdMap Member AccessProfile :=
  let accesses := classes.flatMap (Access.ofClass owners)
  OrdMap.ofList (owners.declared.elements.map fun f => (f, ofAccesses accesses f))

end AccessProfile

end SymbolMatch

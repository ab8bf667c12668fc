/-
Classes in JSON. Records follow the rules of `Json.Tree.fields?`. An
operand and a constant carry their kind with them: an operand as one
label among those of its record, a constant beside a single value.

The value of an operand is held back until its kind is known, so all of
it must be readable, used or not (`Json.Tree.isBuffered`). An operand
stands seven levels deep in a list of classes.
-/
import SymbolMatch.Json.Decode
import SymbolMatch.Program.Class

namespace SymbolMatch

open Json (Tree)

-- =============================================================== fields

/-- A field that must be there. -/
def required {α : Type} (read : Tree → Option α) : Option Tree → Option α
  | some t => read t
  | none => none

/-- A field that may be left out. -/
def optional {α : Type} (default : α) (read : Tree → Option α) :
    Option Tree → Option α
  | some t => read t
  | none => some default

/-- A text that may be `null`. -/
def nullable? : Tree → Option (Option String)
  | .null => some none
  | t => t.string?.map some

-- ============================================================= operands

def Member.decode? (t : Tree) : Option Member := do
  match ← t.fields? ["owner", "name", "desc"] with
  | [owner, name, desc] =>
    return ⟨← required Tree.string? owner, ← required Tree.string? name,
      ← required Tree.string? desc⟩
  | _ => none

namespace Constant

/-- The kinds of constants, in their order. -/
def kinds : List String :=
  ["int", "long", "float", "double", "string", "type"]

/-- The kind of a constant that is written as an object: a string, or the
only label of an object that carries nothing. -/
def labelledKind? : Tree → Option String
  | .string s => s
  | .object [(label, .null)] => label
  | .object [(label, .object [])] => label
  | _ => none

/-- The kind of a constant that is written as an array: a string, or the
place of the kind among all kinds. -/
def positionalKind? : Tree → Option String
  | .string s => s
  | t => do kinds[← t.natural? kinds.length]?

/-- The kind and the value of a constant. -/
def parts? : Tree → Option (String × Tree)
  | .array [kind, value] => (positionalKind? kind).map (·, value)
  | .object members =>
    match Tree.under "kind" members, Tree.under "value" members with
    | [kind], [value] => (labelledKind? kind).map (·, value)
    | _, _ => none
  | _ => none

def decode? (t : Tree) : Option Constant := do
  let (kind, value) ← parts? t
  match kind with
  | "int" => return .int (← value.integer? (-0x80000000) 0x7fffffff)
  | "long" =>
    return .long
      (← value.integer? (-0x8000000000000000) 0x7fffffffffffffff)
  | "float" => return .single (← value.single?)
  | "double" => return .double (← value.double?)
  | "string" => return .string (← value.string?)
  | "type" => return .type (← value.string?)
  | _ => none

end Constant

namespace Operand

/-- How many arrays and objects are open around the fields of an
operand. -/
def depth : Nat := 7

/-- The kind of an operand and the rest of its record. -/
def parts? : Tree → Option (String × Tree)
  | .array (.string (some kind) :: rest) =>
    if Tree.areBuffered depth rest then some (kind, .array rest) else none
  | .object members =>
    match Tree.under "kind" members with
    | [.string (some kind)] =>
      let rest := members.filter (·.1 != some "kind")
      if Tree.membersBuffered depth rest then some (kind, .object rest)
      else none
    | _ => none
  | _ => none

/-- The only field of a record. -/
def only? {α : Type} (label : String) (read : Tree → Option α) (t : Tree) :
    Option α := do
  match ← t.fields? [label] with
  | [item] => required read item
  | _ => none

def decode? (t : Tree) : Option Operand := do
  let (kind, rest) ← parts? t
  match kind with
  | "none" =>
    match rest with
    | .array (_ :: _) => none
    | _ => return .empty
  | "int" =>
    return .int (← only? "value" (Tree.integer? (-0x80000000) 0x7fffffff) rest)
  | "field" => return .field (← Member.decode? rest)
  | "method" => return .method (← Member.decode? rest)
  | "type" => return .type (← only? "name" Tree.string? rest)
  | "constant" => return .constant (← only? "value" Constant.decode? rest)
  | _ => none

end Operand

-- ========================================================= declarations

def Instruction.decode? (t : Tree) : Option Instruction := do
  match ← t.fields? ["opcode", "operand"] with
  | [opcode, operand] =>
    return ⟨← required (Tree.natural? 256) opcode,
      ← optional .empty Operand.decode? operand⟩
  | _ => none

def FieldDecl.decode? (t : Tree) : Option FieldDecl := do
  match ← t.fields? ["name", "descriptor", "is_static", "is_final"] with
  | [name, descriptor, isStatic, isFinal] =>
    return ⟨← required Tree.string? name, ← required Tree.string? descriptor,
      ← optional false Tree.bool? isStatic, ← optional false Tree.bool? isFinal⟩
  | _ => none

def MethodDecl.decode? (t : Tree) : Option MethodDecl := do
  match ← t.fields?
    ["name", "descriptor", "is_static", "is_abstract", "instructions"] with
  | [name, descriptor, isStatic, isAbstract, code] =>
    return ⟨← required Tree.string? name, ← required Tree.string? descriptor,
      ← optional false Tree.bool? isStatic,
      ← optional false Tree.bool? isAbstract,
      ← optional [] (Tree.list? Instruction.decode?) code⟩
  | _ => none

/-- The kind of a class: a string, or the only label of an object that
carries `null`. -/
def ClassKind.decode? : Tree → Option ClassKind
  | .string (some s) => ofLabel? s
  | .object [(some label, .null)] => ofLabel? label
  | _ => none

def ClassDecl.decode? (t : Tree) : Option ClassDecl := do
  match ← t.fields?
    ["name", "kind", "super_name", "interfaces", "fields", "methods"] with
  | [name, kind, superName, interfaces, fields, methods] =>
    return ⟨← required Tree.string? name, ← required ClassKind.decode? kind,
      ← optional none nullable? superName,
      ← optional [] (Tree.list? Tree.string?) interfaces,
      ← optional [] (Tree.list? FieldDecl.decode?) fields,
      ← optional [] (Tree.list? MethodDecl.decode?) methods⟩
  | _ => none

end SymbolMatch

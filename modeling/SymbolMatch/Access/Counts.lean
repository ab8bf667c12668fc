/-
How often a field is accessed in each way.
-/
import SymbolMatch.Number.Scalar

namespace SymbolMatch

/-- The ways in which an access is counted. One access may count in
several of them. -/
inductive AccessKind
  | read
  | write
  /-- A write that adds one to what was just read. -/
  | increment
  /-- A write that takes one from what was just read. -/
  | decrement
  /-- A read whose value goes into arithmetic. -/
  | arithmetic
  /-- A read whose value is compared. -/
  | comparison
  /-- A read whose value is the index of an array load. -/
  | arrayIndex
  /-- A read whose value is tested against zero. -/
  | booleanCheck
  /-- A write of a constant. -/
  | constantLoad
deriving DecidableEq

namespace AccessKind

/-- Every kind, in the order in which sums run over them. -/
def all : List AccessKind :=
  [read, write, increment, decrement, arithmetic, comparison, arrayIndex,
   booleanCheck, constantLoad]

/-- The name a kind is reported under. -/
def label : AccessKind → String
  | read => "read"
  | write => "write"
  | increment => "increment"
  | decrement => "decrement"
  | arithmetic => "arithmetic"
  | comparison => "comparison"
  | arrayIndex => "array_index"
  | booleanCheck => "boolean_check"
  | constantLoad => "constant_load"

def ofLabel? (s : String) : Option AccessKind := all.find? (·.label == s)

end AccessKind

/-- A count for each kind of access. -/
structure AccessCounts where
  read : Nat := 0
  write : Nat := 0
  increment : Nat := 0
  decrement : Nat := 0
  arithmetic : Nat := 0
  comparison : Nat := 0
  arrayIndex : Nat := 0
  booleanCheck : Nat := 0
  constantLoad : Nat := 0
deriving DecidableEq

namespace AccessCounts

/-- The counts that a function gives. -/
def ofFn (f : AccessKind → Nat) : AccessCounts where
  read := f .read
  write := f .write
  increment := f .increment
  decrement := f .decrement
  arithmetic := f .arithmetic
  comparison := f .comparison
  arrayIndex := f .arrayIndex
  booleanCheck := f .booleanCheck
  constantLoad := f .constantLoad

def get (c : AccessCounts) : AccessKind → Nat
  | .read => c.read
  | .write => c.write
  | .increment => c.increment
  | .decrement => c.decrement
  | .arithmetic => c.arithmetic
  | .comparison => c.comparison
  | .arrayIndex => c.arrayIndex
  | .booleanCheck => c.booleanCheck
  | .constantLoad => c.constantLoad

@[simp] theorem get_ofFn (f : AccessKind → Nat) (k : AccessKind) :
    (ofFn f).get k = f k := by
  cases k <;> rfl

/-- Count one more access of a kind. -/
def record (c : AccessCounts) (k : AccessKind) : AccessCounts :=
  ofFn fun j => c.get j + if j = k then 1 else 0

/-- Add two counts up. -/
def add (a b : AccessCounts) : AccessCounts := ofFn fun k => a.get k + b.get k

/-- How often each kind occurs in a list. -/
def tally (kinds : List AccessKind) : AccessCounts :=
  ofFn fun k => kinds.count k

variable {α : Type} [Scalar α]

/-- One less the distance of two counts as a share of twice the greater of
them, both added up over the kinds; 1 if there are no accesses. -/
def similarity (a b : AccessCounts) : α :=
  if AccessKind.all.all fun k => max (a.get k) (b.get k) == 0 then 1.0
  else
    let total : α := AccessKind.all.foldl
      (fun t k => t + Scalar.ofCount (max (a.get k) (b.get k))) 0.0
    let distance : α := AccessKind.all.foldl
      (fun t k => t + Scalar.ofCount
        (max (a.get k) (b.get k) - min (a.get k) (b.get k))) 0.0
    1.0 - distance / (2.0 * total)

end AccessCounts

end SymbolMatch

/-
The parts of a field score that compare two declarations: their types,
their modifiers, their places in their classes, and their behaviour.
-/
import SymbolMatch.Access.Profile
import SymbolMatch.Descriptor.Basic
import SymbolMatch.Index

namespace SymbolMatch.FieldMatch

/-- How far the type of an old field allows the type of a new one, or
`none` if they never match. `renamed` is the old type with the mapped
classes renamed. Primitive types match within their category, and all
references match to some extent. -/
def typeCompatibility (old renamed new : TypeDesc) : Option Binary64 :=
  if old = new ∨ renamed = new then some 1
  else match old.category?, new.category? with
    | some a, some b => if a = b then some 0.8 else none
    | some _, none => none
    | none, some _ => none
    | none, none =>
      if old.isReferenceLike && new.isReferenceLike then some 0.6 else none

/-- How far the modifiers agree; `static` weighs twice as much as
`final`. -/
def modifierScore (old new : FieldInfo) : Binary64 :=
  let score : Binary64 := 0
  let score := if old.isStatic = new.isStatic then score + 1 else score
  let score := if old.isFinal = new.isFinal then score + 0.5 else score
  score / 1.5

/-- A field's place in its class, from 0 for the first to 1 for the
last. -/
def relativePosition (f : FieldInfo) : Binary64 :=
  Binary64.ofNat f.position / Binary64.ofNat (max (f.ownerFieldCount - 1) 1)

/-- How close the places of two fields in their classes are; half a class
apart counts nothing. -/
def proximity (old new : FieldInfo) : Binary64 :=
  max (1 - Binary64.abs (relativePosition old - relativePosition new) * 2) 0

/-- What the first role that two fields share adds. -/
def sharedRoleBonus {α : Type} [Scalar α] (a b : AccessPatterns) (score : α) :
    α :=
  if a.counter && b.counter then score + 0.3
  else if a.flag && b.flag then score + 0.3
  else if a.index && b.index then score + 0.25
  else if a.constant && b.constant then score + 0.2
  else score

/-- How far two fields behave alike. For a primitive field a shared role
counts extra, and that only one of the two is a counter halves the
score. -/
def profileScore {α : Type} [Scalar α] (old new : AccessProfile)
    (primitive : Bool) : α :=
  let score : α := old.similarity new
  if primitive then
    let a := old.patterns
    let b := new.patterns
    let score := Scalar.least (sharedRoleBonus a b score) 1.0
    if a.counter = b.counter then score else score * 0.5
  else score

end SymbolMatch.FieldMatch

/-
Which class declares a field that an instruction refers to. The
instruction may name a subclass; the field belongs to the nearest class
on the way up that declares it.
-/
import SymbolMatch.Program.Class

namespace SymbolMatch

/-- The declared fields and the superclass of each class. -/
structure Owners where
  declared : OrdSet Member
  supers : OrdMap String String

namespace Owners

/-- Add the declarations of one class. -/
def absorb (o : Owners) (c : ClassDecl) : Owners where
  declared := (c.fields.map c.fieldKey).foldl OrdSet.insert o.declared
  supers := match c.superName with
    | some parent => o.supers.insert c.name parent
    | none => o.supers

def ofClasses (classes : List ClassDecl) : Owners :=
  classes.foldl absorb ⟨{}, {}⟩

/-- Walk up from a class to the first that declares a field, for at most
`fuel` classes. -/
def climb (o : Owners) (name descriptor : String) :
    (fuel : Nat) → (owner : String) → Option Member
  | 0, _ => none
  | fuel + 1, owner =>
    let key : Member := ⟨owner, name, descriptor⟩
    if o.declared.contains key then some key
    else (o.supers.get? owner).bind (climb o name descriptor fuel)

/-- The declaration that a reference means, or `none` if the snapshot has
none. A walk that visits more classes than there are superclass links
goes round in a circle, so this many steps find whatever there is. -/
def resolve (o : Owners) (key : Member) : Option Member :=
  o.climb key.name key.descriptor (o.supers.size + 1) key.owner

end Owners

end SymbolMatch

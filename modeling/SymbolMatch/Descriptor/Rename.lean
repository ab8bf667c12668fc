/-
Descriptors under a change of class names: a renaming carries a
descriptor to the descriptor of the renamed types, and blurring replaces
the names that do not survive from one build to the next.
-/
import SymbolMatch.Descriptor.Parser

namespace SymbolMatch.Descriptor

/-- What stands in for a name that does not survive. -/
def placeholder : String := "#"

/-- A name, or the placeholder if it does not survive. -/
def blur (transient : String → Bool) (name : String) : String :=
  if transient name then placeholder else name

/-- A field descriptor with its transient class names blurred. -/
def blurField (transient : String → Bool) (text : String) :
    Except Fault String := do
  return ((← field text).mapClasses (blur transient)).descriptor

/-- A method descriptor with its transient class names blurred. -/
def blurMethod (transient : String → Bool) (text : String) :
    Except Fault String := do
  return ((← method text).mapClasses (blur transient)).descriptor

/-- A name under a partial renaming; names outside it stay. -/
def renamed (names : String → Option String) (name : String) : String :=
  (names name).getD name

/-- A field or method descriptor under a partial renaming of classes. The
two kinds are told apart by the opening parenthesis. -/
def rename (names : String → Option String) (text : String) :
    Except Fault String :=
  match text.toList with
  | '(' :: _ => do
    return ((← method text).mapClasses (renamed names)).descriptor
  | _ => do
    return ((← field text).mapClasses (renamed names)).descriptor

/-- Whether a new descriptor is the old one, as it stands or renamed. Two
equal texts agree even if they are no descriptors. -/
def agree (names : String → Option String) (old new : String) :
    Except Fault Bool :=
  if old = new then .ok true
  else do return (← rename names old) = new

end SymbolMatch.Descriptor

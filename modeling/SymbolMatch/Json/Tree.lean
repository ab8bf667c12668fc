/-
JSON texts as trees whose literals have not been read yet.

A reader that uses only some of the values in a text should refuse a
literal only when it needs it. So a number keeps its digits and a string
that names half of a surrogate pair keeps its place without a text; what
they stand for is decided where a value is used.
-/

namespace SymbolMatch.Json

/-- A number as it is written. -/
structure NumberText where
  negative : Bool
  whole : List Char
  /-- The digits after the point; there is no point when it is empty. -/
  fraction : List Char
  /-- The sign and the digits of the exponent, if it has one. -/
  exponent : Option (Bool × List Char)
deriving DecidableEq

/-- A JSON text. A string, and the label of a member, is `none` if it has
the shape of a string but an escape in it names half of a surrogate pair
alone. -/
inductive Tree
  | null
  | bool (b : Bool)
  | number (n : NumberText)
  | string (s : Option String)
  | array (items : List Tree)
  | object (members : List (Option String × Tree))

instance : Inhabited Tree := ⟨.null⟩

end SymbolMatch.Json

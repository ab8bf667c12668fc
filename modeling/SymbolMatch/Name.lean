/-
Class and member names: which of them an obfuscator chose. A name whose
last part is short is taken to be the obfuscator's and to change from
build to build; any other name is stable.
-/

namespace SymbolMatch.Name

/-- The part of a name behind its last slash. -/
def simple (name : String) : String :=
  String.ofList (name.toList.reverse.takeWhile (· ≠ '/')).reverse

/-- Whether a name is the obfuscator's: its simple part has at most
`cutoff` characters. -/
def isObfuscated (cutoff : Nat) (name : String) : Bool :=
  (simple name).length ≤ cutoff

def isStable (cutoff : Nat) (name : String) : Bool :=
  !isObfuscated cutoff name

end SymbolMatch.Name

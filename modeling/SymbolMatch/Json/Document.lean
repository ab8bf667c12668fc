/-
JSON values to be written, and their two texts: `compact` without any
white space, and `pretty` with one item a line and two spaces a level.
-/
import SymbolMatch.Number.Layout

namespace SymbolMatch.Json

/-- A JSON value to be written. -/
inductive Document
  | null
  | bool (b : Bool)
  | integer (n : Int)
  | number (x : Binary64)
  | text (s : String)
  | list (items : List Document)
  | record (members : List (String × Document))

instance : Inhabited Document := ⟨.null⟩

namespace Document

/-- Numbers are written positionally from five places behind the point up
to sixteen before it, always with a point or an exponent. -/
def numberLayout : Layout where
  tie := .toEven
  positional e := -5 ≤ e && e < 16
  pointZero := true

/-- One character inside a string. -/
def escape (c : Char) : List Char :=
  match c with
  | '\x22' => ['\x5c', '\x22']
  | '\x5c' => ['\x5c', '\x5c']
  | '\x08' => ['\x5c', 'b']
  | '\x09' => ['\x5c', 't']
  | '\x0a' => ['\x5c', 'n']
  | '\x0c' => ['\x5c', 'f']
  | '\x0d' => ['\x5c', 'r']
  | c =>
    if c.toNat < 0x10 then
      ['\x5c', 'u', '0', '0', '0'] ++ Nat.toDigits 16 c.toNat
    else if c.toNat < 0x20 then
      ['\x5c', 'u', '0', '0'] ++ Nat.toDigits 16 c.toNat
    else [c]

def quote (s : String) : String :=
  String.ofList ('\x22' :: s.toList.flatMap escape ++ ['\x22'])

/-- A number; what is not finite is written as `null`. -/
def numberText (x : Binary64) : String :=
  if x.isFinite then numberLayout.text x else "null"

def integerText (n : Int) : String :=
  let digits := String.ofList (Nat.toDigits 10 n.natAbs)
  if n < 0 then "-" ++ digits else digits

mutual

/-- The text without white space. -/
def compact : Document → String
  | .null => "null"
  | .bool b => if b then "true" else "false"
  | .integer n => integerText n
  | .number x => numberText x
  | .text s => quote s
  | .list items => "[" ++ compactItems items ++ "]"
  | .record members => "\x7b" ++ compactMembers members ++ "\x7d"

def compactItems : List Document → String
  | [] => ""
  | [d] => compact d
  | d :: ds => compact d ++ "," ++ compactItems ds

def compactMembers : List (String × Document) → String
  | [] => ""
  | [(k, d)] => quote k ++ ":" ++ compact d
  | (k, d) :: ms => quote k ++ ":" ++ compact d ++ "," ++ compactMembers ms

end

/-- A new line at a level of nesting. -/
def newline (level : Nat) : String :=
  String.ofList ('\n' :: List.replicate (2 * level) ' ')

mutual

/-- The text with one item a line, inside `level` open brackets. -/
def prettyAt (level : Nat) : Document → String
  | .list [] => "[]"
  | .list items => "[" ++ prettyItems (level + 1) items ++ newline level ++ "]"
  | .record [] => "\x7b\x7d"
  | .record members =>
    "\x7b" ++ prettyMembers (level + 1) members ++ newline level ++ "\x7d"
  | .null => "null"
  | .bool b => if b then "true" else "false"
  | .integer n => integerText n
  | .number x => numberText x
  | .text s => quote s

def prettyItems (level : Nat) : List Document → String
  | [] => ""
  | [d] => newline level ++ prettyAt level d
  | d :: ds => newline level ++ prettyAt level d ++ "," ++ prettyItems level ds

def prettyMembers (level : Nat) : List (String × Document) → String
  | [] => ""
  | [(k, d)] => newline level ++ quote k ++ ": " ++ prettyAt level d
  | (k, d) :: ms =>
    newline level ++ quote k ++ ": " ++ prettyAt level d ++ ","
      ++ prettyMembers level ms

end

/-- The text with one item a line. -/
def pretty (d : Document) : String := prettyAt 0 d

end Document

end SymbolMatch.Json

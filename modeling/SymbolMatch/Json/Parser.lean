/-
The strict JSON grammar: no comments, no trailing commas, no leading
zeros, no bare control characters in strings, and nothing but blanks
around the value.

The functions work on the characters that are left and return what
follows what they read. Values nest, so the three that call each other
count down a fuel that no text outlasts: each level and each item takes
at least one character.
-/
import SymbolMatch.Json.Tree

namespace SymbolMatch.Json

-- =============================================================== blanks

def isBlank (c : Char) : Bool :=
  c == ' ' || c == '\t' || c == '\n' || c == '\r'

def skipBlanks (cs : List Char) : List Char := cs.dropWhile isBlank

-- ============================================================== numbers

/-- The part after the point: nothing, or a point and at least one
digit. -/
def fractionPart : List Char → Option (List Char × List Char)
  | '.' :: cs =>
    let ds := cs.takeWhile Char.isDigit
    if ds = [] then none else some (ds, cs.dropWhile Char.isDigit)
  | cs => some ([], cs)

/-- The exponent: nothing, or a mark, an optional sign and at least one
digit. -/
def exponentPart :
    List Char → Option (Option (Bool × List Char) × List Char)
  | [] => some (none, [])
  | c :: cs =>
    if c = 'e' ∨ c = 'E' then
      let (negative, cs) := match cs with
        | '-' :: r => (true, r)
        | '+' :: r => (false, r)
        | r => (false, r)
      let ds := cs.takeWhile Char.isDigit
      if ds = [] then none
      else some (some (negative, ds), cs.dropWhile Char.isDigit)
    else some (none, c :: cs)

/-- A number. Its whole part is a lone zero or starts with another
digit. -/
def number (cs : List Char) : Option (NumberText × List Char) := do
  let (negative, cs) := match cs with
    | '-' :: r => (true, r)
    | r => (false, r)
  let whole := cs.takeWhile Char.isDigit
  match whole with
  | [] => none
  | '0' :: _ :: _ => none
  | _ =>
    let (fraction, cs) ← fractionPart (cs.dropWhile Char.isDigit)
    let (exponent, cs) ← exponentPart cs
    return (⟨negative, whole, fraction, exponent⟩, cs)

-- ============================================================== strings

def hexDigit? (c : Char) : Option Nat :=
  if c.isDigit then some (c.toNat - 48)
  else if 'a' ≤ c ∧ c ≤ 'f' then some (c.toNat - 87)
  else if 'A' ≤ c ∧ c ≤ 'F' then some (c.toNat - 55)
  else none

def hexNumber? (a b c d : Char) : Option Nat := do
  return 4096 * (← hexDigit? a) + 256 * (← hexDigit? b)
    + 16 * (← hexDigit? c) + (← hexDigit? d)

/-- The character a one-letter escape stands for. -/
def shortEscape? : Char → Option Nat
  | '\x22' => some 0x22
  | '\x5c' => some 0x5c
  | '/' => some 0x2f
  | 'b' => some 0x08
  | 'f' => some 0x0c
  | 'n' => some 0x0a
  | 'r' => some 0x0d
  | 't' => some 0x09
  | _ => none

/-- The code units of a string after its opening quote, up to the closing
one. A character that stands for itself is one unit, whatever its size. -/
def stringUnits : List Char → Option (List Nat × List Char)
  | [] => none
  | '\x22' :: cs => some ([], cs)
  | '\x5c' :: 'u' :: a :: b :: c :: d :: cs => do
    let n ← hexNumber? a b c d
    let (ns, cs) ← stringUnits cs
    return (n :: ns, cs)
  | '\x5c' :: c :: cs => do
    let n ← shortEscape? c
    let (ns, cs) ← stringUnits cs
    return (n :: ns, cs)
  | c :: cs =>
    if c.toNat < 0x20 then none
    else do
      let (ns, cs) ← stringUnits cs
      return (c.toNat :: ns, cs)

def isHighSurrogate (n : Nat) : Bool := 0xD800 ≤ n && n < 0xDC00

def isLowSurrogate (n : Nat) : Bool := 0xDC00 ≤ n && n < 0xE000

/-- The characters of a list of code units; a high surrogate and the low
one after it are one character, and neither stands alone. -/
def joinUnits : List Nat → Option (List Char)
  | [] => some []
  | [n] =>
    if isHighSurrogate n || isLowSurrogate n then none
    else some [Char.ofNat n]
  | n :: m :: ns =>
    if isHighSurrogate n then
      if isLowSurrogate m then
        (joinUnits ns).map
          (Char.ofNat (0x10000 + (n - 0xD800) * 0x400 + (m - 0xDC00)) :: ·)
      else none
    else if isLowSurrogate n then none
    else (joinUnits (m :: ns)).map (Char.ofNat n :: ·)

/-- A string after its opening quote. -/
def string (cs : List Char) : Option (Option String × List Char) := do
  let (units, cs) ← stringUnits cs
  return ((joinUnits units).map String.ofList, cs)

-- =============================================================== values

mutual

/-- A value, with blanks allowed in front of it. -/
def value : (fuel : Nat) → List Char → Option (Tree × List Char)
  | 0, _ => none
  | fuel + 1, cs =>
    match skipBlanks cs with
    | 'n' :: 'u' :: 'l' :: 'l' :: r => some (.null, r)
    | 't' :: 'r' :: 'u' :: 'e' :: r => some (.bool true, r)
    | 'f' :: 'a' :: 'l' :: 's' :: 'e' :: r => some (.bool false, r)
    | '\x22' :: r => (string r).map fun (s, r) => (.string s, r)
    | '[' :: r =>
      match skipBlanks r with
      | ']' :: r => some (.array [], r)
      | r => (items fuel r).map fun (ts, r) => (.array ts, r)
    | '\x7b' :: r =>
      match skipBlanks r with
      | '\x7d' :: r => some (.object [], r)
      | r => (members fuel r).map fun (ms, r) => (.object ms, r)
    | r => (number r).map fun (n, r) => (.number n, r)

/-- One or more items and the bracket that closes them. -/
def items : (fuel : Nat) → List Char → Option (List Tree × List Char)
  | 0, _ => none
  | fuel + 1, cs => do
    let (t, r) ← value fuel cs
    match skipBlanks r with
    | ',' :: r =>
      let (ts, r) ← items fuel r
      return (t :: ts, r)
    | ']' :: r => return ([t], r)
    | _ => none

/-- One or more members and the brace that closes them. -/
def members :
    (fuel : Nat) → List Char → Option (List (Option String × Tree) × List Char)
  | 0, _ => none
  | fuel + 1, cs => do
    match skipBlanks cs with
    | '\x22' :: r =>
      let (label, r) ← string r
      match skipBlanks r with
      | ':' :: r =>
        let (t, r) ← value fuel r
        match skipBlanks r with
        | ',' :: r =>
          let (ms, r) ← members fuel r
          return ((label, t) :: ms, r)
        | '\x7d' :: r => return ([(label, t)], r)
        | _ => none
      | _ => none
    | _ => none

end

/-- The tree of a text that is one JSON value. -/
def parse? (text : String) : Option Tree :=
  let cs := text.toList
  match value (2 * cs.length + 2) cs with
  | some (t, rest) => if skipBlanks rest = [] then some t else none
  | none => none

end SymbolMatch.Json

/-
Reading descriptors. A reader takes the characters that are left and
returns the type at their head with what follows it; the descriptor as a
whole must be used up.

Faults name the place of an unexpected character by its byte offset in
the text, which is the size of the whole text less the size of what is
left.
-/
import SymbolMatch.Descriptor.Basic
import SymbolMatch.Text.Quoted

namespace SymbolMatch.Descriptor

-- =============================================================== faults

/-- Why a text is no descriptor. -/
inductive Reason
  | tooManyDimensions
  | unexpectedEnd
  | unterminatedName
  | emptyName
  | unexpected (c : Char) (offset : Nat)
  | trailing
  | missingOpen
  | missingClose
deriving DecidableEq

def Reason.message : Reason → String
  | tooManyDimensions => "too many array dimensions"
  | unexpectedEnd => "unexpected end"
  | unterminatedName => "unterminated class name"
  | emptyName => "empty class name"
  | unexpected c offset =>
    "unexpected " ++ Text.quotedChar (Text.leadByte c) ++ " at " ++ offset.repr
  | trailing => "trailing characters"
  | missingOpen => "missing '('"
  | missingClose => "missing ')'"

/-- A text that is no descriptor, and why. -/
structure Fault where
  text : String
  reason : Reason
deriving DecidableEq

def Fault.message (f : Fault) : String :=
  "Descriptor error: " ++ Text.quoted f.text ++ ": " ++ f.reason.message

-- ================================================================ types

/-- The class file format's limit on array dimensions. -/
def maxDimensions : Nat := 255

/-- The type at the head of a text that is not an array. `size` is the
size of the whole text. -/
def element (size : Nat) :
    List Char → Except Reason (TypeDesc × List Char)
  | [] => .error .unexpectedEnd
  | 'L' :: cs =>
    match cs.dropWhile (· ≠ ';') with
    | [] => .error .unterminatedName
    | _ :: rest =>
      let name := cs.takeWhile (· ≠ ';')
      if name = [] then .error .emptyName
      else .ok (.object (String.ofList name), rest)
  | c :: cs =>
    match Primitive.ofLetter? c with
    | some p => .ok (.primitive p, cs)
    | none => .error (.unexpected c (size - Text.byteLength (c :: cs)))

/-- The type at the head of a text: some opening brackets and an element
type. Too many brackets are refused before the element is looked at. -/
def type (size : Nat) (cs : List Char) :
    Except Reason (TypeDesc × List Char) :=
  let depth := (cs.takeWhile (· = '[')).length
  if maxDimensions < depth then .error .tooManyDimensions
  else do
    let (t, rest) ← element size (cs.dropWhile (· = '['))
    return (t.nest depth, rest)

/-- Types up to a closing parenthesis. Each takes at least one character,
so a fuel of the text's length is enough. -/
def params (size : Nat) :
    (fuel : Nat) → List Char → Except Reason (List TypeDesc × List Char)
  | _, [] => .error .missingClose
  | _, ')' :: rest => .ok ([], rest)
  | 0, _ => .error .missingClose
  | fuel + 1, cs => do
    let (t, rest) ← type size cs
    let (ts, rest) ← params size fuel rest
    return (t :: ts, rest)

/-- The type of a result: `V` for none. -/
def result (size : Nat) :
    List Char → Except Reason (Option TypeDesc × List Char)
  | 'V' :: rest => .ok (none, rest)
  | cs => do
    let (t, rest) ← type size cs
    return (some t, rest)

-- ========================================================== descriptors

/-- A field descriptor, character by character. -/
def fieldChars (cs : List Char) : Except Reason TypeDesc := do
  let (t, rest) ← type (Text.byteLength cs) cs
  if rest = [] then return t else throw .trailing

/-- A method descriptor, character by character. -/
def methodChars (cs : List Char) : Except Reason MethodDesc :=
  match cs with
  | '(' :: inner => do
    let size := Text.byteLength cs
    let (ps, rest) ← params size inner.length inner
    let (r, rest) ← result size rest
    if rest = [] then return ⟨ps, r⟩ else throw .trailing
  | _ => .error .missingOpen

/-- The type that a field descriptor stands for. -/
def field (text : String) : Except Fault TypeDesc :=
  (fieldChars text.toList).mapError (⟨text, ·⟩)

/-- The types that a method descriptor stands for. -/
def method (text : String) : Except Fault MethodDesc :=
  (methodChars text.toList).mapError (⟨text, ·⟩)

end SymbolMatch.Descriptor

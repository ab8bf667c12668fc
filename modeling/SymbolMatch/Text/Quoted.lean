/-
Quoted text in messages: a text between double quotes or a character
between single quotes, with what could not be seen written as an escape.
-/
import SymbolMatch.Text.Printable

namespace SymbolMatch.Text

/-- One character between quotes of the given kind. The quote itself and
the backslash are escaped, as are the characters that have a short name;
a hidden character is written by its code point. -/
def quoteChar (quote c : Char) : List Char :=
  if c = quote ∨ c = '\x5c' then ['\x5c', c]
  else match c with
    | '\x00' => ['\x5c', '0']
    | '\t' => ['\x5c', 't']
    | '\n' => ['\x5c', 'n']
    | '\r' => ['\x5c', 'r']
    | c =>
      if isHidden c then
        ['\x5c', 'u', '\x7b'] ++ Nat.toDigits 16 c.toNat ++ ['\x7d']
      else [c]

/-- A text in double quotes. -/
def quoted (s : String) : String :=
  String.ofList ('\x22' :: s.toList.flatMap (quoteChar '\x22') ++ ['\x22'])

/-- A character in single quotes. -/
def quotedChar (c : Char) : String :=
  String.ofList ('\x27' :: quoteChar '\x27' c ++ ['\x27'])

/-- The first byte of a character's UTF-8 form, as the character with
that code point. An ASCII character is its own first byte. -/
def leadByte (c : Char) : Char :=
  let n := c.toNat
  Char.ofNat <|
    if n < 0x80 then n
    else if n < 0x800 then 0xC0 + n / 0x40
    else if n < 0x10000 then 0xE0 + n / 0x1000
    else 0xF0 + n / 0x40000

/-- How many bytes a list of characters takes in UTF-8. -/
def byteLength : List Char → Nat
  | [] => 0
  | c :: cs => c.utf8Size + byteLength cs

end SymbolMatch.Text

/-
White space as the Unicode property defines it, and texts without the
white space around them.
-/

namespace SymbolMatch.Text

/-- Whether a character has the property `White_Space`. -/
def isBlank (c : Char) : Bool :=
  let n := c.toNat
  (0x9 ≤ n && n ≤ 0xD) || n == 0x20 || n == 0x85 || n == 0xA0 || n == 0x1680
    || (0x2000 ≤ n && n ≤ 0x200A) || n == 0x2028 || n == 0x2029
    || n == 0x202F || n == 0x205F || n == 0x3000

/-- A text without the blanks at its ends. -/
def trimBlanks (s : String) : String :=
  let cs := s.toList.dropWhile isBlank
  String.ofList (cs.reverse.dropWhile isBlank).reverse

end SymbolMatch.Text

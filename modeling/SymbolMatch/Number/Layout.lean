/-
How a double is written. The digits are those of its shortest decimal;
a `Layout` holds the decisions a format makes about them.
-/
import SymbolMatch.Number.Shortest

namespace SymbolMatch

/-- The decisions of one number format. -/
structure Layout where
  /-- Which of two equally near shortest decimals is written. -/
  tie : Tie
  /-- Whether a leading digit at this power of ten is written
  positionally rather than with an exponent. -/
  positional : Int → Bool
  /-- Whether a whole number is written with `.0`. -/
  pointZero : Bool

namespace Layout

/-- Digits with a point `places` digits from the left, zeros filled in on
either side. -/
def place (pointZero : Bool) (digits : List Char) (places : Int) : List Char :=
  match places with
  | .ofNat n =>
    if n = 0 then '0' :: '.' :: digits
    else if digits.length ≤ n then
      digits ++ List.replicate (n - digits.length) '0'
        ++ (if pointZero then ['.', '0'] else [])
    else digits.take n ++ '.' :: digits.drop n
  | .negSucc n => '0' :: '.' :: List.replicate (n + 1) '0' ++ digits

/-- Digits with a point after the first and the exponent behind, its sign
always written. -/
def scientific (digits : List Char) (e : Int) : List Char :=
  let mantissa := match digits with
    | [] => []
    | [d] => [d]
    | d :: ds => d :: '.' :: ds
  mantissa ++ 'e' :: (if e < 0 then '-' else '+') :: Nat.toDigits 10 e.natAbs

/-- A finite magnitude without its sign. -/
def absolute (format : Layout) (k : Nat) : List Char :=
  if k = 0 then place format.pointZero ['0'] 1
  else
    let d := Decimal.shortest format.tie k
    let digits := Nat.toDigits 10 d.digits
    let e : Int := d.exponent + digits.length - 1
    if format.positional e then place format.pointZero digits (e + 1)
    else scientific digits e

/-- The text of a finite double. -/
def text (format : Layout) (x : Binary64) : String :=
  let cs := format.absolute x.magnitude
  String.ofList (if x.negative then '-' :: cs else cs)

end Layout

end SymbolMatch

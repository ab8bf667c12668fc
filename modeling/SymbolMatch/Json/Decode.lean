/-
What the values in a JSON tree stand for. Each reader answers `none` for
a tree that is not of its kind; nothing is converted from one kind to
another.

# Numbers

A number without point and exponent is read as a whole number, exactly.
Any other number is read in two steps: its digits as a whole number as
long as that stays below 2⁶⁴, further digits counting only as places,
and then one multiplication or division by a power of ten. Each step
rounds, so the result is not always the nearest double. A number beyond
the doubles has no value.

# Records

A record is written as an object or as the array of its fields in order,
where fields at the end may be left out. Labels that no field has are
ignored along with what they carry; a label that a field has must not be
repeated.
-/
import SymbolMatch.Json.Tree
import SymbolMatch.Number.Decimal

namespace SymbolMatch.Json

-- ============================================================== numbers

/-- Digits gathered into a whole number below 2⁶⁴. `places` counts the
digits that no longer fit. -/
structure Significand where
  value : Nat
  places : Nat

/-- Read digits from the left until one does not fit. -/
def Significand.ofDigits : (value : Nat) → List Char → Significand
  | n, [] => ⟨n, 0⟩
  | n, c :: cs =>
    let m := 10 * n + (c.toNat - 48)
    if m < twoPow 64 then ofDigits m cs else ⟨n, (c :: cs).length⟩

/-- Divide by `10 ^ e`, in steps while that power is not a double. -/
def divideByPower (x : Binary64) : (steps : Nat) → (e : Nat) → Binary64
  | 0, e => x / Binary64.ofDecimal false ⟨1, e⟩
  | steps + 1, e =>
    if e ≤ 308 then x / Binary64.ofDecimal false ⟨1, e⟩
    else if x.isZero then x
    else divideByPower (x / 1e308) steps (e - 308)

/-- A whole number times a power of ten, with one rounding for the number
and one for each step of the power. `none` past the largest double. -/
def scaled? (significand : Nat) (e : Int) : Option Binary64 :=
  let x := Binary64.ofNat significand
  match e with
  | .ofNat e =>
    if 308 < e then if x.isZero then some x else none
    else
      let y := x * Binary64.ofDecimal false ⟨1, e⟩
      if y.isInfinite then none else some y
  | .negSucc e => some (divideByPower x (e / 308) (e + 1))

namespace NumberText

/-- Whether a number is written without point and exponent. -/
def isWhole (n : NumberText) : Bool :=
  n.fraction.isEmpty && n.exponent.isNone

/-- The double that the digits and the exponent stand for, without the
sign. An exponent of 2³¹ or more is past every double, whatever the
digits, unless they are all zero. -/
def magnitude? (n : NumberText) : Option Binary64 :=
  let whole := Significand.ofDigits 0 n.whole
  let all := Significand.ofDigits whole.value n.fraction
  let kept := n.fraction.length - all.places
  let start : Int := whole.places - (kept : Int)
  match n.exponent with
  | none => scaled? all.value start
  | some (negative, ds) =>
    let e := Decimal.ofDigits ds
    if twoPow 31 ≤ e then
      if all.value ≠ 0 ∧ !negative then none else some Binary64.zero
    else scaled? all.value (if negative then start - e else start + e)

/-- The double a number stands for. -/
def double? (n : NumberText) : Option Binary64 :=
  n.magnitude?.map fun x => if n.negative then -x else x

/-- The integer a number stands for, if it is written as one. A minus
sign before zero does not write an integer. -/
def integer? (n : NumberText) : Option Int :=
  if n.isWhole then
    let m := Decimal.ofDigits n.whole
    if n.negative then if m = 0 then none else some (-(m : Int))
    else some m
  else none

end NumberText

-- ============================================================== scalars

namespace Tree

def double? : Tree → Option Binary64
  | .number n => n.double?
  | _ => none

/-- An integer between two bounds. -/
def integer? (lo hi : Int) : Tree → Option Int
  | .number n => do
    let i ← n.integer?
    if lo ≤ i ∧ i ≤ hi then some i else none
  | _ => none

/-- A natural number below a bound. -/
def natural? (bound : Nat) (t : Tree) : Option Nat :=
  (t.integer? 0 (bound - 1)).map Int.toNat

/-- A number in single precision, as the double of the same value. A
whole number that fits a 64-bit word is rounded once, any other number
first to a double. -/
def single? : Tree → Option Binary64
  | .number n =>
    let m := Decimal.ofDigits n.whole
    if n.isWhole ∧ m < twoPow 64 ∧ (n.negative → m ≤ twoPow 63) then
      some (Binary64.nearestSingle n.negative (m * twoPow 1074) 1)
    else n.double?.map Binary64.toSingle
  | _ => none

def bool? : Tree → Option Bool
  | .bool b => some b
  | _ => none

def string? : Tree → Option String
  | .string s => s
  | _ => none

/-- A list of values of one kind. -/
def list? {α : Type} (item : Tree → Option α) : Tree → Option (List α)
  | .array ts => ts.mapM item
  | _ => none

-- ============================================================== records

/-- The values under a label, in order. -/
def under (label : String) (members : List (Option String × Tree)) :
    List Tree :=
  (members.filter (·.1 == some label)).map (·.2)

/-- The fields of a record, by the labels they have; a field that is left
out is `none`. -/
def fields? (labels : List String) : Tree → Option (List (Option Tree))
  | .array ts =>
    if ts.length ≤ labels.length then
      some (ts.map some ++ List.replicate (labels.length - ts.length) none)
    else none
  | .object members =>
    if members.all (·.1.isSome) ∧
        labels.all fun l => (under l members).length ≤ 1 then
      some (labels.map fun l => (under l members).head?)
    else none
  | _ => none

-- ======================================================= buffered values

/-- How deep arrays and objects may nest. -/
def depthLimit : Nat := 127

mutual

/-- Whether a value can be held back before its kind is known: every
number in it has a value, every string a text, and it nests no deeper
than the limit. -/
def isBuffered : (depth : Nat) → Tree → Bool
  | _, .null => true
  | _, .bool _ => true
  | _, .number n => n.double?.isSome
  | _, .string s => s.isSome
  | depth, .array ts => depth < depthLimit && areBuffered (depth + 1) ts
  | depth, .object ms => depth < depthLimit && membersBuffered (depth + 1) ms

def areBuffered : (depth : Nat) → List Tree → Bool
  | _, [] => true
  | depth, t :: ts => isBuffered depth t && areBuffered depth ts

def membersBuffered :
    (depth : Nat) → List (Option String × Tree) → Bool
  | _, [] => true
  | depth, (label, t) :: ms =>
    label.isSome && isBuffered depth t && membersBuffered depth ms

end

end Tree

end SymbolMatch.Json

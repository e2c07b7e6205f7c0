import ProtoSchema.Number.Binary64
import ProtoSchema.Number.Numeral

/-!
The shortest decimal that reads back as a given binary number.

Between a magnitude and its two neighbours lies the interval of reals that round to it. On the grid
of decimals with 1, 2, 3 … digits the first point inside that interval is taken; of two such points
the nearer one, and of two equally near ones the one that `Tie` names.
-/
namespace ProtoSchema

structure Decimal where
  coefficient : Nat
  exponent : Int
deriving DecidableEq

namespace Decimal

/-- The same number with no zero at the end of its coefficient. -/
def trimmed (coefficient : Nat) (exponent : Int) : Decimal :=
  if h : 0 < coefficient ∧ coefficient % 10 = 0 then
    trimmed (coefficient / 10) (exponent + 1)
  else ⟨coefficient, exponent⟩
termination_by coefficient
decreasing_by omega

/-- Which of two equally near coefficients is taken. -/
inductive Tie where
  | even
  | greater
deriving DecidableEq

/-- The reals that round to one magnitude, over `Interval.denominator`. -/
structure Interval where
  low : Nat
  middle : Nat
  high : Nat
  endsIncluded : Bool

/-- How many half units make one: the bounds of every interval are whole numbers of half units. -/
def Interval.denominator : Nat := 2 * Binary64.unitsPerOne

def Interval.ofRank (rank : Nat) : Interval where
  low := Binary64.units (rank - 1) + Binary64.units rank
  middle := 2 * Binary64.units rank
  high := Binary64.units rank + Binary64.units (rank + 1)
  endsIncluded := Binary64.significand rank % 2 = 0

def Interval.holds (interval : Interval) (up down coefficient : Nat) : Bool :=
  let point := coefficient * up * denominator
  let low := interval.low * down
  let high := interval.high * down
  if interval.endsIncluded then low ≤ point && point ≤ high else low < point && point < high

/-- The point of the grid with spacing `up / down` that lies in the interval nearest to its
middle. -/
def Interval.nearestPoint? (interval : Interval) (tie : Tie) (up down : Nat) : Option Nat :=
  let below := interval.middle * down / (up * denominator)
  let toBelow := interval.middle * down - below * up * denominator
  let toAbove := (below + 1) * up * denominator - interval.middle * down
  match interval.holds up down below, interval.holds up down (below + 1) with
  | true, true =>
    if toBelow < toAbove ∨ (toBelow = toAbove ∧ tie = .even ∧ below % 2 = 0) then some below
    else some (below + 1)
  | true, false => some below
  | false, true => some (below + 1)
  | false, false => none

/-- The number of digits before the decimal point, negative for zeros behind it. -/
def Interval.magnitude (interval : Interval) : Int :=
  (Numeral.length (interval.middle * Nat.pow 10 324 / denominator) : Int) - 324

def Interval.withDigits? (interval : Interval) (tie : Tie) (count : Nat) : Option Decimal :=
  let exponent := interval.magnitude - count
  let point? := match exponent with
    | .ofNat e => interval.nearestPoint? tie (Nat.pow 10 e) 1
    | .negSucc e => interval.nearestPoint? tie 1 (Nat.pow 10 (e + 1))
  point?.map fun coefficient => trimmed coefficient exponent

/-- The shortest decimal that rounds to the magnitude of `rank`; seventeen digits always suffice. -/
def shortest (tie : Tie) (rank : Nat) : Decimal :=
  let interval := Interval.ofRank rank
  if rank = 0 then ⟨0, 0⟩
  else ((List.range 17).findSome? fun n => interval.withDigits? tie (n + 1)).getD ⟨0, 0⟩

end Decimal

/-- How a format spells a decimal: the exponents written positionally, and the marks it adds. -/
structure DecimalStyle where
  /-- Whether a number of this scientific exponent is written without an exponent. -/
  positional : Int → Bool
  /-- Whether a whole number written positionally ends in a point and a zero. -/
  pointZero : Bool
  plusSign : Bool
  /-- Which of two shortest decimals is taken where the number lies halfway between them. -/
  tie : Decimal.Tie

namespace DecimalStyle

private def zeros (count : Nat) : List Char := List.replicate count '0'

def magnitudeText (style : DecimalStyle) (decimal : Decimal) : String :=
  let numeral := Numeral.digits decimal.coefficient
  let point := (numeral.length : Int) + decimal.exponent
  let scientific := point - 1
  if style.positional scientific then
    if numeral.length ≤ point then
      String.ofList (numeral ++ zeros (point.toNat - numeral.length))
        ++ (if style.pointZero then ".0" else "")
    else if 0 < point then
      String.ofList (numeral.take point.toNat ++ '.' :: numeral.drop point.toNat)
    else String.ofList ('0' :: '.' :: zeros (-point).toNat ++ numeral)
  else
    let head := match numeral with
      | [] => []
      | [digit] => [digit]
      | digit :: rest => digit :: '.' :: rest
    String.ofList head ++ "e"
      ++ (if style.plusSign && 0 < scientific then "+" else "") ++ Numeral.integerText scientific

/-- The text of a finite number; other numbers have none. -/
def text? (style : DecimalStyle) : Binary64 → Option String
  | .finite negative rank =>
    some ((if negative then "-" else "") ++ style.magnitudeText (Decimal.shortest style.tie rank))
  | _ => none

end DecimalStyle

end ProtoSchema

import DoubleEntry.Calc
import DoubleEntry.Decimal.Basic

/-!
# Printed decimals

`text` writes every fraction digit of the scale and at least one whole digit; a
negative sign is written on a zero too. `fixed` writes a given number of places,
rounded half to even, and faults when the figure has more than 32 characters
besides its sign.
-/

namespace DoubleEntry

namespace Decimal

/-- The coefficient's digits, with zeros in front so that one stands before the point. -/
def digits (a : Decimal) : List Char :=
  let plain := Nat.toDigits 10 a.coefficient
  List.replicate (a.scale + 1 - plain.length) '0' ++ plain

def wholeDigits (a : Decimal) : List Char :=
  a.digits.take (a.digits.length - a.scale)

def fractionDigits (a : Decimal) : List Char :=
  a.digits.drop (a.digits.length - a.scale)

/-- Sign, whole digits, and a point with the fraction digits if there are any. -/
def textOf (negative : Bool) (whole fraction : List Char) : List Char :=
  (if negative then ['-'] else []) ++ whole ++ (if fraction.isEmpty then [] else '.' :: fraction)

def text (a : Decimal) : String :=
  String.ofList (textOf a.negative a.wholeDigits a.fractionDigits)

def figureLimit : Nat := 32

/-- Rounded to `places` and written with exactly that many fraction digits. -/
def fixed (places : Nat) (a : Decimal) : Calc String :=
  let rounded := a.roundTo places
  let fraction := rounded.fractionDigits ++ List.replicate (places - rounded.scale) '0'
  let width := rounded.wholeDigits.length + (if places = 0 then 0 else places + 1)
  if width ≤ figureLimit then
    pure (String.ofList (textOf rounded.negative rounded.wholeDigits fraction))
  else
    .fault .figureOverflow

end Decimal

end DoubleEntry

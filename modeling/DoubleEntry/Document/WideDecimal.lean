import DoubleEntry.Text.Blank
import DoubleEntry.Text.Whole

/-!
# Wide decimals

A store has decimals of 34 digits with an exponent between -6176 and 6111. No
document of this library holds one, so all that matters of a text is whether it
spells one exactly: digits beyond those that fit have to be zeros.
-/

namespace DoubleEntry

namespace WideDecimal

def mostDigits : Nat := 34

def leastExponent : Int := -6176

def greatestExponent : Int := 6111

def exponentBound : Int := 0x8000

/-- The first `count` digits, if only zeros follow. -/
def cutTo? (count : Nat) (digits : List Char) : Option (List Char) :=
  if (digits.drop count).all (· == '0') then some (digits.take count) else none

def withoutLeadingZeros (digits : List Char) : List Char :=
  let rest := digits.dropWhile (· == '0')
  if rest.isEmpty then ['0'] else rest

def isCoefficient : List Char → Bool
  | '+' :: digits => (Text.digitsValue? digits).isSome
  | digits => (Text.digitsValue? digits).isSome

/-- Cut to the digits that fit, with the exponent that then holds. -/
def fitDigits? (digits : List Char) (exponent : Int) : Option (List Char × Int) :=
  let surplus := digits.length - mostDigits
  if surplus = 0 then some (digits, exponent)
  else if exponentBound ≤ surplus ∨ exponentBound ≤ exponent + surplus then none
  else (cutTo? mostDigits digits).map fun kept => (kept, exponent + surplus)

/-- The digits left when an exponent that is too small is raised. -/
def raise? (digits : List Char) (exponent : Int) : Option (List Char) :=
  let missing := (leastExponent - exponent).toNat
  if missing = 0 ∨ digits = ['0'] then some digits
  else if digits.length < missing then none
  else cutTo? (digits.length - missing) digits

/-- The digits with zeros behind them when an exponent that is too large is lowered. -/
def lower? (digits : List Char) (exponent : Int) : Option (List Char) :=
  let surplus := (exponent - greatestExponent).toNat
  if surplus = 0 ∨ digits = ['0'] then some digits
  else if mostDigits < digits.length + surplus then none
  else some (digits ++ List.replicate surplus '0')

def fits (whole fraction : List Char) (exponent : Int) : Bool :=
  let lowered := exponent - fraction.length
  let found := do
    if exponentBound ≤ (fraction.length : Int) ∨ lowered < -exponentBound then failure
    let (digits, exponent) ← fitDigits? (withoutLeadingZeros (whole ++ fraction)) lowered
    let digits ← raise? digits exponent
    lower? digits exponent
  found.any isCoefficient

def isFinite (cs : List Char) : Bool :=
  let base := cs.takeWhile (· != 'e')
  let whole := base.takeWhile (· != '.')
  let fraction := (base.dropWhile (· != '.')).drop 1
  match cs.dropWhile (· != 'e') with
  | [] => fits whole fraction 0
  | _ :: exponent =>
    (Text.wholeWithin? exponentBound (String.ofList exponent)).any (fits whole fraction)

/-- Whether a text spells a wide decimal, an infinite one or none at all. -/
def isSpelledBy (text : String) : Bool :=
  let cs := (Text.lowerAscii text).toList
  let bare := if cs.head? == some '+' || cs.head? == some '-' then cs.tail else cs
  ["nan", "snan", "inf", "infinity"].contains (String.ofList bare) || isFinite bare

end WideDecimal

end DoubleEntry
